/-
  THE TAGS OF THE MICHAEL-SCOTT QUEUES.

  A session reads the tail (or the head) twice and compares, and `are_ms_ptrs_equal` asserts that
  both have one `queue_id` and one `my_key_id`.  Nobody sets these two fields of a head or a tail in
  one place:

  * `my_key_id` is set by the set-up, and in every pass for the pointer that is swapped in;
  * `queue_id` of that pointer is never set, and is the 0 of a session's zeroed memory; in the
    pointer that the set-up writes it is what the stack held.

  So the assertion is about every writer of a head or a tail.  `PtrOk` is the type of a pointer at a
  key: a head or a tail has the tags of its key, and every pointer leads to a node or nowhere, which
  keeps the writes to nodes away from heads and tails.  `SessionOk` says that the requests of a
  session write what has its type, and which of its pointers are heads and tails that it has
  read.  It does not need the sessions to own different nodes.
-/
import Odyssey.MsQueueSetUp
import Odyssey.Lib.Ends

namespace Odyssey

open Lib

variable {d : Deployment}

/-! ## Types of pointers -/

/-- The key ids are `uint32_t`. -/
def MsKeysFit (d : Deployment) : Prop := d.msInitDoneFlagKey ≤ 2 ^ 32

/-- Where a pointer can lead: nowhere, or to a node. -/
def Deployment.IsNext (d : Deployment) (k : Nat) : Prop := k = 0 ∨ d.isMsNode k

/-- The tags of a head or a tail. -/
structure MsPtr.Tagged (ptr : MsPtr) (key : Nat) : Prop where
  queueId : ptr.queueId = 0
  myKeyId : ptr.myKeyId = key

/-- **The type of a pointer at a key.** -/
structure PtrOk (d : Deployment) (key : Nat) (ptr : MsPtr) : Prop where
  tags : key < d.msNodePtrOffset → ptr.Tagged key
  next : d.IsNext ptr.nextKeyId

namespace MsKeysFit

variable {q k : Nat}

theorem headKey_eq (h : MsKeysFit d) (hq : q < d.msQueuesNum) :
    d.headKey q = q + d.msQueuesNum := by
  unfold MsKeysFit Deployment.msInitDoneFlagKey Deployment.msNodeKeyOffset
    Deployment.dummyKeyIdOffset Deployment.lastMsNodePtr Deployment.msNodePtrOffset msWritesNum at h
  unfold Deployment.headKey Deployment.msHeadKeyIdOffset
  rw [u32_of_lt (by omega)]

theorem tail_lt (hq : q < d.msQueuesNum) : q < d.msNodePtrOffset := by
  unfold Deployment.msNodePtrOffset
  omega

theorem head_lt (h : MsKeysFit d) (hq : q < d.msQueuesNum) : d.headKey q < d.msNodePtrOffset := by
  rw [h.headKey_eq hq]
  unfold Deployment.msNodePtrOffset
  omega

/-- **The pointers of nodes** are behind the heads and tails; so is the key that is computed from
    no node. -/
theorem offset_le (h : MsKeysFit d) (hk : d.IsNext k) :
    d.msNodePtrOffset ≤ d.msGetNodePtrKeyId k := by
  unfold MsKeysFit Deployment.msInitDoneFlagKey Deployment.msNodeKeyOffset
    Deployment.dummyKeyIdOffset Deployment.lastMsNodePtr Deployment.msNodePtrOffset msWritesNum at h
  have hdummy : d.dummyKeyIdOffset = 4 * d.msQueuesNum + 1 := by
    unfold Deployment.dummyKeyIdOffset Deployment.lastMsNodePtr Deployment.msNodePtrOffset
    omega
  unfold Deployment.msGetNodePtrKeyId Deployment.msNodePtrOffset msWritesNum u32
  rw [hdummy, Nat.div_one]
  rcases hk with rfl | ⟨hlo, hhi⟩
  · omega
  · unfold Deployment.msInitDoneFlagKey Deployment.msNodeKeyOffset msWritesNum at hhi
    omega

theorem dummy_isNext (h : MsKeysFit d) (hq : q < d.msQueuesNum) : d.IsNext (d.dummyKey q) := by
  unfold MsKeysFit Deployment.msInitDoneFlagKey Deployment.msNodeKeyOffset msWritesNum at h
  unfold Deployment.dummyKey Deployment.IsNext Deployment.isMsNode Deployment.msInitDoneFlagKey
    Deployment.msNodeKeyOffset msWritesNum
  rw [u32_of_lt (by omega)]
  omega

end MsKeysFit

/-- A pointer of a node has no tags to keep. -/
theorem PtrOk.of_le {key : Nat} {ptr : MsPtr} (hkey : d.msNodePtrOffset ≤ key)
    (hnext : d.IsNext ptr.nextKeyId) : PtrOk d key ptr :=
  ⟨fun hlt => absurd hkey (Nat.not_le.mpr hlt), hnext⟩

/-- Pointers with the tags of one key can be compared. -/
theorem MsPtr.Tagged.comparable {ptr1 ptr2 : MsPtr} {key : Nat} (h1 : ptr1.Tagged key)
    (h2 : ptr2.Tagged key) : ∃ b, areMsPtrsEqual ptr1 ptr2 = .ok b := by
  refine ⟨_, if_pos ⟨?_, ?_⟩⟩
  · rw [h1.queueId, h2.queueId]
  · rw [h1.myKeyId, h2.myKeyId]

/-! ## Sessions -/

namespace MsSessInfo

variable (info : MsSessInfo)

/-- What a buffer holds. -/
def buffer : MsBuffer → MsPtr
  | .tail => info.tail
  | .secondTail => info.secondTail
  | .head => info.head
  | .secondHead => info.secondHead
  | .ownedNodePtr => info.ownedNodePtr
  | .lastNodePtr => info.lastOrFirstNodeMsPtr

/-- The head or tail that is read into a buffer. -/
def source (d : Deployment) : MsBuffer → Option Nat
  | .tail | .secondTail => some info.queueId
  | .head | .secondHead => some (d.headKey info.queueId)
  | .ownedNodePtr | .lastNodePtr => none

/-- The buffers that are going to be compared. -/
def compares : MsBuffer → Prop
  | .tail => info.enqOrDeqState = .enqueuing ∧
      (info.state = .readTail ∨ info.state = .readLastNode)
  | .secondTail => info.enqOrDeqState = .enqueuing ∧ info.state = .readLastNode
  | .head => info.enqOrDeqState = .dequeuing ∧
      (info.state = .readHead ∨ info.state = .readFirstNode)
  | .secondHead => info.enqOrDeqState = .dequeuing ∧ info.state = .readFirstNode
  | .ownedNodePtr | .lastNodePtr => False

/-- What a session holds, apart from its buffers. -/
structure Ok (d : Deployment) : Prop where
  queue_lt : info.queueId < d.msQueuesNum
  newTail : info.newTail.queueId = 0
  newHead : info.newHead.queueId = 0
  ownedKey : d.IsNext info.ownedKey
  ownedKeyPtr : d.msNodePtrOffset ≤ info.ownedKeyPtr
  next : ∀ b, d.IsNext (info.buffer b).nextKeyId

theorem Ok.congr {info info' : MsSessInfo} (h : info.Ok d) (hqueue : info'.queueId = info.queueId)
    (htail : info'.newTail.queueId = info.newTail.queueId)
    (hhead : info'.newHead.queueId = info.newHead.queueId)
    (hkey : info'.ownedKey = info.ownedKey) (hptr : info'.ownedKeyPtr = info.ownedKeyPtr)
    (hnext : ∀ b, (info'.buffer b).nextKeyId = (info.buffer b).nextKeyId ∨
      (info'.buffer b).nextKeyId = 0) : info'.Ok d := by
  refine ⟨?_, htail.trans h.newTail, hhead.trans h.newHead, ?_, ?_, fun b => ?_⟩
  · rw [hqueue]
    exact h.queue_lt
  · rw [hkey]
    exact h.ownedKey
  · rw [hptr]
    exact h.ownedKeyPtr
  · rcases hnext b with hsame | hzero
    · rw [hsame]
      exact h.next b
    · exact Or.inl hzero

/-- **The type of a request.** -/
def RequestOk (d : Deployment) : MsReq → Prop
  | .readPtr keyId buffer => ∀ key, info.source d buffer = some key → keyId = key
  | .writePtr keyId ptr => PtrOk d keyId ptr
  | .cas keyId swap ptr => PtrOk d keyId ptr ∧ (swap = .tail → keyId = info.queueId) ∧
      (swap = .head → keyId = d.headKey info.queueId)
  | .readNode .. | .writeNode .. | .readFlag | .releaseFlag .. => True

end MsSessInfo

/-- No read into a buffer is waiting. -/
def Settled (queue : List MsReq) (b : MsBuffer) : Prop := ∀ key, MsReq.readPtr key b ∉ queue

theorem Settled.cons {queue : List MsReq} {b : MsBuffer} (h : Settled queue b) {r : MsReq}
    (hr : ∀ key, r ≠ .readPtr key b) : Settled (r :: queue) b := by
  intro key hmem
  rcases List.mem_cons.mp hmem with heq | hold
  · exact hr key heq.symm
  · exact h key hold

/-- **What holds of a session.** -/
structure SessionOk (d : Deployment) (x : MsSession) : Prop where
  info : x.info.Ok d
  requests : ∀ r ∈ x.queue, x.info.RequestOk d r
  tags : ∀ b key, x.info.compares b → x.info.source d b = some key → Settled x.queue b →
    (x.info.buffer b).Tagged key
  /-- a dequeue that has asked for the head has asked for the tail behind it -/
  tailLast : x.info.enqOrDeqState = .dequeuing → x.info.state = .readHead →
    ∀ r ∈ x.queue.getLast?, r = .readPtr x.info.queueId .tail
  lastReq : x.info.state ≠ .init → x.info.state ≠ .loopStart →
    x.info.lastReqId = u32 (x.issued - x.info.lag)

namespace SessionOk

variable {x : MsSession}

/-- A session that waits for all its requests. -/
theorem queue_nil (h : SessionOk d x) (hle : x.queue.length ≤ x.issued) (hfew : x.issued < 2 ^ 32)
    (hinit : x.info.state ≠ .init) (hloop : x.info.state ≠ .loopStart) (hlag : x.info.lag = 0)
    (hpoll : pollAReqBlocking x x.info.lastReqId = .ok ()) : x.queue = [] := by
  rw [h.lastReq hinit hloop, hlag] at hpoll
  have hnone := executed_of_poll hle hfew (Nat.sub_le ..) hpoll
  exact List.length_eq_zero_iff.mp (by omega)

/-- A pass that stays in its queue. -/
theorem moved (h : SessionOk d x) {info : MsSessInfo} {requests : List MsReq} (hinfo : info.Ok d)
    (hqueue : info.queueId = x.info.queueId) (hrequests : ∀ r ∈ requests, info.RequestOk d r)
    (htags : ∀ b key, info.compares b → info.source d b = some key →
      Settled (x.queue ++ requests) b → (info.buffer b).Tagged key)
    (htail : info.enqOrDeqState = .dequeuing → info.state = .readHead →
      ∀ r ∈ (x.queue ++ requests).getLast?, r = .readPtr info.queueId .tail)
    (hlastReq : info.state ≠ .init → info.state ≠ .loopStart →
      ∃ n, info.lag = n ∧ info.lastReqId = u32 (x.issued + requests.length - n)) :
    SessionOk d ⟨info, x.queue ++ requests, x.issued + requests.length⟩ := by
  refine ⟨hinfo, fun r hr => ?_, htags, htail, fun hinit hloop => ?_⟩
  case refine_2 =>
    obtain ⟨n, hlag, hreq⟩ := hlastReq hinit hloop
    rw [hlag]
    exact hreq
  rcases List.mem_append.mp hr with hold | hnew
  · have hok := h.requests r hold
    have hsource : info.source d = x.info.source d := by
      funext b
      cases b <;> simp only [MsSessInfo.source, hqueue]
    cases r with
    | readPtr keyId buffer =>
      intro key hkey
      rw [hsource] at hkey
      exact hok key hkey
    | writePtr keyId ptr => exact hok
    | readNode keyId i => trivial
    | writeNode keyId node => trivial
    | cas keyId swap ptr =>
      show _ ∧ (_ → keyId = info.queueId) ∧ (_ → keyId = d.headKey info.queueId)
      rw [hqueue]
      exact hok
    | readFlag => trivial
    | releaseFlag flag => trivial
  · exact hrequests r hnew

/-- A pass after which no buffer is compared, and nothing new is waited for in a dequeue. -/
theorem moved_free (h : SessionOk d x) {info : MsSessInfo} {requests : List MsReq}
    (hinfo : info.Ok d) (hqueue : info.queueId = x.info.queueId)
    (hrequests : ∀ r ∈ requests, info.RequestOk d r) (hfree : ∀ b, ¬ info.compares b)
    (hlastReq : info.state ≠ .init → info.state ≠ .loopStart →
      ∃ n, info.lag = n ∧ info.lastReqId = u32 (x.issued + requests.length - n)) :
    SessionOk d ⟨info, x.queue ++ requests, x.issued + requests.length⟩ := by
  refine h.moved hinfo hqueue hrequests (fun b _ hcompares => absurd hcompares (hfree b)) ?_ hlastReq
  intro hdeq hstate
  exact absurd ⟨hdeq, Or.inl hstate⟩ (hfree .head)

end SessionOk

theorem not_compares {info : MsSessInfo}
    (h : info.state = .init ∨ info.state = .loopStart ∨ info.state = .potentialSuccess)
    (b : MsBuffer) : ¬ info.compares b := by
  cases b <;> rcases h with h | h | h <;> simp [MsSessInfo.compares, h]

theorem lag_enqueuing {info : MsSessInfo} (h : info.enqOrDeqState = .enqueuing) : info.lag = 0 := by
  rw [MsSessInfo.lag, h]
  exact if_neg fun hc => by cases hc.1

theorem lag_of_state {info : MsSessInfo} (h : info.state ≠ .readHead) : info.lag = 0 :=
  if_neg fun hc => h hc.2

/-- A call that does not fail the assertion. -/
abbrev NotUndefined (e : Stuck) : Prop := e ≠ .undefined

theorem poll_notUndefined {x : MsSession} {target : Nat} {P : Prop}
    (h : pollAReqBlocking x target = .ok () → P) :
    Ends NotUndefined (pollAReqBlocking x target) fun _ => P := by
  refine Ends.intro (fun a ha => h ha) fun e he => ?_
  unfold pollAReqBlocking at he
  split at he
  · nomatch he
  · cases he
    decide

/-! ## The state machine of an enqueue -/

section Enqueue

variable {x : MsSession}

/-- With `new_tail->my_key_id` set. -/
def MsSessInfo.aimed (info : MsSessInfo) : MsSessInfo :=
  { info with newTail := { info.newTail with myKeyId := info.queueId } }

/-- What the new tail of a session is, when it is swapped in. -/
theorem MsSessInfo.Ok.tail_ok {info : MsSessInfo} (h : info.Ok d) (ptr : MsPtr) {n : Nat}
    (hn : d.IsNext n) : PtrOk d info.queueId (info.aimed.newTail.advance ptr n) :=
  ⟨fun _ => ⟨h.newTail, rfl⟩, hn⟩

theorem enqLoopStart_ok (h : SessionOk d x) {info : MsSessInfo} (hinfo : info.Ok d)
    (hqueue : info.queueId = x.info.queueId) (henq : info.enqOrDeqState = .enqueuing)
    {writes : List MsReq} (hwrites : ∀ r ∈ writes, info.RequestOk d r) :
    SessionOk d ⟨(Deployment.enqLoopStart x info writes).1,
      x.queue ++ (Deployment.enqLoopStart x info writes).2,
      x.issued + (Deployment.enqLoopStart x info writes).2.length⟩ := by
  refine h.moved ?_ hqueue ?_ ?_ ?_ ?_
  · exact hinfo.congr rfl rfl rfl rfl rfl fun b => Or.inl (by cases b <;> rfl)
  · intro r hr
    rcases List.mem_append.mp hr with hr | hr
    · have hok := hwrites r hr
      cases r with
      | readPtr keyId buffer => cases buffer <;> exact hok
      | writePtr | readNode | writeNode | cas | readFlag | releaseFlag => exact hok
    · rw [List.mem_singleton.mp hr]
      intro key hkey
      exact Option.some.inj hkey
  · intro b key hcompares hsource hsettled
    cases b with
    | tail =>
      refine absurd ?_ (hsettled info.queueId)
      exact List.mem_append_right _ (List.mem_append_right _ (List.mem_singleton_self _))
    | secondTail => nomatch hcompares.2
    | head => nomatch henq.symm.trans hcompares.1
    | secondHead => nomatch henq.symm.trans hcompares.1
    | ownedNodePtr => nomatch hsource
    | lastNodePtr => nomatch hsource
  · intro hdeq
    nomatch henq.symm.trans hdeq
  · intro _ _
    refine ⟨0, lag_enqueuing henq, ?_⟩
    show u32 (x.issued + (writes.length + 1)) = u32 (x.issued + (writes ++ [_]).length - 0)
    rw [List.length_append]
    rfl

/-- **A pass of an enqueue** keeps the types, and does not fail the assertion. -/
theorem msEnqueue_ok (h : SessionOk d x) (hkeys : MsKeysFit d)
    (henq : x.info.enqOrDeqState = .enqueuing) (hle : x.queue.length ≤ x.issued)
    (hfew : x.issued < 2 ^ 32) :
    Ends NotUndefined (d.msEnqueue x) fun p =>
      SessionOk d ⟨p.1, x.queue ++ p.2, x.issued + p.2.length⟩ := by
  have hinfo := h.info
  have haimed : x.info.aimed.Ok d :=
    hinfo.congr rfl rfl rfl rfl rfl fun b => Or.inl (by cases b <;> rfl)
  have hpoll : ∀ {state}, x.info.state = state → state ≠ .init → state ≠ .loopStart →
      Ends NotUndefined (pollAReqBlocking x x.info.lastReqId) fun _ => x.queue = [] := by
    intro state hstate hinit hloop
    subst hstate
    exact poll_notUndefined (h.queue_nil hle hfew hinit hloop (lag_enqueuing henq))
  unfold Deployment.msEnqueue
  cases hstate : x.info.state with
  | init =>
    dsimp only
    rw [hstate]
    refine Ends.ok (enqLoopStart_ok h ?_ ?_ ?_ ?_)
    · refine haimed.congr rfl rfl rfl rfl rfl fun b => ?_
      cases b with
      | ownedNodePtr => exact Or.inr rfl
      | tail | secondTail | head | secondHead | lastNodePtr => exact Or.inl rfl
    · rfl
    · exact henq
    · intro r hr
      rcases List.mem_append.mp hr with hr | hr
      · obtain ⟨i, -, rfl⟩ := List.mem_map.mp hr
        trivial
      · rw [List.mem_singleton.mp hr]
        exact PtrOk.of_le hinfo.ownedKeyPtr (Or.inl rfl)
  | loopStart =>
    dsimp only
    rw [hstate]
    refine Ends.ok (enqLoopStart_ok h ?_ ?_ ?_ ?_)
    · exact haimed.congr rfl rfl rfl rfl rfl fun b => Or.inl (by cases b <;> rfl)
    · rfl
    · exact henq
    · exact fun r hr => nomatch hr
  | readTail =>
    dsimp only
    rw [hstate]
    refine (hpoll hstate (by decide) (by decide)).bind fun _ hnil => Ends.ok ?_
    refine h.moved ?_ rfl ?_ ?_ ?_ ?_
    · exact haimed.congr rfl rfl rfl rfl rfl fun b => Or.inl (by cases b <;> rfl)
    · intro r hr
      rcases List.mem_cons.mp hr with rfl | hr
      · exact fun key hkey => nomatch hkey
      · rw [List.mem_singleton.mp hr]
        exact fun key hkey => Option.some.inj hkey
    · intro b key hcompares hsource hsettled
      cases b with
      | tail =>
        refine h.tags .tail key ⟨henq, Or.inl hstate⟩ hsource fun key' hmem => ?_
        rw [hnil] at hmem
        nomatch hmem
      | secondTail =>
        refine absurd ?_ (hsettled x.info.queueId)
        rw [hnil]
        exact List.mem_cons_of_mem _ (List.mem_singleton_self _)
      | head => nomatch henq.symm.trans hcompares.1
      | secondHead => nomatch henq.symm.trans hcompares.1
      | ownedNodePtr => nomatch hsource
      | lastNodePtr => nomatch hsource
    · exact fun hdeq => nomatch henq.symm.trans hdeq
    · exact fun _ _ => ⟨0, lag_enqueuing henq, rfl⟩
  | readLastNode =>
    dsimp only
    rw [hstate]
    refine (hpoll hstate (by decide) (by decide)).bind fun _ hnil => ?_
    have hsettled : ∀ b, Settled x.queue b := by
      intro b key hmem
      rw [hnil] at hmem
      nomatch hmem
    -- both reads of the tail have its tags
    obtain ⟨equal, hequal⟩ := (h.tags .tail _ ⟨henq, Or.inr hstate⟩ rfl (hsettled _)).comparable
      (h.tags .secondTail _ ⟨henq, hstate⟩ rfl (hsettled _))
    change areMsPtrsEqual x.info.tail x.info.secondTail = .ok equal at hequal
    rw [hequal, ok_bind]
    split
    · refine Ends.ok (h.moved_free ?_ rfl (fun r hr => nomatch hr) (not_compares (Or.inr (Or.inl rfl)))
        fun _ hloop => absurd rfl hloop)
      exact haimed.congr rfl rfl rfl rfl rfl fun b => Or.inl (by cases b <;> rfl)
    · split
      · refine Ends.ok (h.moved_free ?_ rfl ?_ (not_compares (Or.inr (Or.inr rfl))) fun _ _ => ?_)
        · exact haimed.congr rfl rfl rfl rfl rfl fun b => Or.inl (by cases b <;> rfl)
        · intro r hr
          rw [List.mem_singleton.mp hr]
          exact ⟨PtrOk.of_le (hkeys.offset_le (hinfo.next .tail)) hinfo.ownedKey,
            (fun hc => nomatch hc), fun hc => nomatch hc⟩
        · exact ⟨0, lag_enqueuing henq, rfl⟩
      · refine Ends.ok (h.moved_free ?_ rfl ?_ (not_compares (Or.inr (Or.inl rfl)))
          fun _ hloop => absurd rfl hloop)
        · exact haimed.congr rfl rfl rfl rfl rfl fun b => Or.inl (by cases b <;> rfl)
        · intro r hr
          rw [List.mem_singleton.mp hr]
          exact ⟨hinfo.tail_ok _ (hinfo.next .lastNodePtr), (fun _ => rfl), fun hc => nomatch hc⟩
  | potentialSuccess =>
    dsimp only
    rw [hstate]
    refine (hpoll hstate (by decide) (by decide)).bind fun _ hnil => ?_
    split
    · refine Ends.ok (h.moved_free ?_ rfl ?_ (not_compares (Or.inl rfl)) fun hinit => absurd rfl hinit)
      · exact haimed.congr rfl rfl rfl rfl rfl fun b => Or.inl (by cases b <;> rfl)
      · intro r hr
        rw [List.mem_singleton.mp hr]
        exact ⟨hinfo.tail_ok _ hinfo.ownedKey, (fun _ => rfl), fun hc => nomatch hc⟩
    · refine Ends.ok (h.moved_free ?_ rfl (fun r hr => nomatch hr) (not_compares (Or.inr (Or.inl rfl)))
        fun _ hloop => absurd rfl hloop)
      exact haimed.congr rfl rfl rfl rfl rfl fun b => Or.inl (by cases b <;> rfl)
  | readHead | readFirstNode =>
    dsimp only
    rw [hstate]
    refine Ends.ok (h.moved_free ?_ rfl (fun r hr => nomatch hr) ?_ fun hinit hloop => ?_)
    · exact haimed.congr rfl rfl rfl rfl rfl fun b => Or.inl (by cases b <;> rfl)
    · intro b hcompares
      cases b with
      | tail => rcases hcompares.2 with hc | hc <;> nomatch hc
      | secondTail => nomatch hcompares.2
      | head => nomatch henq.symm.trans hcompares.1
      | secondHead => nomatch henq.symm.trans hcompares.1
      | ownedNodePtr => exact hcompares
      | lastNodePtr => exact hcompares
    · have hreq := h.lastReq (by rw [hstate]; decide) (by rw [hstate]; decide)
      rw [lag_enqueuing henq] at hreq
      exact ⟨0, lag_enqueuing henq, hreq⟩

end Enqueue

/-! ## The state machine of a dequeue -/

section Dequeue

variable {x : MsSession}

/-- What the new head of a session is, when it is swapped in. -/
theorem MsSessInfo.Ok.head_ok {info : MsSessInfo} (h : info.Ok d) (ptr : MsPtr) {n : Nat}
    (hn : d.IsNext n) : PtrOk d (d.headKey info.queueId)
      (({ info.newHead with myKeyId := d.headKey info.queueId } : MsPtr).advance ptr n) :=
  ⟨fun _ => ⟨h.newHead, rfl⟩, hn⟩

/-- **A pass of a dequeue** keeps the types, and does not fail the assertion. -/
theorem msDequeue_ok (h : SessionOk d x) (hkeys : MsKeysFit d) {cntr : Nat}
    (hcntr : cntr < d.msQueuesNum) (hdeq : x.info.enqOrDeqState = .dequeuing)
    (hle : x.queue.length ≤ x.issued) (hfew : x.issued < 2 ^ 32) :
    Ends NotUndefined (d.msDequeue cntr x) fun p => p.1 < d.msQueuesNum ∧
      SessionOk d ⟨p.2.1, x.queue ++ p.2.2, x.issued + p.2.2.length⟩ := by
  have hinfo := h.info
  have hpoll : ∀ {state}, x.info.state = state → state ≠ .init → state ≠ .loopStart →
      state ≠ .readHead →
      Ends NotUndefined (pollAReqBlocking x x.info.lastReqId) fun _ => x.queue = [] := by
    intro state hstate hinit hloop hhead
    subst hstate
    exact poll_notUndefined (h.queue_nil hle hfew hinit hloop (lag_of_state hhead))
  -- what is waited for when the head and the tail were asked for
  have hstart : SessionOk d ⟨{ x.info with
      newTail := { x.info.newTail with myKeyId := x.info.queueId }
      newHead := { x.info.newHead with myKeyId := d.headKey x.info.queueId }
      lastReqId := lastReqIdAfter x 1, state := .readHead },
      x.queue ++ [.readPtr (d.headKey x.info.queueId) .head, .readPtr x.info.queueId .tail],
      x.issued + 2⟩ := by
    refine h.moved ?_ rfl ?_ ?_ ?_ ?_
    · exact hinfo.congr rfl rfl rfl rfl rfl fun b => Or.inl (by cases b <;> rfl)
    · intro r hr
      rcases List.mem_cons.mp hr with rfl | hr
      · exact fun key hkey => Option.some.inj hkey
      · rw [List.mem_singleton.mp hr]
        exact fun key hkey => Option.some.inj hkey
    · intro b key hcompares hsource hsettled
      cases b with
      | tail => nomatch hdeq.symm.trans hcompares.1
      | secondTail => nomatch hdeq.symm.trans hcompares.1
      | head =>
        refine absurd ?_ (hsettled (d.headKey x.info.queueId))
        exact List.mem_append_right _ List.mem_cons_self
      | secondHead => nomatch hcompares.2
      | ownedNodePtr => nomatch hsource
      | lastNodePtr => nomatch hsource
    · intro _ _ r hr
      rw [List.getLast?_append] at hr
      exact (Option.some.inj hr).symm
    · exact fun _ _ => ⟨1, if_pos ⟨hdeq, rfl⟩, rfl⟩
  unfold Deployment.msDequeue
  cases hstate : x.info.state with
  | init | loopStart =>
    dsimp only
    rw [hstate]
    exact Ends.ok ⟨hcntr, hstart⟩
  | readHead =>
    dsimp only
    rw [hstate]
    have hlag : x.info.lag = 1 := if_pos ⟨hdeq, hstate⟩
    have hreq := h.lastReq (by rw [hstate]; decide) (by rw [hstate]; decide)
    rw [hlag] at hreq
    have hhead : Ends NotUndefined (pollAReqBlocking x x.info.lastReqId) fun _ =>
        Settled x.queue .head := by
      refine poll_notUndefined fun hpoll => ?_
      rw [hreq] at hpoll
      have hfew' := executed_of_poll hle hfew (Nat.sub_le ..) hpoll
      -- only the tail can be left to read
      intro key hmem
      match hqueue : x.queue with
      | [] =>
        rw [hqueue] at hmem
        nomatch hmem
      | [r] =>
        have hlast := h.tailLast hdeq hstate r (by rw [hqueue]; rfl)
        rw [hqueue, List.mem_singleton, hlast] at hmem
        nomatch hmem
      | _ :: _ :: _ =>
        rw [hqueue, List.length_cons, List.length_cons] at hfew'
        omega
    refine hhead.bind fun _ hsettled => Ends.ok ⟨hcntr, ?_⟩
    refine h.moved ?_ rfl ?_ ?_ ?_ ?_
    · exact hinfo.congr rfl rfl rfl rfl rfl fun b => Or.inl (by cases b <;> rfl)
    · intro r hr
      rcases List.mem_cons.mp hr with rfl | hr
      · exact fun key hkey => nomatch hkey
      · rw [List.mem_singleton.mp hr]
        exact fun key hkey => Option.some.inj hkey
    · intro b key hcompares hsource hsettled'
      cases b with
      | tail => nomatch hdeq.symm.trans hcompares.1
      | secondTail => nomatch hdeq.symm.trans hcompares.1
      | head => exact h.tags .head key ⟨hdeq, Or.inl hstate⟩ hsource hsettled
      | secondHead =>
        refine absurd ?_ (hsettled' (d.headKey x.info.queueId))
        exact List.mem_append_right _ (List.mem_cons_of_mem _ (List.mem_singleton_self _))
      | ownedNodePtr => nomatch hsource
      | lastNodePtr => nomatch hsource
    · exact fun _ hhead => nomatch hhead
    · exact fun _ _ => ⟨0, lag_of_state fun hc => (nomatch hc), rfl⟩
  | readFirstNode =>
    dsimp only
    rw [hstate]
    refine (hpoll hstate (by decide) (by decide) (by decide)).bind fun _ hnil => ?_
    have hsettled : ∀ b, Settled x.queue b := by
      intro b key hmem
      rw [hnil] at hmem
      nomatch hmem
    -- both reads of the head have its tags
    obtain ⟨equal, hequal⟩ := (h.tags .head _ ⟨hdeq, Or.inr hstate⟩ rfl (hsettled _)).comparable
      (h.tags .secondHead _ ⟨hdeq, hstate⟩ rfl (hsettled _))
    change areMsPtrsEqual x.info.head x.info.secondHead = .ok equal at hequal
    rw [hequal, ok_bind]
    split
    · refine Ends.ok ⟨hcntr, h.moved_free ?_ rfl (fun r hr => nomatch hr)
        (not_compares (Or.inr (Or.inl rfl))) fun _ hloop => absurd rfl hloop⟩
      exact hinfo.congr rfl rfl rfl rfl rfl fun b => Or.inl (by cases b <;> rfl)
    · split
      · refine Ends.ok ⟨hcntr, h.moved_free ?_ rfl ?_ (not_compares (Or.inr (Or.inl rfl)))
          fun _ hloop => absurd rfl hloop⟩
        · exact hinfo.congr rfl rfl rfl rfl rfl fun b => Or.inl (by cases b <;> rfl)
        · intro r hr
          rw [List.mem_singleton.mp hr]
          exact ⟨hinfo.tail_ok _ (hinfo.next .ownedNodePtr), (fun _ => rfl), fun hc => nomatch hc⟩
      · refine Ends.ok ⟨hcntr, h.moved_free ?_ rfl ?_ (not_compares (Or.inr (Or.inr rfl)))
          fun _ _ => ?_⟩
        · exact hinfo.congr rfl rfl rfl rfl rfl fun b => Or.inl (by cases b <;> rfl)
        · intro r hr
          rcases List.mem_append.mp hr with hr | hr
          · obtain ⟨i, -, rfl⟩ := List.mem_map.mp hr
            trivial
          · rw [List.mem_singleton.mp hr]
            exact ⟨hinfo.head_ok _ (hinfo.next .ownedNodePtr), (fun hc => nomatch hc), fun _ => rfl⟩
        · exact ⟨0, lag_of_state fun hc => (nomatch hc), rfl⟩
  | potentialSuccess =>
    dsimp only
    rw [hstate]
    refine (hpoll hstate (by decide) (by decide) (by decide)).bind fun _ hnil => ?_
    split
    · -- on to the next queue, with no request left
      refine Ends.ok ⟨d.incrQueueId_lt hcntr, ?_⟩
      rw [hnil]
      constructor
      case info =>
        refine ⟨hcntr, hinfo.newTail, hinfo.newHead, hinfo.next .head, ?_, fun b => ?_⟩
        · exact hkeys.offset_le (hinfo.next .head)
        · have hnext := hinfo.next b
          cases b <;> exact hnext
      case requests => exact fun r hr => nomatch hr
      case tags => exact fun b _ hcompares => absurd hcompares (not_compares (Or.inl rfl) b)
      case tailLast => exact fun hc => nomatch hc
      case lastReq => exact fun hinit => absurd rfl hinit
    · refine Ends.ok ⟨hcntr, h.moved_free ?_ rfl (fun r hr => nomatch hr)
        (not_compares (Or.inr (Or.inl rfl))) fun _ hloop => absurd rfl hloop⟩
      exact hinfo.congr rfl rfl rfl rfl rfl fun b => Or.inl (by cases b <;> rfl)
  | readTail | readLastNode =>
    dsimp only
    rw [hstate]
    refine Ends.ok ⟨hcntr, h.moved_free ?_ rfl (fun r hr => nomatch hr) ?_ fun hinit hloop => ?_⟩
    · exact hinfo.congr rfl rfl rfl rfl rfl fun b => Or.inl (by cases b <;> rfl)
    · intro b hcompares
      cases b with
      | tail => nomatch hdeq.symm.trans hcompares.1
      | secondTail => nomatch hdeq.symm.trans hcompares.1
      | head => rcases hcompares.2 with hc | hc <;> nomatch hc
      | secondHead => nomatch hcompares.2
      | ownedNodePtr => exact hcompares
      | lastNodePtr => exact hcompares
    · have hreq := h.lastReq (by rw [hstate]; decide) (by rw [hstate]; decide)
      rw [lag_of_state (by rw [hstate]; decide)] at hreq
      exact ⟨0, lag_of_state fun hc => (nomatch hc), hreq⟩

end Dequeue

/-! ## The store -/

section Serve

variable {x : MsSession} {store : MsStore}

/-- **Every pointer has the type of its key.** -/
def StoreOk (d : Deployment) (store : MsStore) : Prop := ∀ key, PtrOk d key (store.ptr key)

theorem StoreOk.write (h : StoreOk d store) {key : Nat} {ptr : MsPtr} (hptr : PtrOk d key ptr) :
    StoreOk d (store.write key ptr) := by
  intro key'
  show PtrOk d key' (Function.update store.ptr key ptr key')
  by_cases hkey : key' = key
  · rw [hkey, Function.update_self]
    exact hptr
  · rw [Function.update_of_ne hkey]
    exact h key'

theorem source_lt {info : MsSessInfo} (hinfo : info.Ok d) (hkeys : MsKeysFit d) {b : MsBuffer}
    {key : Nat} (h : info.source d b = some key) : key < d.msNodePtrOffset := by
  have htail := MsKeysFit.tail_lt hinfo.queue_lt
  have hhead := hkeys.head_lt hinfo.queue_lt
  cases b <;> cases h
  · exact htail
  · exact htail
  · exact hhead
  · exact hhead

theorem buffer_fill (info : MsSessInfo) (ptr : MsPtr) (b b' : MsBuffer) :
    (info.fill ptr b).buffer b' = if b' = b then ptr else info.buffer b' := by
  cases b <;> cases b' <;> rfl

/-- The buffer that a compare-and-swap expects, and overwrites when it fails. -/
def MsSwap.buffer : MsSwap → MsBuffer
  | .lastNode => .lastNodePtr
  | .tail => .tail
  | .head => .head

theorem buffer_swapped (info : MsSessInfo) (old : MsPtr) (result : Bool) (swap : MsSwap)
    (b : MsBuffer) :
    (info.swapped old result swap).buffer b = if b = swap.buffer then old else info.buffer b := by
  cases swap <;> cases b <;> rfl

theorem expected_eq (info : MsSessInfo) (swap : MsSwap) :
    info.expected swap = info.buffer swap.buffer := by
  cases swap <;> rfl

theorem MsSessInfo.Ok.fill {info : MsSessInfo} (h : info.Ok d) {ptr : MsPtr}
    (hptr : d.IsNext ptr.nextKeyId) (b : MsBuffer) : (info.fill ptr b).Ok d := by
  have hnext : ∀ b', d.IsNext ((info.fill ptr b).buffer b').nextKeyId := by
    intro b'
    rw [buffer_fill]
    split
    · exact hptr
    · exact h.next b'
  cases b <;> exact ⟨h.queue_lt, h.newTail, h.newHead, h.ownedKey, h.ownedKeyPtr, hnext⟩

theorem MsSessInfo.Ok.swapped {info : MsSessInfo} (h : info.Ok d) {old : MsPtr}
    (hold : d.IsNext old.nextKeyId) (result : Bool) (swap : MsSwap) :
    (info.swapped old result swap).Ok d := by
  have hnext : ∀ b, d.IsNext ((info.swapped old result swap).buffer b).nextKeyId := by
    intro b
    rw [buffer_swapped]
    split
    · exact hold
    · exact h.next b
  cases swap <;> exact ⟨h.queue_lt, h.newTail, h.newHead, h.ownedKey, h.ownedKeyPtr, hnext⟩

/-- A request was executed. -/
theorem SessionOk.served (h : SessionOk d x) {r : MsReq} {queue : List MsReq}
    (hqueue : x.queue = r :: queue) {info : MsSessInfo} (hinfo : info.Ok d)
    (hsame : info.Same x.info)
    (htags : ∀ b key, x.info.compares b → x.info.source d b = some key → Settled queue b →
      (info.buffer b).Tagged key) : SessionOk d ⟨info, queue, x.issued⟩ := by
  have hsource : info.source d = x.info.source d := by
    funext b
    cases b <;> simp only [MsSessInfo.source, hsame.queueId]
  have hcompares : ∀ b, info.compares b ↔ x.info.compares b := by
    intro b
    cases b <;> simp only [MsSessInfo.compares, hsame.enqOrDeq, hsame.state]
  constructor
  case info => exact hinfo
  case requests =>
    intro r' hr'
    have hok := h.requests r' (by rw [hqueue]; exact List.mem_cons_of_mem _ hr')
    cases r' with
    | readPtr keyId buffer =>
      intro key hkey
      rw [hsource] at hkey
      exact hok key hkey
    | writePtr keyId ptr => exact hok
    | readNode keyId i => trivial
    | writeNode keyId node => trivial
    | cas keyId swap ptr =>
      show _ ∧ (_ → keyId = info.queueId) ∧ (_ → keyId = d.headKey info.queueId)
      rw [hsame.queueId]
      exact hok
    | readFlag => trivial
    | releaseFlag flag => trivial
  case tags =>
    intro b key hc hs hsettled
    rw [hsource] at hs
    exact htags b key ((hcompares b).mp hc) hs hsettled
  case tailLast =>
    intro hdeq hstate r' hr'
    show r' = .readPtr info.queueId .tail
    rw [hsame.queueId]
    refine h.tailLast (hsame.enqOrDeq.symm.trans hdeq) (hsame.state.symm.trans hstate) r' ?_
    rw [hqueue]
    cases hq : queue with
    | nil =>
      rw [hq] at hr'
      nomatch hr'
    | cons a l =>
      rw [hq] at hr'
      rw [List.getLast?_cons_cons]
      exact hr'
  case lastReq =>
    intro hinit hloop
    show info.lastReqId = u32 (x.issued - info.lag)
    change info.state ≠ .init at hinit
    change info.state ≠ .loopStart at hloop
    rw [hsame.state] at hinit hloop
    rw [hsame.lag, hsame.lastReqId]
    exact h.lastReq hinit hloop

/-- A request that is not of a pointer. -/
theorem SessionOk.served_other (h : SessionOk d x) {r : MsReq} {queue : List MsReq}
    (hqueue : x.queue = r :: queue) {info : MsSessInfo} (hinfo : info.Ok d)
    (hsame : info.Same x.info) (hbuffer : info.buffer = x.info.buffer)
    (hr : ∀ key b, r ≠ .readPtr key b) : SessionOk d ⟨info, queue, x.issued⟩ := by
  refine h.served hqueue hinfo hsame fun b key hcompares hsource hsettled => ?_
  rw [hbuffer]
  refine h.tags b key hcompares hsource ?_
  rw [hqueue]
  exact hsettled.cons fun key' => hr key' b

/-- **The execution of a request** keeps the types. -/
theorem msServe_ok (hstore : StoreOk d store) (h : SessionOk d x) (hkeys : MsKeysFit d)
    {spurious : Bool} {r : MsReq} {queue : List MsReq} (hqueue : x.queue = r :: queue)
    {store' : MsStore} {info : MsSessInfo} {e : MsEvent}
    (hserve : msServe spurious store x.info r = (store', info, e)) :
    StoreOk d store' ∧ SessionOk d ⟨info, queue, x.issued⟩ := by
  have hok := h.requests r (by rw [hqueue]; exact List.mem_cons_self)
  have hsame : x.info.Same x.info := ⟨rfl, rfl, rfl, rfl, rfl, rfl⟩
  cases r with
  | readPtr keyId buffer =>
    cases hserve
    have hinfo := h.info.fill (hstore keyId).next buffer
    refine ⟨hstore, h.served hqueue hinfo (by cases buffer <;> exact ⟨rfl, rfl, rfl, rfl, rfl, rfl⟩) ?_⟩
    intro b key hcompares hsource hsettled
    rw [buffer_fill]
    split
    · rename_i hb
      subst hb
      rw [hok key hsource]
      exact (hstore key).tags (source_lt h.info hkeys hsource)
    · rename_i hb
      refine h.tags b key hcompares hsource ?_
      rw [hqueue]
      refine hsettled.cons fun key' heq => ?_
      cases heq
      exact hb rfl
  | writePtr keyId ptr =>
    cases hserve
    exact ⟨hstore.write hok, h.served_other hqueue h.info hsame rfl fun _ _ hc => nomatch hc⟩
  | readNode keyId i =>
    cases hserve
    refine ⟨hstore, h.served_other hqueue ?_ ⟨rfl, rfl, rfl, rfl, rfl, rfl⟩ ?_ fun _ _ hc => nomatch hc⟩
    · exact h.info.congr rfl rfl rfl rfl rfl fun b => Or.inl (by cases b <;> rfl)
    · funext b
      cases b <;> rfl
  | writeNode keyId node =>
    cases hserve
    exact ⟨hstore, h.served_other hqueue h.info hsame rfl fun _ _ hc => nomatch hc⟩
  | cas keyId swap ptr =>
    obtain ⟨hptr, htail, hhead⟩ := hok
    have hswapped : ∀ old result, d.IsNext old.nextKeyId →
        (∀ key, x.info.source d swap.buffer = some key → x.info.compares swap.buffer →
          Settled queue swap.buffer → old.Tagged key) →
        SessionOk d ⟨x.info.swapped old result swap, queue, x.issued⟩ := by
      intro old result hold hnew
      refine h.served hqueue (h.info.swapped hold result swap)
        (by cases swap <;> exact ⟨rfl, rfl, rfl, rfl, rfl, rfl⟩) ?_
      intro b key hcompares hsource hsettled
      rw [buffer_swapped]
      split
      · rename_i hb
        subst hb
        exact hnew key hsource hcompares hsettled
      · refine h.tags b key hcompares hsource ?_
        rw [hqueue]
        exact hsettled.cons fun key' heq => nomatch heq
    unfold msServe at hserve
    dsimp only at hserve
    split at hserve
    · -- the pointer was the one that the session expects
      cases hserve
      refine ⟨hstore.write hptr, hswapped _ _ ?_ ?_⟩
      · rw [expected_eq]
        exact h.info.next _
      · intro key hsource hcompares hsettled
        rw [expected_eq]
        refine h.tags _ key hcompares hsource ?_
        rw [hqueue]
        exact hsettled.cons fun key' heq => nomatch heq
    · cases hserve
      refine ⟨hstore, hswapped _ _ (hstore keyId).next ?_⟩
      intro key hsource _ _
      have hkey : keyId = key := by
        cases swap with
        | lastNode => nomatch hsource
        | tail => exact (htail rfl).trans (Option.some.inj hsource)
        | head => exact (hhead rfl).trans (Option.some.inj hsource)
      rw [hkey]
      exact (hstore key).tags (source_lt h.info hkeys hsource)
  | readFlag =>
    cases hserve
    refine ⟨hstore, h.served_other hqueue ?_ ⟨rfl, rfl, rfl, rfl, rfl, rfl⟩ ?_ fun _ _ hc => nomatch hc⟩
    · exact h.info.congr rfl rfl rfl rfl rfl fun b => Or.inl (by cases b <;> rfl)
    · funext b
      cases b <;> rfl
  | releaseFlag flag =>
    cases hserve
    exact ⟨hstore, h.served_other hqueue h.info hsame rfl fun _ _ hc => nomatch hc⟩

end Serve

/-! ## The set-up -/

/-- A store in which the heads and tails of `n` queues are set up. -/
structure TaggedTo (d : Deployment) (n : Nat) (store : MsStore) : Prop where
  next : ∀ key, d.IsNext (store.ptr key).nextKeyId
  tags : ∀ q, q < n → (store.ptr q).Tagged q ∧ (store.ptr (d.headKey q)).Tagged (d.headKey q)

namespace TaggedTo

variable {store : MsStore} {n : Nat} {tail head : MsPtr}

/-- One more queue is set up. -/
theorem succ (h : TaggedTo d n store) (hkeys : MsKeysFit d) (htail : tail.queueId = 0)
    (hhead : head.queueId = 0) (hn : n < d.msQueuesNum) :
    TaggedTo d (n + 1) ((d.setUpQueue tail head n).foldl MsStore.apply store) := by
  have hdummy := hkeys.dummy_isNext hn
  have hlink := hkeys.offset_le hdummy
  have hkey : u32 (d.msHeadKeyIdOffset + n) = d.headKey n := by
    rw [Deployment.headKey, Nat.add_comm]
  have hstore : (d.setUpQueue tail head n).foldl MsStore.apply store
      = ((store.write n { tail with nextKeyId := d.dummyKey n, counter := 0, myKeyId := n }).write
        (d.headKey n) { head with nextKeyId := d.dummyKey n, counter := 0, myKeyId := d.headKey n }).write
        (d.msGetNodePtrKeyId (d.dummyKey n))
        ⟨true, n, d.msGetNodePtrKeyId (d.dummyKey n), 0, 1⟩ := by
    rw [← hkey]
    rfl
  rw [hstore]
  have hlt : d.headKey n < d.msNodePtrOffset := hkeys.head_lt hn
  constructor
  · intro key
    show d.IsNext (Function.update (Function.update (Function.update store.ptr _ _) _ _) _ _ key).nextKeyId
    simp only [Function.update_apply]
    split
    · exact Or.inl rfl
    · split
      · exact hdummy
      · split
        · exact hdummy
        · exact h.next key
  · intro q hq
    have hqlt : q < d.msQueuesNum := by omega
    have htaillt := MsKeysFit.tail_lt hqlt
    have hheadlt := hkeys.head_lt hqlt
    have hheadq := hkeys.headKey_eq hqlt
    have hheadn := hkeys.headKey_eq hn
    constructor
    · show (Function.update (Function.update (Function.update store.ptr _ _) _ _) _ _ q).Tagged q
      rw [Function.update_of_ne (by omega), Function.update_of_ne (by omega)]
      by_cases hqn : q = n
      · subst hqn
        rw [Function.update_self]
        exact ⟨htail, rfl⟩
      · rw [Function.update_of_ne hqn]
        exact (h.tags q (by omega)).1
    · show (Function.update (Function.update (Function.update store.ptr _ _) _ _) _ _
        (d.headKey q)).Tagged _
      rw [Function.update_of_ne (by omega)]
      by_cases hqn : q = n
      · subst hqn
        rw [Function.update_self]
        exact ⟨hhead, rfl⟩
      · rw [Function.update_of_ne (by omega), Function.update_of_ne (by omega)]
        exact (h.tags q (by omega)).2

/-- **The set-up** gives every head and every tail its tags, if the locals happen to hold 0. -/
theorem setUpStore (hkeys : MsKeysFit d) (htail : tail.queueId = 0) (hhead : head.queueId = 0) :
    ∀ n, n ≤ d.msQueuesNum → TaggedTo d n (d.setUpStore tail head n)
  | 0, _ => ⟨fun _ => Or.inl rfl, fun _ hq => absurd hq (Nat.not_lt_zero _)⟩
  | n + 1, hn => by
      have hsucc := (setUpStore hkeys htail hhead n (by omega)).succ hkeys htail hhead (by omega)
      unfold Deployment.setUpStore at hsucc ⊢
      rw [List.range_succ, List.flatMap_append, List.foldl_append]
      simpa using hsucc

theorem storeOk (h : TaggedTo d d.msQueuesNum store) (hkeys : MsKeysFit d) : StoreOk d store := by
  intro key
  refine ⟨fun hkey => ?_, h.next key⟩
  unfold Deployment.msNodePtrOffset at hkey
  by_cases htail : key < d.msQueuesNum
  · exact (h.tags key htail).1
  · have hq : key - d.msQueuesNum < d.msQueuesNum := by omega
    have hhead := (h.tags _ hq).2
    rw [hkeys.headKey_eq hq, Nat.sub_add_cancel (by omega)] at hhead
    exact hhead

end TaggedTo

/-- What a session begins with. -/
theorem msSessInfo_ok (hkeys : MsKeysFit d) {g : Nat} (hg : g < d.globalSessionNum) :
    (d.msSessInfo g).Ok d := by
  have hsess : d.globSessI g ≤ g := by
    rw [d.globSessI_eq]
    exact Nat.mod_le ..
  have howned : d.IsNext (d.msSessInfo g).ownedKey := by
    show d.IsNext (u32 (d.msNodeKeyOffset + d.globSessI g * msWritesNum))
    unfold MsKeysFit Deployment.msInitDoneFlagKey Deployment.msQueuesNum msWritesNum at hkeys
    unfold Deployment.IsNext Deployment.isMsNode Deployment.msInitDoneFlagKey Deployment.msQueuesNum
      msWritesNum
    rw [u32_of_lt (by omega)]
    have hoffset : d.dummyKeyIdOffset ≤ d.msNodeKeyOffset := Nat.le_add_right ..
    omega
  refine ⟨Nat.lt_of_le_of_lt hsess hg, rfl, rfl, howned, hkeys.offset_le howned, fun b => ?_⟩
  cases b <;> exact Or.inl rfl

/-- A session that has not begun. -/
theorem sessionOk_init (hkeys : MsKeysFit d) {g issued : Nat} (hg : g < d.globalSessionNum)
    {queue : List MsReq} (hqueue : queue = [] ∨ queue = [.readFlag]) :
    SessionOk d ⟨d.msSessInfo g, queue, issued⟩ := by
  refine ⟨msSessInfo_ok hkeys hg, ?_, ?_, (fun hc => nomatch hc), fun hc => absurd rfl hc⟩
  · intro r hr
    rcases hqueue with rfl | rfl
    · nomatch hr
    · rw [List.mem_singleton.mp hr]
      trivial
  · exact fun b _ hcompares => absurd hcompares (not_compares (Or.inl rfl) b)

/-- What session 0 has issued behind the set-up. -/
theorem sessionOk_first (hkeys : MsKeysFit d) (hpos : 0 < d.globalSessionNum) {info : MsSessInfo}
    {issued : Nat} {requests : List MsReq} (hfirst : FirstPass d info issued requests)
    (hinfo : info.Ok d) : SessionOk d ⟨info, requests, issued⟩ := by
  cases hfirst with
  | before heq =>
    rw [heq]
    exact sessionOk_init hkeys hpos (Or.inl rfl)
  | made hat hqueue howned hkeyPtr hlastReq hnext hcounter =>
    refine ⟨hinfo, ?_, ?_, ?_, fun _ _ => ?_⟩
    · intro r hr
      rcases List.mem_cons.mp hr with rfl | hr
      · trivial
      · rcases List.mem_cons.mp hr with rfl | hr
        · exact PtrOk.of_le hinfo.ownedKeyPtr (Or.inl hnext)
        · rw [List.mem_singleton.mp hr]
          exact fun key hkey => Option.some.inj hkey
    · intro b key hcompares hsource hsettled
      cases b with
      | tail => exact absurd (by simp) (hsettled info.queueId)
      | secondTail => nomatch hat.state.symm.trans hcompares.2
      | head => nomatch hat.enqOrDeq.symm.trans hcompares.1
      | secondHead => nomatch hat.enqOrDeq.symm.trans hcompares.1
      | ownedNodePtr => nomatch hsource
      | lastNodePtr => nomatch hsource
    · exact fun hdeq => nomatch hat.enqOrDeq.symm.trans hdeq
    · show info.lastReqId = u32 (issued - info.lag)
      rw [lag_enqueuing hat.enqOrDeq]
      exact hlastReq

theorem waitForInit_notUndefined {L R : Type} {readFlag : R} {flag done g : Nat}
    {client : BenchClient} {x : Issuer L R} {e : Stuck} (h : d.waitForInit readFlag flag done g client x = .error e) :
    NotUndefined e := by
  unfold Deployment.waitForInit at h
  split at h
  · split at h
    · nomatch h
    · split at h
      · nomatch h
      · cases h
        decide
    · cases h
      decide
  · cases h
    decide

/-- **A pass of the first client** in session 0, before the set-up is executed. -/
theorem firstPass_ok (hkeys : MsKeysFit d) (hpos : 0 < d.globalSessionNum) {x : MsSession}
    {own w : List MsReq} (hfirst : FirstPass d x.info x.issued own)
    (hqueue : x.queue = w ++ .releaseFlag msInitDoneFlag :: own)
    (hle : x.queue.length ≤ x.issued) (hfew : x.issued < 2 ^ 32) (cntr : Nat) :
    Ends NotUndefined (d.msLoopPass cntr x) fun p => p.2.1.Ok d := by
  cases hfirst with
  | before heq =>
    unfold Deployment.msLoopPass
    rw [heq]
    unfold Deployment.msEnqueue
    rw [heq]
    refine Ends.ok ((msSessInfo_ok hkeys hpos).congr rfl rfl rfl rfl rfl fun b => ?_)
    cases b <;> exact Or.inl rfl
  | made hat hqueueId howned hkeyPtr hlastReq hnext hcounter =>
    -- it waits, as the request that it waits for is behind the set-up
    have hpoll : Ends NotUndefined (pollAReqBlocking x x.info.lastReqId) fun _ => False := by
      refine poll_notUndefined fun hpoll => ?_
      rw [hlastReq] at hpoll
      have hnone := executed_of_poll hle hfew (Nat.le_refl _) hpoll
      rw [hqueue, List.length_append, List.length_cons] at hnone
      omega
    unfold Deployment.msLoopPass
    rw [hat.enqOrDeq]
    unfold Deployment.msEnqueue
    dsimp only
    rw [hat.state]
    exact (hpoll.bind fun _ hc => absurd hc not_false).bind fun _ hok => hok

/-- How the first client sets the queues up, with what its session 0 holds. -/
def tagSetUpBy (d : Deployment) (hkeys : MsKeysFit d) (hpos : 0 < d.globalSessionNum)
    (tail head : MsPtr) : SetUpBy d d.msService :=
  (msSetUpBy d tail head).also (fun info _ _ => info.Ok d) (fun _ => msSessInfo_ok hkeys hpos) (by
    intro c x requests w c' info more e hphase hfirst _ hqueue hle hfew h
    obtain ⟨cntr, hloop, -⟩ := loopPass_of_pass hphase h
    exact (firstPass_ok hkeys hpos hfirst hqueue hle hfew _).of_ok hloop)

/-! ## Every run -/

/-- **What holds of the store and of every session**, with what the clients share. -/
structure Held (d : Deployment) (P : MsStore → Prop) (Q : MsSession → Prop) (s : MsSys) : Prop where
  store : P s.store
  sessions : ∀ g, g < d.globalSessionNum → Q (s.session g)
  outside : ∀ g, d.globalSessionNum ≤ g → (s.session g).queue = []
  waits : ∀ g, g < d.globalSessionNum → (s.shared (d.clientOf g)).phase ≠ .running →
    (s.session g).info.state = .init
  cntr_lt : ∀ c, (s.shared c).queueIdCntr < d.msQueuesNum

/-- What holds once the queues are set up. -/
abbrev TagsInv (d : Deployment) (s : MsSys) : Prop := Held d (StoreOk d) (SessionOk d) s

theorem msServe_state {spurious : Bool} {store store' : MsStore} {info info' : MsSessInfo}
    {r : MsReq} {e : MsEvent} (h : msServe spurious store info r = (store', info', e)) :
    info'.state = info.state := by
  cases r with
  | readPtr keyId buffer =>
    cases h
    cases buffer <;> rfl
  | cas keyId swap ptr =>
    unfold msServe at h
    dsimp only at h
    split at h
    · cases h
      cases swap <;> rfl
    · cases h
      cases swap <;> rfl
  | _ =>
    cases h
    rfl

namespace Held

variable {P : MsStore → Prop} {Q : MsSession → Prop} {s : MsSys} {g : Nat}

/-- **A pass over a session** keeps what the passes in the loop keep. -/
theorem pass (h : Held d P Q s) (hg : g < d.globalSessionNum) {E : Stuck → Prop}
    (hwaitForInit : ∀ {e}, d.waitForInit .readFlag (s.session g).info.initDoneFlag msInitDoneFlag g
      (s.shared (d.clientOf g)) (s.session g) = .error e → E e)
    (hloop : Ends E (d.msLoopPass (s.shared (d.clientOf g)).queueIdCntr (s.session g)) fun p =>
      p.1 < d.msQueuesNum ∧
        Q ⟨p.2.1, (s.session g).queue ++ p.2.2, (s.session g).issued + p.2.2.length⟩)
    (hasks : (s.session g).info.state = .init → ∀ requests, (∀ r ∈ requests, r = .readFlag) →
      Q ⟨(s.session g).info, (s.session g).queue ++ requests,
        (s.session g).issued + requests.length⟩) :
    Ends E (d.msPass g (s.shared (d.clientOf g)) (s.session g)) fun p =>
      p.1.queueIdCntr < d.msQueuesNum ∧
      (p.1.phase ≠ .running → (s.shared (d.clientOf g)).phase ≠ .running ∧ p.2.1.state = .init) ∧
      Q ⟨p.2.1, (s.session g).queue ++ p.2.2, (s.session g).issued + p.2.2.length⟩ := by
  have hcntr := h.cntr_lt (d.clientOf g)
  unfold Deployment.msPass
  split
  · rename_i hrunning
    refine hloop.bind fun p hp => Ends.ok ⟨hp.1, fun hc => absurd hrunning hc, hp.2⟩
  · rename_i hwaits
    have hinit := h.waits g hg hwaits
    refine Ends.intro (fun p hp => ?_) fun e he => hwaitForInit he
    obtain ⟨-, hsame, hcases⟩ := waitForInit_cases hp
    refine ⟨?_, fun _ => ⟨hwaits, by rw [hsame]; exact hinit⟩, ?_⟩
    · rcases hcases with ⟨-, hclient, -⟩ | ⟨-, -, -, hclient⟩
      · rw [hclient]
        exact hcntr
      · rw [hclient]
        exact hcntr
    · rw [hsame]
      refine hasks hinit _ ?_
      rcases hcases with ⟨-, -, hreq⟩ | ⟨-, -, hreq, -⟩
      · intro r hr
        rw [hreq] at hr
        exact List.mem_singleton.mp hr
      · intro r hr
        rw [hreq] at hr
        nomatch hr

/-- A session has changed, with the store and what its client shares. -/
theorem update (h : Held d P Q s) (hg : g < d.globalSessionNum) {store : MsStore}
    {client : BenchClient} {x : MsSession} (hstore : P store) (hx : Q x)
    (hcntr : client.queueIdCntr < d.msQueuesNum)
    (hwaits : client.phase ≠ .running → (s.shared (d.clientOf g)).phase ≠ .running ∧
      x.info.state = .init) :
    Held d P Q ⟨store, Function.update s.shared (d.clientOf g) client,
      Function.update s.session g x⟩ where
  store := hstore
  sessions g' hg' := by
    show Q (Function.update s.session g x g')
    by_cases hne : g' = g
    · rw [hne, Function.update_self]
      exact hx
    · rw [Function.update_of_ne hne]
      exact h.sessions g' hg'
  outside g' hg' := by
    show (Function.update s.session g x g').queue = []
    rw [Function.update_of_ne (by omega)]
    exact h.outside g' hg'
  waits g' hg' hidle := by
    show (Function.update s.session g x g').info.state = .init
    change (Function.update s.shared (d.clientOf g) client (d.clientOf g')).phase ≠ _ at hidle
    have hold : (s.shared (d.clientOf g')).phase ≠ .running := by
      by_cases hsame : d.clientOf g' = d.clientOf g
      · rw [hsame, Function.update_self] at hidle
        rw [hsame]
        exact (hwaits hidle).1
      · rw [Function.update_of_ne hsame] at hidle
        exact hidle
    by_cases hne : g' = g
    · subst hne
      rw [Function.update_self] at hidle ⊢
      exact (hwaits hidle).2
    · rw [Function.update_of_ne hne]
      exact h.waits g' hg' hold
  cntr_lt c := by
    show (Function.update s.shared (d.clientOf g) client c).queueIdCntr < _
    by_cases hc : c = d.clientOf g
    · rw [hc, Function.update_self]
      exact hcntr
    · rw [Function.update_of_ne hc]
      exact h.cntr_lt c

/-- A request was executed. -/
theorem serve (h : Held d P Q s) (hg : g < d.globalSessionNum) {spurious : Bool} {r : MsReq}
    {queue : List MsReq} {store : MsStore} {info : MsSessInfo} {e : MsEvent}
    (hserve : msServe spurious s.store (s.session g).info r = (store, info, e)) (hstore : P store)
    (hsession : Q ⟨info, queue, (s.session g).issued⟩) :
    Held d P Q ⟨store, s.shared,
      Function.update s.session g ⟨info, queue, (s.session g).issued⟩⟩ := by
  have hinv := h.update hg hstore hsession (h.cntr_lt _) fun hwaits =>
    ⟨hwaits, (msServe_state hserve).trans (h.waits g hg hwaits)⟩
  rw [Function.update_eq_self] at hinv
  exact hinv

end Held

namespace TagsInv

variable {s : MsSys} {g : Nat}

/-- A pass over a session keeps the types, and does not fail the assertion. -/
theorem pass (h : TagsInv d s) (hkeys : MsKeysFit d) (hg : g < d.globalSessionNum)
    (hle : (s.session g).queue.length ≤ (s.session g).issued)
    (hfew : (s.session g).issued < 2 ^ 32) :
    Ends NotUndefined (d.msPass g (s.shared (d.clientOf g)) (s.session g)) fun p =>
      p.1.queueIdCntr < d.msQueuesNum ∧
      (p.1.phase ≠ .running → (s.shared (d.clientOf g)).phase ≠ .running ∧ p.2.1.state = .init) ∧
      SessionOk d ⟨p.2.1, (s.session g).queue ++ p.2.2, (s.session g).issued + p.2.2.length⟩ := by
  have hok := h.sessions g hg
  have hcntr := h.cntr_lt (d.clientOf g)
  refine Held.pass h hg waitForInit_notUndefined ?_ fun hinit requests hrequests => ?_
  · unfold Deployment.msLoopPass
    cases hstate : (s.session g).info.enqOrDeqState with
    | enqueuing =>
      refine (msEnqueue_ok hok hkeys hstate hle hfew).bind fun p hp => ?_
      exact Ends.ok ⟨hcntr, hp⟩
    | dequeuing => exact msDequeue_ok hok hkeys hcntr hstate hle hfew
  · refine hok.moved_free hok.info rfl ?_ (not_compares (Or.inl hinit)) fun hc => absurd hinit hc
    intro r hr
    rw [hrequests r hr]
    trivial

/-- **A turn** keeps the tags, and does not fail the assertion. -/
theorem step (h : TagsInv d s) (hkeys : MsKeysFit d) {turn : Turn}
    (hle : ∀ g, (s.session g).queue.length ≤ (s.session g).issued)
    (hfew : ∀ g, g < d.globalSessionNum → (s.session g).issued < 2 ^ 32) :
    Ends NotUndefined (d.msService.step s turn) fun p => TagsInv d p.1 := by
  cases turn with
  | client g =>
    by_cases hg : g < d.globalSessionNum
    · have hpass : d.msService.pass g (s.shared (d.clientOf g)) (s.session g)
          = (do
            let p ← d.msPass g (s.shared (d.clientOf g)) (s.session g)
            return (p.1, p.2.1, p.2.2, .moved)) := if_pos hg
      have hends := TagsInv.pass h hkeys hg (hle g) (hfew g hg)
      have hsame : Ends NotUndefined (d.msService.pass g (s.shared (d.clientOf g)) (s.session g))
          fun q => TagsInv d ⟨s.store, Function.update s.shared (d.clientOf g) q.1,
            Function.update s.session g ⟨q.2.1, (s.session g).queue ++ q.2.2.1,
              (s.session g).issued + q.2.2.1.length⟩⟩ := by
        rw [hpass]
        exact hends.bind fun p hp => Ends.ok (h.update hg h.store hp.2.2 hp.1 hp.2.1)
      exact hsame.bind fun q hq => Ends.ok hq
    · have hnone : d.msService.pass g (s.shared (d.clientOf g)) (s.session g)
          = .error .disabled := if_neg hg
      refine Ends.intro (fun p hp => ?_) fun e he => ?_
      · obtain ⟨q, hq, -⟩ := bind_eq_ok.mp hp
        cases hnone.symm.trans hq
      · change (d.msService.pass g (s.shared (d.clientOf g)) (s.session g) >>= _) = _ at he
        rw [hnone] at he
        cases he
        decide
  | store g spurious =>
    unfold Service.step
    dsimp only
    split
    · exact Ends.error (by decide)
    · rename_i r queue hqueue
      have hg : g < d.globalSessionNum := by
        by_contra hc
        cases (h.outside g (Nat.le_of_not_lt hc)).symm.trans hqueue
      have hserve : msServe spurious s.store (s.session g).info r
          = ((d.msService.serve spurious s.store (s.session g).info r).1,
            (d.msService.serve spurious s.store (s.session g).info r).2.1,
            (d.msService.serve spurious s.store (s.session g).info r).2.2) := rfl
      obtain ⟨hstore, hsession⟩ := msServe_ok h.store (h.sessions g hg) hkeys hqueue hserve
      exact Ends.ok (Held.serve h hg hserve hstore hsession)

/-- **The queues are set up**, when the flag is released. -/
theorem start {hkeys : MsKeysFit d} {hpos : 0 < d.globalSessionNum} {tail head : MsPtr}
    {tr : MsTrace} (h : SettingUp (tagSetUpBy d hkeys hpos tail head) (d.msStart tail head).store tr s [])
    (htail : tail.queueId = 0) (hhead : head.queueId = 0) {flag issued : Nat} {info : MsSessInfo}
    {requests : List MsReq} (hfirst : FirstPass d info issued requests ∧ info.Ok d) :
    TagsInv d ⟨{ s.store with initDone := flag }, s.shared,
      Function.update s.session 0 ⟨info, requests, issued⟩⟩ := by
  have hstore : StoreOk d s.store := by
    have hstored := h.stored
    rw [List.foldl_nil] at hstored
    rw [hstored]
    exact (TaggedTo.setUpStore hkeys htail hhead _ (Nat.le_refl _)).storeOk hkeys
  have hothers : ∀ g, g ≠ 0 → Function.update s.session 0 ⟨info, requests, issued⟩ g = s.session g :=
    fun g hne => Function.update_of_ne hne ..
  constructor
  case store => exact hstore
  case sessions =>
    intro g hg
    show SessionOk d (Function.update s.session 0 _ g)
    by_cases hne : g = 0
    · rw [hne, Function.update_self]
      exact sessionOk_first hkeys hpos hfirst.1 hfirst.2
    · rw [hothers g hne]
      obtain ⟨hinfo, hqueue⟩ := h.others g hne
      have hok : SessionOk d ⟨d.msSessInfo g, (s.session g).queue, (s.session g).issued⟩ :=
        sessionOk_init hkeys hg hqueue
      change (s.session g).info = d.msSessInfo g at hinfo
      rw [← hinfo] at hok
      exact hok
  case outside =>
    intro g hg
    show (Function.update s.session 0 _ g).queue = []
    rw [hothers g (by omega)]
    exact (h.outside g hg).1
  case waits =>
    intro g hg hidle
    have hother : g ≠ 0 := by
      rintro rfl
      refine hidle ?_
      show (s.shared (d.clientOf 0)).phase = .running
      rw [SettingUp.clientOf_zero]
      exact (h.running 0).mpr rfl
    show (Function.update s.session 0 _ g).info.state = .init
    rw [hothers g hother, (h.others g hother).1]
    rfl
  case cntr_lt => exact h.cntr_lt

end TagsInv

theorem step_store_notUndefined {s : MsSys} {g : Nat} {spurious : Bool} :
    d.msService.step s (.store g spurious) ≠ .error .undefined := by
  unfold Service.step
  dsimp only
  split
  · exact fun hc => nomatch hc
  · exact fun hc => nomatch hc

/-- A turn of a client fails the assertion only if the pass does. -/
theorem step_client_notUndefined {s : MsSys} {g : Nat}
    {P : BenchClient × MsSessInfo × List MsReq → Prop}
    (h : g < d.globalSessionNum →
      Ends NotUndefined (d.msPass g (s.shared (d.clientOf g)) (s.session g)) P) :
    d.msService.step s (.client g) ≠ .error .undefined := by
  intro hc
  unfold Service.step at hc
  change (d.msService.pass g (s.shared (d.clientOf g)) (s.session g) >>= _) = _ at hc
  unfold Deployment.msService at hc
  dsimp only at hc
  split at hc
  · rename_i hg
    have hpass := h hg
    rcases bind_eq_error.mp hc with hmoved | ⟨_, -, hreturn⟩
    · rcases bind_eq_error.mp hmoved with hms | ⟨_, -, hevent⟩
      · exact hpass.of_error hms rfl
      · nomatch hevent
    · nomatch hreturn
  · nomatch hc

/-- **While the set-up is executed**, session 0 waits for it and the other clients for the flag. -/
theorem settingUp_notUndefined {hkeys : MsKeysFit d} {hpos : 0 < d.globalSessionNum}
    {tail head : MsPtr} {store : MsStore} {tr : MsTrace} {s : MsSys} {w : List MsReq}
    (h : SettingUp (tagSetUpBy d hkeys hpos tail head) store tr s w)
    (hle : (s.session 0).queue.length ≤ (s.session 0).issued) (hfew : (s.session 0).issued < 2 ^ 32)
    {turn : Turn} (hturn : ∀ g, turn = .client g → d.clientOf g = 0 → g ≠ 0 →
      (tagSetUpBy d hkeys hpos tail head).writes.length + 1 ≤ Service.servedOf 0 tr) :
    d.msService.step s turn ≠ .error .undefined := by
  cases turn with
  | store g spurious => exact step_store_notUndefined
  | client g =>
    by_cases hne : g = 0
    · subst hne
      obtain ⟨requests, hqueue, hfirst, -⟩ := h.first
      refine step_client_notUndefined (P := fun _ => True) fun _ => ?_
      rw [Deployment.msPass, if_pos ((h.running _).mpr (SettingUp.clientOf_zero d))]
      refine (firstPass_ok hkeys hpos hfirst hqueue hle hfew _).bind fun p _ => ?_
      exact Ends.ok trivial
    · have hother : d.clientOf g ≠ 0 := by
        intro hc
        have hlate := hturn g rfl hc hne
        have hleft := h.executed
        omega
      refine step_client_notUndefined (P := fun _ => True) fun _ => ?_
      rw [Deployment.msPass, if_neg fun hc => hother ((h.running _).mp hc)]
      exact Ends.intro (fun _ _ => trivial) fun e he => waitForInit_notUndefined he

/-- The pointers that a session compares have the same tags, whatever order the sessions make their
    passes in, if the set-up finds 0 on the stack for `queue_id`, each session has issued fewer than
    `2^32` requests, and no other session of the first client begins before the set-up was
    executed. -/
theorem notUndefined_of_first (hkeys : MsKeysFit d) {tail head : MsPtr} (htail : tail.queueId = 0)
    (hhead : head.queueId = 0) {tr : MsTrace} {s : MsSys}
    (hrun : Run d.msService.step (d.msStart tail head) tr s)
    (hfew : ∀ g, g < d.globalSessionNum → (s.session g).issued < 2 ^ 32)
    (hfirst : SetUpFirst d (d.msSetUp tail head).length tr) {turn : Turn}
    (hturn : ∀ g, turn = .client g → d.clientOf g = 0 → g ≠ 0 →
      (d.msSetUp tail head).length ≤ Service.servedOf 0 tr) :
    d.msService.step s turn ≠ .error .undefined := by
  rcases Nat.eq_zero_or_pos d.globalSessionNum with hnone | hpos
  · cases turn with
    | store g spurious => exact step_store_notUndefined
    | client g =>
      exact step_client_notUndefined (P := fun _ => True) fun hg => absurd hg (by omega)
  · have hlength : (d.msSetUp tail head).length
        = (tagSetUpBy d hkeys hpos tail head).writes.length + 1 := List.length_append
    rw [hlength] at hfirst hturn
    have hstart : (tagSetUpBy d hkeys hpos tail head).Start (d.msStart tail head) :=
      (msSetUpBy_start hpos tail head).also
    have hle := Service.queue_le_issued (fun g => Nat.le_of_eq (hstart.issued_eq g)) hrun
    have hreached : (∃ w, SettingUp (tagSetUpBy d hkeys hpos tail head)
        (d.msStart tail head).store tr s w) ∨ TagsInv d s := by
      refine (tagSetUpBy d hkeys hpos tail head).run_rule hpos hstart (fun _ s => TagsInv d s)
        ?_ ?_ hrun hfew hfirst
      · intro tr s spurious requests store info e h hpass hserve
        cases hserve
        exact TagsInv.start h htail hhead hpass
      · intro tr s k s' e _ h hle hbefore hstep
        exact (h.step hkeys hle hbefore).of_ok hstep
    rcases hreached with ⟨w, h⟩ | h
    · exact settingUp_notUndefined h (hle 0) (hfew 0 hpos) hturn
    · exact fun hc => (h.step hkeys hle hfew).of_error hc rfl

end Odyssey
