/-
  BEFORE THE FIRST DEQUEUE.

  Until a dequeue has succeeded, every head leads nowhere or to a dummy, and no session owns a
  dummy.  So nobody has written the body that the first dequeue reads, and this is not a body that
  an enqueue writes.  It needs no order between the set-up and the sessions: a session that
  overtakes the set-up, and a head that the set-up writes again, are within `Untaken` and
  `BeforeFirst`.

  `values_of_first` puts both halves together: the values are in order in the runs without a
  dequeue only, and once the set-up comes first, every dequeue is one value behind.
-/
import Odyssey.MsQueueTags
import Odyssey.MsQueueValues

namespace Odyssey

open Lib

variable {d : Deployment}

/-- Sessions that are numbered apart by a `uint16_t` have few enough keys. -/
theorem MsFits.keysFit (h : MsFits d) : MsKeysFit d := by
  unfold MsFits at h
  unfold MsKeysFit Deployment.msInitDoneFlagKey Deployment.msNodeKeyOffset Deployment.dummyKeyIdOffset
    Deployment.lastMsNodePtr Deployment.msNodePtrOffset Deployment.msQueuesNum msWritesNum
  omega

/-! ## The store -/

/-- **No dummy was taken**: the heads lead to no node of a session, and only such nodes have
    bodies. -/
structure Untaken (d : Deployment) (store : MsStore) : Prop where
  next : ∀ key, d.IsNext (store.ptr key).nextKeyId
  head : ∀ q, q < d.msQueuesNum → (store.head d q).nextKeyId < d.msNodeKeyOffset
  body : ∀ k, k < d.msNodeKeyOffset → store.node k = ⟨0, 0⟩

/-- A pointer that can be written at a key: a head leads to no node of a session. -/
structure KeepsHeads (d : Deployment) (key : Nat) (ptr : MsPtr) : Prop where
  next : d.IsNext ptr.nextKeyId
  head : ∀ q, q < d.msQueuesNum → key = d.headKey q → ptr.nextKeyId < d.msNodeKeyOffset

namespace KeepsHeads

variable {key : Nat} {ptr : MsPtr}

/-- The pointer of a node. -/
theorem of_link (hkeys : MsKeysFit d) (hkey : d.msNodePtrOffset ≤ key)
    (hnext : d.IsNext ptr.nextKeyId) :
    KeepsHeads d key ptr := by
  refine ⟨hnext, fun q hq heq => ?_⟩
  have hlt := hkeys.head_lt hq
  omega

/-- A tail. -/
theorem of_tail (hkeys : MsKeysFit d) (hkey : key < d.msQueuesNum)
    (hnext : d.IsNext ptr.nextKeyId) :
    KeepsHeads d key ptr := by
  refine ⟨hnext, fun q hq heq => ?_⟩
  have hhead := hkeys.headKey_eq hq
  omega

end KeepsHeads

theorem Untaken.write {store : MsStore} (h : Untaken d store) {key : Nat} {ptr : MsPtr}
    (hptr : KeepsHeads d key ptr) : Untaken d (store.write key ptr) where
  next key' := by
    show d.IsNext (Function.update store.ptr key ptr key').nextKeyId
    rw [Function.update_apply]
    split
    · exact hptr.next
    · exact h.next key'
  head q hq := by
    show (Function.update store.ptr key ptr (d.headKey q)).nextKeyId < _
    rw [Function.update_apply]
    split
    · rename_i heq
      exact hptr.head q hq heq.symm
    · exact h.head q hq
  body := h.body

/-! ## Sessions -/

/-- In front of a swap of a head, a node is read. -/
def ReadsFirst : List MsReq → Prop
  | [] => True
  | .readNode _ _ :: _ => True
  | .cas _ .head _ :: _ => False
  | _ :: queue => ReadsFirst queue

theorem ReadsFirst.append {requests : List MsReq} (hrequests : ReadsFirst requests)
    {queue : List MsReq} (h : ReadsFirst queue) : ReadsFirst (queue ++ requests) := by
  induction queue with
  | nil => exact hrequests
  | cons r queue ih =>
    cases r with
    | readNode keyId i => trivial
    | cas keyId swap ptr =>
      cases swap with
      | head => exact h.elim
      | lastNode | tail => exact ih h
    | readPtr | writePtr | writeNode | readFlag | releaseFlag => exact ih h

/-- The requests of a session that has not dequeued. -/
def MsSessInfo.Untaking (d : Deployment) (info : MsSessInfo) : MsReq → Prop
  | .readPtr keyId buffer => buffer = .head → keyId = d.headKey info.queueId
  | .writePtr keyId ptr => KeepsHeads d keyId ptr
  | .readNode keyId i => keyId < d.msNodeKeyOffset ∧ i = 0 ∧ info.enqOrDeqState = .dequeuing
  | .writeNode keyId _ => d.msNodeKeyOffset ≤ keyId
  | .cas keyId .lastNode ptr => KeepsHeads d keyId ptr ∧ d.msNodeKeyOffset ≤ ptr.nextKeyId
  | .cas keyId .tail ptr => KeepsHeads d keyId ptr
  | .cas keyId .head _ => keyId = d.headKey info.queueId
  | .readFlag | .releaseFlag _ => True

/-- **What holds of a session** until the first dequeue succeeds. -/
structure BeforeFirst (d : Deployment) (x : MsSession) : Prop where
  info : x.info.Ok d
  owned : d.msNodeKeyOffset ≤ x.info.ownedKey
  head : x.info.head.nextKeyId < d.msNodeKeyOffset
  requests : ∀ r ∈ x.queue, x.info.Untaking d r
  /-- a session that dequeues waits for no link -/
  linked : x.info.enqOrDeqState = .dequeuing →
    x.info.success = false ∧ ∀ key ptr, MsReq.cas key .lastNode ptr ∉ x.queue
  reads : ReadsFirst x.queue ∨ x.info.enqOrDeqState = .dequeuing ∧ x.info.newNode 0 = ⟨0, 0⟩
  lastReq : x.info.state = .potentialSuccess → x.info.lastReqId = u32 x.issued

namespace BeforeFirst

variable {x : MsSession}

/-- A pass that leaves the queue and the node of a session. -/
theorem moved (h : BeforeFirst d x) {info : MsSessInfo} {requests : List MsReq} (hinfo : info.Ok d)
    (hqueue : info.queueId = x.info.queueId) (hkey : info.ownedKey = x.info.ownedKey)
    (hhead : info.head = x.info.head) (hsame : info.enqOrDeqState = x.info.enqOrDeqState)
    (hrequests : ∀ r ∈ requests, info.Untaking d r)
    (hlinked : info.enqOrDeqState = .dequeuing → info.success = false ∧
      ∀ key ptr, MsReq.cas key .lastNode ptr ∉ x.queue ++ requests)
    (hreads : ReadsFirst (x.queue ++ requests) ∨
      info.enqOrDeqState = .dequeuing ∧ info.newNode 0 = ⟨0, 0⟩)
    (hlast : info.state = .potentialSuccess → info.lastReqId = u32 (x.issued + requests.length)) :
    BeforeFirst d ⟨info, x.queue ++ requests, x.issued + requests.length⟩ where
  info := hinfo
  owned := by
    show _ ≤ info.ownedKey
    rw [hkey]
    exact h.owned
  head := by
    show info.head.nextKeyId < _
    rw [hhead]
    exact h.head
  requests r hr := by
    rcases List.mem_append.mp hr with hr | hr
    · have hold := h.requests r hr
      show info.Untaking d r
      cases r with
      | readPtr keyId buffer =>
        intro hb
        rw [hqueue]
        exact hold hb
      | cas keyId swap ptr =>
        cases swap with
        | head =>
          show keyId = d.headKey info.queueId
          rw [hqueue]
          exact hold
        | lastNode | tail => exact hold
      | readNode keyId i => exact ⟨hold.1, hold.2.1, hsame.trans hold.2.2⟩
      | writePtr | writeNode | readFlag | releaseFlag => exact hold
    · exact hrequests r hr
  linked := hlinked
  reads := hreads
  lastReq := hlast

theorem readsFirst_of_flags {queue : List MsReq} (h : ∀ r ∈ queue, r = .readFlag) :
    ReadsFirst queue := by
  induction queue with
  | nil => trivial
  | cons r queue ih =>
    rw [h r List.mem_cons_self]
    exact ih fun r' hr' => h r' (List.mem_cons_of_mem _ hr')

/-- A session asks for the flag. -/
theorem asked (h : BeforeFirst d x) (hinit : x.info.state = .init) {requests : List MsReq}
    (hrequests : ∀ r ∈ requests, r = .readFlag) :
    BeforeFirst d ⟨x.info, x.queue ++ requests, x.issued + requests.length⟩ := by
  refine h.moved h.info rfl rfl rfl rfl ?_ ?_ ?_ fun hc => (nomatch hinit.symm.trans hc)
  · intro r hr
    rw [hrequests r hr]
    trivial
  · intro hdeq
    refine ⟨(h.linked hdeq).1, fun key ptr hmem => ?_⟩
    rcases List.mem_append.mp hmem with hmem | hmem
    · exact (h.linked hdeq).2 key ptr hmem
    · nomatch hrequests _ hmem
  · rcases h.reads with hold | hdeq
    · exact Or.inl ((readsFirst_of_flags hrequests).append hold)
    · exact Or.inr hdeq

/-! ## The state machines -/

/-- A pass of an enqueue that goes on with it. -/
theorem enqueuing (h : BeforeFirst d x) (henq : x.info.enqOrDeqState = .enqueuing)
    {info : MsSessInfo} {requests : List MsReq} (hinfo : info.Ok d)
    (hqueue : info.queueId = x.info.queueId) (hkey : info.ownedKey = x.info.ownedKey)
    (hhead : info.head = x.info.head) (hsame : info.enqOrDeqState = .enqueuing)
    (hrequests : ∀ r ∈ requests, info.Untaking d r) (hreads : ReadsFirst requests)
    (hlast : info.state = .potentialSuccess → info.lastReqId = u32 (x.issued + requests.length)) :
    BeforeFirst d ⟨info, x.queue ++ requests, x.issued + requests.length⟩ := by
  refine h.moved hinfo hqueue hkey hhead (hsame.trans henq.symm) hrequests
    (fun hc => nomatch hsame.symm.trans hc) ?_ hlast
  rcases h.reads with hold | ⟨hc, -⟩
  · exact Or.inl (hreads.append hold)
  · nomatch henq.symm.trans hc

/-- **A pass of an enqueue.** -/
theorem msEnqueue (h : BeforeFirst d x) (hkeys : MsKeysFit d)
    (henq : x.info.enqOrDeqState = .enqueuing) (hle : x.queue.length ≤ x.issued)
    (hfew : x.issued < 2 ^ 32) :
    Ends (fun _ => True) (d.msEnqueue x) fun p =>
      BeforeFirst d ⟨p.1, x.queue ++ p.2, x.issued + p.2.length⟩ := by
  have hinfo := h.info
  have hpoll : Ends (fun _ => True) (pollAReqBlocking x x.info.lastReqId) fun _ =>
      x.info.state = .potentialSuccess → x.queue = [] := by
    refine Ends.intro (fun _ hp hstate => ?_) fun _ _ => trivial
    rw [h.lastReq hstate] at hp
    have hnone := executed_of_poll hle hfew (Nat.le_refl _) hp
    exact List.length_eq_zero_iff.mp (by omega)
  have htail : ∀ ptr n, d.IsNext n →
      KeepsHeads d x.info.queueId (x.info.aimed.newTail.advance ptr n) :=
    fun _ _ hn => .of_tail hkeys hinfo.queue_lt hn
  unfold Deployment.msEnqueue
  cases hstate : x.info.state with
  | init =>
    dsimp only
    rw [hstate]
    refine Ends.ok (h.enqueuing henq ?_ rfl rfl rfl henq ?_ trivial fun hc => (nomatch hc))
    · refine hinfo.congr rfl rfl rfl rfl rfl fun b => ?_
      cases b with
      | ownedNodePtr => exact Or.inr rfl
      | _ => exact Or.inl rfl
    · intro r hr
      rcases List.mem_cons.mp hr with rfl | hr
      · show d.msNodeKeyOffset ≤ u32 (x.info.ownedKey + 0)
        have howned := h.owned
        have hlt : x.info.ownedKey < 2 ^ 32 := by
          unfold MsKeysFit at hkeys
          rcases hinfo.ownedKey with hzero | ⟨-, hlt⟩
          · omega
          · omega
        rw [u32_of_lt (by omega)]
        omega
      · rcases List.mem_cons.mp hr with rfl | hr
        · exact .of_link hkeys hinfo.ownedKeyPtr (Or.inl rfl)
        · rw [List.mem_singleton.mp hr]
          exact fun hc => nomatch hc
  | loopStart =>
    dsimp only
    rw [hstate]
    refine Ends.ok (h.enqueuing henq ?_ rfl rfl rfl henq ?_ trivial fun hc => (nomatch hc))
    · exact hinfo.congr rfl rfl rfl rfl rfl fun b => Or.inl (by cases b <;> rfl)
    · intro r hr
      rw [List.mem_singleton.mp hr]
      exact fun hc => nomatch hc
  | readTail =>
    dsimp only
    rw [hstate]
    refine hpoll.bind fun _ _ => ?_
    refine Ends.ok (h.enqueuing henq ?_ rfl rfl rfl henq ?_ trivial fun hc => (nomatch hc))
    · exact hinfo.congr rfl rfl rfl rfl rfl fun b => Or.inl (by cases b <;> rfl)
    · intro r hr
      rcases List.mem_cons.mp hr with rfl | hr
      · exact fun hc => nomatch hc
      · rw [List.mem_singleton.mp hr]
        exact fun hc => nomatch hc
  | readLastNode =>
    dsimp only
    rw [hstate]
    refine hpoll.bind fun _ _ => ?_
    refine Ends.bind (P := fun _ => True) (Ends.intro (fun _ _ => trivial) fun _ _ => trivial) ?_
    intro equal _
    split
    · refine Ends.ok (h.enqueuing henq ?_ rfl rfl rfl henq (fun r hr => nomatch hr) trivial
        fun hc => (nomatch hc))
      exact hinfo.congr rfl rfl rfl rfl rfl fun b => Or.inl (by cases b <;> rfl)
    · split
      · refine Ends.ok (h.enqueuing henq ?_ rfl rfl rfl henq ?_ trivial fun _ => rfl)
        · exact hinfo.congr rfl rfl rfl rfl rfl fun b => Or.inl (by cases b <;> rfl)
        · intro r hr
          rw [List.mem_singleton.mp hr]
          exact ⟨.of_link hkeys (hkeys.offset_le (hinfo.next .tail)) hinfo.ownedKey, h.owned⟩
      · refine Ends.ok (h.enqueuing henq ?_ rfl rfl rfl henq ?_ trivial fun hc => (nomatch hc))
        · exact hinfo.congr rfl rfl rfl rfl rfl fun b => Or.inl (by cases b <;> rfl)
        · intro r hr
          rw [List.mem_singleton.mp hr]
          exact htail _ _ (hinfo.next .lastNodePtr)
  | potentialSuccess =>
    dsimp only
    rw [hstate]
    refine hpoll.bind fun _ hnil => ?_
    split
    · -- it is linked: the session goes on to dequeue, with the swap of the tail on its way
      rw [hnil hstate]
      refine Ends.ok ⟨?_, h.owned, h.head, ?_, fun _ => ⟨rfl, ?_⟩, Or.inl trivial,
        fun hc => (nomatch hc)⟩
      · exact hinfo.congr rfl rfl rfl rfl rfl fun b => Or.inl (by cases b <;> rfl)
      · intro r hr
        rw [List.mem_singleton.mp hr]
        exact htail _ _ hinfo.ownedKey
      · intro key ptr hmem
        nomatch List.mem_singleton.mp hmem
    · refine Ends.ok (h.enqueuing henq ?_ rfl rfl rfl henq (fun r hr => nomatch hr) trivial
        fun hc => (nomatch hc))
      exact hinfo.congr rfl rfl rfl rfl rfl fun b => Or.inl (by cases b <;> rfl)
  | readHead | readFirstNode =>
    dsimp only
    rw [hstate]
    refine Ends.ok (h.enqueuing henq ?_ rfl rfl rfl henq (fun r hr => nomatch hr) trivial
      fun hc => (nomatch hc))
    exact hinfo.congr rfl rfl rfl rfl rfl fun b => Or.inl (by cases b <;> rfl)

/-- A pass of a dequeue that does not take a node. -/
theorem dequeuing (h : BeforeFirst d x) (hdeq : x.info.enqOrDeqState = .dequeuing)
    {info : MsSessInfo} {requests : List MsReq} (hinfo : info.Ok d)
    (hqueue : info.queueId = x.info.queueId) (hkey : info.ownedKey = x.info.ownedKey)
    (hhead : info.head = x.info.head) (hsame : info.enqOrDeqState = .dequeuing)
    (hsuccess : info.success = x.info.success) (hnode : info.newNode = x.info.newNode)
    (hrequests : ∀ r ∈ requests, info.Untaking d r ∧ ∀ key ptr, r ≠ .cas key .lastNode ptr)
    (hreads : ReadsFirst requests)
    (hlast : info.state = .potentialSuccess → info.lastReqId = u32 (x.issued + requests.length)) :
    BeforeFirst d ⟨info, x.queue ++ requests, x.issued + requests.length⟩ := by
  obtain ⟨hfailed, hnone⟩ := h.linked hdeq
  refine h.moved hinfo hqueue hkey hhead (hsame.trans hdeq.symm) (fun r hr => (hrequests r hr).1)
    (fun _ => ⟨hsuccess.trans hfailed, fun key ptr hmem => ?_⟩) ?_ hlast
  · rcases List.mem_append.mp hmem with hmem | hmem
    · exact hnone key ptr hmem
    · exact (hrequests _ hmem).2 key ptr rfl
  · rcases h.reads with hold | ⟨-, hzero⟩
    · exact Or.inl (hreads.append hold)
    · refine Or.inr ⟨hsame, ?_⟩
      rw [hnode]
      exact hzero

/-- **A pass of a dequeue.** -/
theorem msDequeue (h : BeforeFirst d x) (hkeys : MsKeysFit d) {cntr : Nat}
    (hcntr : cntr < d.msQueuesNum) (hdeq : x.info.enqOrDeqState = .dequeuing) :
    Ends (fun _ => True) (d.msDequeue cntr x) fun p =>
      p.1 < d.msQueuesNum ∧ BeforeFirst d ⟨p.2.1, x.queue ++ p.2.2, x.issued + p.2.2.length⟩ := by
  have hinfo := h.info
  have hpoll : Ends (fun _ => True) (pollAReqBlocking x x.info.lastReqId) fun _ => True :=
    Ends.intro (fun _ _ => trivial) fun _ _ => trivial
  have hasks : ∀ info : MsSessInfo, info.queueId = x.info.queueId →
      ∀ r ∈ [MsReq.readPtr (d.headKey x.info.queueId) .head, .readPtr x.info.queueId .tail],
        info.Untaking d r ∧ ∀ key ptr, r ≠ .cas key .lastNode ptr := by
    intro info hqueue r hr
    rcases List.mem_cons.mp hr with rfl | hr
    · refine ⟨fun _ => ?_, fun _ _ hc => nomatch hc⟩
      rw [hqueue]
    · rw [List.mem_singleton.mp hr]
      exact ⟨(fun hc => nomatch hc), fun _ _ hc => nomatch hc⟩
  unfold Deployment.msDequeue
  cases hstate : x.info.state with
  | init | loopStart =>
    dsimp only
    rw [hstate]
    refine Ends.ok ⟨hcntr, h.dequeuing hdeq ?_ rfl rfl rfl hdeq rfl rfl (hasks _ rfl) trivial
      fun hc => (nomatch hc)⟩
    exact hinfo.congr rfl rfl rfl rfl rfl fun b => Or.inl (by cases b <;> rfl)
  | readHead =>
    dsimp only
    rw [hstate]
    refine hpoll.bind fun _ _ => ?_
    refine Ends.ok ⟨hcntr, h.dequeuing hdeq ?_ rfl rfl rfl hdeq rfl rfl ?_ trivial
      fun hc => (nomatch hc)⟩
    · exact hinfo.congr rfl rfl rfl rfl rfl fun b => Or.inl (by cases b <;> rfl)
    · intro r hr
      rcases List.mem_cons.mp hr with rfl | hr
      · exact ⟨(fun hc => nomatch hc), fun _ _ hc => nomatch hc⟩
      · rw [List.mem_singleton.mp hr]
        exact ⟨(fun hc => nomatch hc), fun _ _ hc => nomatch hc⟩
  | readFirstNode =>
    dsimp only
    rw [hstate]
    refine hpoll.bind fun _ _ => ?_
    refine Ends.bind (P := fun _ => True) (Ends.intro (fun _ _ => trivial) fun _ _ => trivial) ?_
    intro equal _
    split
    · refine Ends.ok ⟨hcntr, h.dequeuing hdeq ?_ rfl rfl rfl hdeq rfl rfl (fun r hr => nomatch hr)
        trivial fun hc => (nomatch hc)⟩
      exact hinfo.congr rfl rfl rfl rfl rfl fun b => Or.inl (by cases b <;> rfl)
    · split
      · refine Ends.ok ⟨hcntr, h.dequeuing hdeq ?_ rfl rfl rfl hdeq rfl rfl ?_ trivial
          fun hc => (nomatch hc)⟩
        · exact hinfo.congr rfl rfl rfl rfl rfl fun b => Or.inl (by cases b <;> rfl)
        · intro r hr
          rw [List.mem_singleton.mp hr]
          exact ⟨.of_tail hkeys hinfo.queue_lt (hinfo.next .ownedNodePtr), fun _ _ hc => nomatch hc⟩
      · refine Ends.ok ⟨hcntr, h.dequeuing hdeq ?_ rfl rfl rfl hdeq rfl rfl ?_ trivial fun _ => rfl⟩
        · exact hinfo.congr rfl rfl rfl rfl rfl fun b => Or.inl (by cases b <;> rfl)
        · intro r hr
          rcases List.mem_cons.mp hr with rfl | hr
          · refine ⟨⟨?_, rfl, hdeq⟩, fun _ _ hc => nomatch hc⟩
            have hle : u32 (x.info.head.nextKeyId + 0) ≤ x.info.head.nextKeyId := Nat.mod_le ..
            have hhead := h.head
            show u32 (x.info.head.nextKeyId + 0) < _
            omega
          · rw [List.mem_singleton.mp hr]
            exact ⟨rfl, fun _ _ hc => nomatch hc⟩
  | potentialSuccess =>
    dsimp only
    rw [hstate]
    refine hpoll.bind fun _ _ => ?_
    split
    · rename_i hsuccess
      nomatch (h.linked hdeq).1.symm.trans hsuccess
    · refine Ends.ok ⟨hcntr, h.dequeuing hdeq ?_ rfl rfl rfl hdeq rfl rfl (fun r hr => nomatch hr)
        trivial fun hc => (nomatch hc)⟩
      exact hinfo.congr rfl rfl rfl rfl rfl fun b => Or.inl (by cases b <;> rfl)
  | readTail | readLastNode =>
    dsimp only
    rw [hstate]
    refine Ends.ok ⟨hcntr, h.dequeuing hdeq ?_ rfl rfl rfl hdeq rfl rfl (fun r hr => nomatch hr)
      trivial fun hc => (nomatch hc)⟩
    exact hinfo.congr rfl rfl rfl rfl rfl fun b => Or.inl (by cases b <;> rfl)

/-! ## The store executes a request -/

/-- A request was executed. -/
theorem served (h : BeforeFirst d x) {r : MsReq} {queue : List MsReq} (hqueue : x.queue = r :: queue)
    {info : MsSessInfo} (hinfo : info.Ok d) (hsame : info.Same x.info)
    (hhead : info.head.nextKeyId < d.msNodeKeyOffset)
    (hsuccess : x.info.enqOrDeqState = .dequeuing → info.success = false)
    (hreads : ReadsFirst queue ∨ x.info.enqOrDeqState = .dequeuing ∧ info.newNode 0 = ⟨0, 0⟩) :
    BeforeFirst d ⟨info, queue, x.issued⟩ where
  info := hinfo
  owned := by
    show _ ≤ info.ownedKey
    rw [hsame.ownedKey]
    exact h.owned
  head := hhead
  requests r' hr' := by
    have hold := h.requests r' (by rw [hqueue]; exact List.mem_cons_of_mem _ hr')
    show info.Untaking d r'
    cases r' with
    | readPtr keyId buffer =>
      intro hb
      rw [hsame.queueId]
      exact hold hb
    | cas keyId swap ptr =>
      cases swap with
      | head =>
        show keyId = d.headKey info.queueId
        rw [hsame.queueId]
        exact hold
      | lastNode | tail => exact hold
    | readNode keyId i => exact ⟨hold.1, hold.2.1, hsame.enqOrDeq.trans hold.2.2⟩
    | writePtr | writeNode | readFlag | releaseFlag => exact hold
  linked hdeq := by
    have hold := hsame.enqOrDeq.symm.trans hdeq
    refine ⟨hsuccess hold, fun key ptr hmem => ?_⟩
    refine (h.linked hold).2 key ptr ?_
    rw [hqueue]
    exact List.mem_cons_of_mem _ hmem
  reads := by
    rcases hreads with hreads | ⟨hdeq, hzero⟩
    · exact Or.inl hreads
    · exact Or.inr ⟨hsame.enqOrDeq.trans hdeq, hzero⟩
  lastReq hstate := by
    show info.lastReqId = _
    rw [hsame.lastReqId]
    exact h.lastReq (hsame.state.symm.trans hstate)

/-- What a step does before the first dequeue: it keeps everything, and only the nodes of the
    sessions enter a queue. -/
structure Keeps (d : Deployment) (store : MsStore) (x : MsSession) (e : MsEvent) : Prop where
  entered : ∀ q k, e = .enqueued q k → d.msNodeKeyOffset ≤ k
  left : ∀ q k, e ≠ .dequeued q k
  store : Untaken d store
  session : BeforeFirst d x

/-- **A request is executed** that is no dequeue, or it is the first one and its session has read
    a body that nobody has written. -/
theorem msServe {store : MsStore} (hstore : Untaken d store) (h : BeforeFirst d x)
    {spurious : Bool} {r : MsReq} {queue : List MsReq} (hqueue : x.queue = r :: queue)
    {store' : MsStore} {info : MsSessInfo} {e : MsEvent}
    (hserve : msServe spurious store x.info r = (store', info, e)) :
    (∃ q k, e = .dequeued q k ∧ info.newNode 0 = ⟨0, 0⟩) ∨
      Keeps d store' ⟨info, queue, x.issued⟩ e := by
  have hok := h.requests r (by rw [hqueue]; exact List.mem_cons_self)
  have hsame : x.info.Same x.info := ⟨rfl, rfl, rfl, rfl, rfl, rfl⟩
  have hreads := h.reads
  rw [hqueue] at hreads
  have hfailed := fun hdeq => (h.linked hdeq).1
  cases r with
  | readPtr keyId buffer =>
    cases hserve
    refine Or.inr ⟨(fun _ _ hc => nomatch hc), (fun _ _ hc => nomatch hc), hstore, ?_⟩
    cases buffer with
    | head =>
      refine h.served hqueue (h.info.fill (hstore.next keyId) .head) ⟨rfl, rfl, rfl, rfl, rfl, rfl⟩
        ?_ hfailed hreads
      show (store.ptr keyId).nextKeyId < _
      rw [show keyId = d.headKey x.info.queueId from hok rfl]
      exact hstore.head _ h.info.queue_lt
    | tail | secondTail | secondHead | ownedNodePtr | lastNodePtr =>
      exact h.served hqueue (h.info.fill (hstore.next keyId) _) ⟨rfl, rfl, rfl, rfl, rfl, rfl⟩
        h.head hfailed hreads
  | writePtr keyId ptr =>
    cases hserve
    exact Or.inr ⟨(fun _ _ hc => nomatch hc), (fun _ _ hc => nomatch hc), hstore.write hok,
      h.served hqueue h.info hsame h.head hfailed hreads⟩
  | readNode keyId i =>
    cases hserve
    obtain ⟨hkey, rfl, hdeq⟩ := hok
    refine Or.inr ⟨(fun _ _ hc => nomatch hc), (fun _ _ hc => nomatch hc), hstore, ?_⟩
    refine h.served hqueue ?_ ⟨rfl, rfl, rfl, rfl, rfl, rfl⟩ h.head hfailed (Or.inr ⟨hdeq, ?_⟩)
    · exact h.info.congr rfl rfl rfl rfl rfl fun b => Or.inl (by cases b <;> rfl)
    · show Function.update x.info.newNode 0 (store.node keyId) 0 = _
      rw [Function.update_self]
      exact hstore.body keyId hkey
  | writeNode keyId node =>
    cases hserve
    refine Or.inr ⟨(fun _ _ hc => nomatch hc), (fun _ _ hc => nomatch hc),
      ⟨hstore.next, hstore.head, fun k hk => ?_⟩,
      h.served hqueue h.info hsame h.head hfailed hreads⟩
    have hle : d.msNodeKeyOffset ≤ keyId := hok
    show Function.update store.node keyId node k = _
    rw [Function.update_of_ne (by omega)]
    exact hstore.body k hk
  | cas keyId swap ptr =>
    have hold : d.IsNext (x.info.expected swap).nextKeyId := by
      rw [expected_eq]
      exact h.info.next _
    cases swap with
    | lastNode =>
      have hnot : x.info.enqOrDeqState ≠ .dequeuing := by
        intro hdeq
        refine (h.linked hdeq).2 keyId ptr ?_
        rw [hqueue]
        exact List.mem_cons_self
      rcases MsInv.msServe_cas hserve with ⟨-, rfl, rfl, rfl⟩ | ⟨rfl, rfl, rfl⟩
      · refine Or.inr ⟨fun q k hc => ?_, (fun _ _ hc => nomatch hc), hstore.write hok.1, ?_⟩
        · cases hc
          exact hok.2
        · exact h.served hqueue (h.info.swapped hold true .lastNode) ⟨rfl, rfl, rfl, rfl, rfl, rfl⟩
            h.head (fun hdeq => absurd hdeq hnot) hreads
      · exact Or.inr ⟨(fun _ _ hc => nomatch hc), (fun _ _ hc => nomatch hc), hstore,
          h.served hqueue (h.info.swapped (hstore.next keyId) false .lastNode)
            ⟨rfl, rfl, rfl, rfl, rfl, rfl⟩ h.head (fun hdeq => absurd hdeq hnot) hreads⟩
    | tail =>
      rcases MsInv.msServe_cas hserve with ⟨-, rfl, rfl, rfl⟩ | ⟨rfl, rfl, rfl⟩
      · exact Or.inr ⟨(fun _ _ hc => nomatch hc), (fun _ _ hc => nomatch hc), hstore.write hok,
          h.served hqueue (h.info.swapped hold true .tail) ⟨rfl, rfl, rfl, rfl, rfl, rfl⟩
            h.head hfailed hreads⟩
      · exact Or.inr ⟨(fun _ _ hc => nomatch hc), (fun _ _ hc => nomatch hc), hstore,
          h.served hqueue (h.info.swapped (hstore.next keyId) false .tail)
            ⟨rfl, rfl, rfl, rfl, rfl, rfl⟩ h.head hfailed hreads⟩
    | head =>
      rcases hreads with hc | ⟨hdeq, hzero⟩
      · exact hc.elim
      · rcases MsInv.msServe_cas hserve with ⟨-, -, rfl, rfl⟩ | ⟨rfl, rfl, rfl⟩
        · exact Or.inl ⟨_, _, rfl, hzero⟩
        · refine Or.inr ⟨(fun _ _ hc => nomatch hc), (fun _ _ hc => nomatch hc), hstore, ?_⟩
          refine h.served hqueue (h.info.swapped (hstore.next keyId) false .head)
            ⟨rfl, rfl, rfl, rfl, rfl, rfl⟩ ?_ (fun _ => rfl) (Or.inr ⟨hdeq, hzero⟩)
          show (store'.ptr keyId).nextKeyId < _
          rw [show keyId = d.headKey x.info.queueId from hok]
          exact hstore.head _ h.info.queue_lt
  | readFlag =>
    cases hserve
    refine Or.inr ⟨(fun _ _ hc => nomatch hc), (fun _ _ hc => nomatch hc), hstore, ?_⟩
    refine h.served hqueue ?_ ⟨rfl, rfl, rfl, rfl, rfl, rfl⟩ h.head hfailed hreads
    exact h.info.congr rfl rfl rfl rfl rfl fun b => Or.inl (by cases b <;> rfl)
  | releaseFlag flag =>
    cases hserve
    exact Or.inr ⟨(fun _ _ hc => nomatch hc), (fun _ _ hc => nomatch hc),
      ⟨hstore.next, hstore.head, hstore.body⟩,
      h.served hqueue h.info hsame h.head hfailed hreads⟩

end BeforeFirst

/-! ## Every run -/

/-- Requests that write pointers, and the flag. -/
theorem readsFirst_of_writes {queue : List MsReq}
    (h : ∀ r ∈ queue, (∃ key ptr, r = .writePtr key ptr) ∨ ∃ flag, r = .releaseFlag flag) :
    ReadsFirst queue := by
  induction queue with
  | nil => trivial
  | cons r queue ih =>
    have hrest := ih fun r' hr' => h r' (List.mem_cons_of_mem _ hr')
    rcases h r List.mem_cons_self with ⟨key, ptr, rfl⟩ | ⟨flag, rfl⟩
    · exact hrest
    · exact hrest

/-- The set-up writes heads that lead to dummies. -/
theorem setUp_untaking (hkeys : MsKeysFit d) {tail head : MsPtr} (info : MsSessInfo) {r : MsReq}
    (hr : r ∈ d.msSetUp tail head) :
    info.Untaking d r ∧ ((∃ key ptr, r = .writePtr key ptr) ∨ ∃ flag, r = .releaseFlag flag) := by
  rcases List.mem_append.mp hr with hr | hr
  · obtain ⟨q, hq, hr⟩ := List.mem_flatMap.mp hr
    have hlt : q < d.msQueuesNum := List.mem_range.mp hq
    have hdummy := hkeys.dummy_isNext hlt
    have hbefore : d.dummyKey q < d.msNodeKeyOffset := by
      have hle : d.dummyKey q ≤ d.dummyKeyIdOffset + q * msWritesNum := Nat.mod_le ..
      unfold Deployment.msNodeKeyOffset msWritesNum
      unfold msWritesNum at hle
      omega
    rcases List.mem_cons.mp hr with rfl | hr
    · exact ⟨.of_tail hkeys hlt hdummy, Or.inl ⟨_, _, rfl⟩⟩
    · rcases List.mem_cons.mp hr with rfl | hr
      · exact ⟨⟨hdummy, fun _ _ _ => hbefore⟩, Or.inl ⟨_, _, rfl⟩⟩
      · rw [List.mem_singleton.mp hr]
        exact ⟨.of_link hkeys (hkeys.offset_le hdummy) (Or.inl rfl), Or.inl ⟨_, _, rfl⟩⟩
  · rw [List.mem_singleton.mp hr]
    exact ⟨trivial, Or.inr ⟨_, rfl⟩⟩

/-- A session that has not begun; session 0 has the set-up to do. -/
theorem beforeFirst_start (hkeys : MsKeysFit d) (tail head : MsPtr) {g issued : Nat}
    (hg : g < d.globalSessionNum) {queue : List MsReq}
    (hqueue : queue = [] ∨ queue = d.msSetUp tail head) :
    BeforeFirst d ⟨d.msSessInfo g, queue, issued⟩ := by
  have hall : ∀ r ∈ queue, r ∈ d.msSetUp tail head := by
    intro r hr
    rcases hqueue with rfl | rfl
    · nomatch hr
    · exact hr
  refine ⟨msSessInfo_ok hkeys hg, ?_, ?_, fun r hr => (setUp_untaking hkeys _ (hall r hr)).1,
    (fun hc => nomatch hc), Or.inl ?_, fun hc => nomatch hc⟩
  · show d.msNodeKeyOffset ≤ u32 (d.msNodeKeyOffset + d.globSessI g * msWritesNum)
    have hsess : d.globSessI g ≤ g := by
      rw [d.globSessI_eq]
      exact Nat.mod_le ..
    unfold MsKeysFit Deployment.msInitDoneFlagKey Deployment.msQueuesNum msWritesNum at hkeys
    unfold msWritesNum
    rw [u32_of_lt (by omega)]
    omega
  · show 0 < d.msNodeKeyOffset
    unfold Deployment.msNodeKeyOffset Deployment.dummyKeyIdOffset
    omega
  · exact readsFirst_of_writes fun r hr => (setUp_untaking hkeys (d.msSessInfo g) (hall r hr)).2

/-- Nothing was dequeued. -/
def NoDequeue (tr : MsTrace) : Prop := ∀ t ∈ tr, ∀ q k, t.2 ≠ .dequeued q k

/-- **What holds until the first dequeue succeeds.** -/
structure FirstInv (d : Deployment) (tr : MsTrace) (s : MsSys) : Prop where
  held : Held d (Untaken d) (BeforeFirst d) s
  none : NoDequeue tr
  entered : ∀ q, ∀ k ∈ entered tr q, d.msNodeKeyOffset ≤ k

namespace FirstInv

variable {tr : MsTrace} {s s' : MsSys} {g q k : Nat}

theorem start (hkeys : MsKeysFit d) (hpos : 0 < d.globalSessionNum) (tail head : MsPtr) :
    FirstInv d [] (d.msStart tail head) where
  held := by
    constructor
    case store =>
      refine ⟨fun _ => Or.inl rfl, fun _ _ => ?_, fun _ _ => rfl⟩
      show 0 < d.msNodeKeyOffset
      unfold Deployment.msNodeKeyOffset Deployment.dummyKeyIdOffset
      omega
    case sessions =>
      intro g hg
      show BeforeFirst d (if g = 0 then _ else _)
      split
      · exact beforeFirst_start hkeys tail head hg (Or.inr rfl)
      · exact beforeFirst_start hkeys tail head hg (Or.inl rfl)
    case outside =>
      intro g hg
      show (if g = 0 then _ else _ : MsSession).queue = []
      rw [if_neg (by omega)]
    case waits =>
      intro g hg _
      show (if g = 0 then _ else _ : MsSession).info.state = .init
      split
      · rfl
      · rfl
    case cntr_lt =>
      intro c
      refine Nat.mod_lt _ ?_
      exact hpos
  none _ ht := nomatch ht
  entered q k hk := nomatch hk

/-- The trace goes on. -/
theorem concat (h : FirstInv d tr s) {turn : Turn} {e : MsEvent}
    (hheld : Held d (Untaken d) (BeforeFirst d) s') (hleft : ∀ q k, e ≠ .dequeued q k)
    (hentered : ∀ q k, e = .enqueued q k → d.msNodeKeyOffset ≤ k) :
    FirstInv d (tr ++ [(turn, e)]) s' where
  held := hheld
  none t ht := by
    rcases List.mem_append.mp ht with ht | ht
    · exact h.none t ht
    · rw [List.mem_singleton.mp ht]
      exact hleft
  entered q k hk := by
    unfold Odyssey.entered at hk
    rw [List.filterMap_append] at hk
    rcases List.mem_append.mp hk with hk | hk
    · exact h.entered q k hk
    · obtain ⟨⟨_, e'⟩, hmem, hsome⟩ := List.mem_filterMap.mp hk
      cases List.mem_singleton.mp hmem
      split at hsome
      · rename_i q' k' heq
        cases heq
        split at hsome
        · cases hsome
          exact hentered _ _ rfl
        · nomatch hsome
      · nomatch hsome

/-- A pass over a session. -/
theorem pass (h : FirstInv d tr s) (hkeys : MsKeysFit d) (hg : g < d.globalSessionNum)
    (hle : (s.session g).queue.length ≤ (s.session g).issued)
    (hfew : (s.session g).issued < 2 ^ 32) :
    Ends (fun _ => True) (d.msPass g (s.shared (d.clientOf g)) (s.session g)) fun p =>
      p.1.queueIdCntr < d.msQueuesNum ∧
      (p.1.phase ≠ .running → (s.shared (d.clientOf g)).phase ≠ .running ∧ p.2.1.state = .init) ∧
      BeforeFirst d ⟨p.2.1, (s.session g).queue ++ p.2.2, (s.session g).issued + p.2.2.length⟩ := by
  have hok := h.held.sessions g hg
  have hcntr := h.held.cntr_lt (d.clientOf g)
  refine h.held.pass hg (fun _ => trivial) ?_ fun hinit _ => hok.asked hinit
  unfold Deployment.msLoopPass
  cases hstate : (s.session g).info.enqOrDeqState with
  | enqueuing =>
    refine (hok.msEnqueue hkeys hstate hle hfew).bind fun p hp => ?_
    exact Ends.ok ⟨hcntr, hp⟩
  | dequeuing => exact hok.msDequeue hkeys hcntr hstate

/-- **A step** that is no dequeue keeps it; the first dequeue has read a body that nobody has
    written. -/
theorem step (h : FirstInv d tr s) (hkeys : MsKeysFit d)
    (hle : ∀ g, (s.session g).queue.length ≤ (s.session g).issued)
    (hfew : ∀ g, g < d.globalSessionNum → (s.session g).issued < 2 ^ 32) {turn : Turn} {e : MsEvent}
    (hstep : d.msService.step s turn = .ok (s', e)) :
    (∃ g spurious q k, turn = .store g spurious ∧ e = .dequeued q k ∧
      (s'.session g).info.newNode 0 = ⟨0, 0⟩) ∨ FirstInv d (tr ++ [(turn, e)]) s' := by
  rcases Service.step_cases hstep with ⟨g, c, info, requests, rfl, hpass, rfl⟩ |
    ⟨g, spurious, r, queue, store, info, rfl, hqueue, hserve, rfl⟩
  · right
    change (if g < d.globalSessionNum then _ else _) = _ at hpass
    by_cases hg : g < d.globalSessionNum
    · rw [if_pos hg] at hpass
      obtain ⟨⟨c', info', requests'⟩, hms, heq⟩ := bind_eq_ok.mp hpass
      cases heq
      obtain ⟨hc, hphase, hsession⟩ := (h.pass hkeys hg (hle g) (hfew g hg)).of_ok hms
      exact h.concat (h.held.update hg h.held.store hsession hc hphase) (fun _ _ hc => by cases hc)
        fun _ _ hc => by cases hc
    · rw [if_neg hg] at hpass
      cases hpass
  · have hg : g < d.globalSessionNum := by
      by_contra hc
      cases (h.held.outside g (Nat.le_of_not_lt hc)).symm.trans hqueue
    rcases (h.held.sessions g hg).msServe h.held.store hqueue hserve with
      ⟨q, k, rfl, hread⟩ | hkeeps
    · refine Or.inl ⟨g, spurious, q, k, rfl, rfl, ?_⟩
      show (Function.update s.session g _ g).info.newNode 0 = _
      rw [Function.update_self]
      exact hread
    · exact Or.inr (h.concat (h.held.serve hg hserve hkeeps.store hkeeps.session) hkeeps.left
        hkeeps.entered)

end FirstInv

/-- **The first dequeue**: until then `FirstInv` holds. -/
structure FirstDequeue (d : Deployment) (s₀ : MsSys) (tr : MsTrace) (g q k : Nat) (spurious : Bool)
    (tr₁ tr₂ : MsTrace) (s₁ s₂ : MsSys) : Prop where
  trace : tr = tr₁ ++ (.store g spurious, .dequeued q k) :: tr₂
  run : Run d.msService.step s₀ tr₁ s₁
  step : d.msService.step s₁ (.store g spurious) = .ok (s₂, .dequeued q k)
  inv : FirstInv d tr₁ s₁
  read : (s₂.session g).info.newNode 0 = ⟨0, 0⟩

theorem noDequeue_or_first (hkeys : MsKeysFit d) (hpos : 0 < d.globalSessionNum) {tail head : MsPtr}
    {tr : MsTrace} {s : MsSys} (hrun : Run d.msService.step (d.msStart tail head) tr s)
    (hfew : ∀ g, g < d.globalSessionNum → (s.session g).issued < 2 ^ 32) :
    FirstInv d tr s ∨ ∃ g q k spurious tr₁ tr₂ s₁ s₂,
      FirstDequeue d (d.msStart tail head) tr g q k spurious tr₁ tr₂ s₁ s₂ := by
  induction hrun with
  | start => exact Or.inl (.start hkeys hpos tail head)
  | @snoc tr s s' turn e hrun hstep ih =>
    have hbefore : ∀ g, g < d.globalSessionNum → (s.session g).issued < 2 ^ 32 := fun g hg =>
      Nat.lt_of_le_of_lt (Service.issued_mono hstep g) (hfew g hg)
    have hstart := (msSetUpBy_start hpos tail head).issued_eq
    have hle := Service.queue_le_issued (fun g => Nat.le_of_eq (hstart g)) hrun
    rcases ih hbefore with h | ⟨g, q, k, spurious, tr₁, tr₂, s₁, s₂, hfirst⟩
    · rcases h.step hkeys hle hbefore hstep with ⟨g, spurious, q, k, rfl, rfl, hread⟩ | h'
      · exact Or.inr ⟨g, q, k, spurious, tr, [], s, s', rfl, hrun, hstep, h, hread⟩
      · exact Or.inl h'
    · refine Or.inr ⟨g, q, k, spurious, tr₁, tr₂ ++ [(turn, e)], s₁, s₂,
        ?_, hfirst.run, hfirst.step, hfirst.inv, hfirst.read⟩
      rw [hfirst.trace, List.append_assoc, List.cons_append]

/-! ## The values of a run -/

/-- What holds of every dequeue of a run: of the steps before it, its queue, and the body that it
    has read. -/
def EveryDequeue (d : Deployment) (s₀ : MsSys) (tr : MsTrace)
    (P : MsTrace → Nat → MsNode → Prop) : Prop :=
  ∀ tr₁ g spurious q k tr₂, tr = tr₁ ++ (.store g spurious, .dequeued q k) :: tr₂ →
    ∀ s s', Run d.msService.step s₀ tr₁ s →
      d.msService.step s (.store g spurious) = .ok (s', .dequeued q k) →
        P tr₁ q ((s'.session g).info.newNode 0)

/-- **The values are in order**: the `n`-th dequeue of a queue reads what the `n`-th enqueue has
    written. -/
def ValuesInOrder (d : Deployment) (s₀ : MsSys) (tr : MsTrace) : Prop :=
  EveryDequeue d s₀ tr fun before q node =>
    ((entered before q).map d.msBody)[(left before q).length]? = some node

/-- The values are one behind: the `n`-th dequeue of a queue reads what the enqueue before the `n`-th
    has written, and for the first one the body of the dummy, that nobody has written. -/
def ValuesBehind (d : Deployment) (s₀ : MsSys) (tr : MsTrace) : Prop :=
  EveryDequeue d s₀ tr fun before q node =>
    (d.msBodies before q)[(left before q).length]? = some node ∧
      ∃ own, (entered before q)[(left before q).length]? = some own ∧ node ≠ d.msBody own

/-- The values are in order in the runs without a dequeue only, whatever order the sessions make
    their passes in; if no other session of the first client begins before the set-up was executed,
    every dequeue is one value behind. -/
theorem values_of_first (hf : MsFits d) {tail head : MsPtr} {tr : MsTrace} {s : MsSys}
    (hrun : Run d.msService.step (d.msStart tail head) tr s)
    (hfew : ∀ g, g < d.globalSessionNum → (s.session g).issued < 2 ^ 32) :
    (ValuesInOrder d (d.msStart tail head) tr ↔ NoDequeue tr) ∧
      (SetUpFirst d (d.msSetUp tail head).length tr → ValuesBehind d (d.msStart tail head) tr) := by
  refine ⟨⟨fun horder => ?_, fun hnone => ?_⟩, fun hfirst => ?_⟩
  · rcases Nat.eq_zero_or_pos d.globalSessionNum with hzero | hpos
    · rintro ⟨turn, e⟩ ht q k rfl
      obtain ⟨tr₁, tr₂, rfl⟩ := List.append_of_mem ht
      obtain ⟨s₁, s₂, hrun₁, hstep⟩ := hrun.split_step
      rcases Service.step_cases hstep with ⟨_, _, _, _, rfl, hpass, -⟩ |
        ⟨g, spurious, r, queue, store, info, rfl, hqueue, hserve, -⟩
      · change (if _ then _ else _) = _ at hpass
        rw [if_neg (by omega)] at hpass
        nomatch hpass
      · have hr := only_release hzero hrun₁ g r (by rw [hqueue]; exact List.mem_cons_self)
        subst hr
        nomatch hserve
    · rcases noDequeue_or_first hf.keysFit hpos hrun hfew with h |
        ⟨g, q, k, spurious, tr₁, tr₂, s₁, s₂, h⟩
      · exact h.none
      · -- the first dequeue has read what no enqueue writes
        have hvalue := horder tr₁ g spurious q k tr₂ h.trace s₁ s₂ h.run h.step
        rw [h.read, List.getElem?_map] at hvalue
        obtain ⟨own, hown, hbody⟩ := Option.map_eq_some_iff.mp hvalue
        have hle := h.inv.entered q own (List.mem_of_getElem? hown)
        have hzero : own = 0 := congrArg MsNode.nodeId hbody
        unfold Deployment.msNodeKeyOffset Deployment.dummyKeyIdOffset at hle
        omega
  · rintro tr₁ g spurious q k tr₂ rfl
    exact absurd rfl (hnone _ (List.mem_append_right _ List.mem_cons_self) q k)
  · rintro tr₁ g spurious q k tr₂ rfl s₁ s₂ hrun₁ hstep
    obtain ⟨s₁', hrun₁', hrest⟩ := hrun.split
    cases hrun₁.eq_of_run hrun₁'
    refine dequeue_reads_before hf hrun₁ (fun g hg => ?_) ?_ hstep
    · exact Nat.lt_of_le_of_lt (Service.issued_mono_run hrest g) (hfew g hg)
    · rintro tr₃ t tr₄ rfl
      exact hfirst tr₃ t (tr₄ ++ _) (by rw [List.append_assoc, List.cons_append])

end Odyssey
