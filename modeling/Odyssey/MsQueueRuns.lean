/-
  THE MICHAEL-SCOTT QUEUES UNDER EVERY INTERLEAVING, once they are set up.

  `MsInv` adds to the points of the sessions where the nodes are: every one is at one place, with a
  session or in a queue.  A queue has a node for every session that has enqueued in it and not
  dequeued yet, and one more, so the node at the head has one behind it for a session that
  dequeues (`MsInv.next_ne_zero`).  The nodes that entered a queue are those that left it, and
  then those that are in it, in this order.

  Four requests write a pointer: that of a node by its owner, the tail, that of the last node
  (`MsInv.enqueue`) and the head (`MsInv.dequeue`).  Every other step is quiet (`MsInv.quiet`).
-/
import Odyssey.MsQueuePoints

namespace Odyssey

open Lib

variable {d : Deployment}

/-! ## The invariant -/

abbrev MsTrace := List (Turn × MsEvent)

/-- The nodes that entered a queue, in order. -/
def entered (tr : MsTrace) (q : Nat) : List Nat :=
  tr.filterMap fun
    | (_, .enqueued q' k) => if q' = q then some k else none
    | _ => none

/-- The nodes that left a queue, in order. -/
def left (tr : MsTrace) (q : Nat) : List Nat :=
  tr.filterMap fun
    | (_, .dequeued q' k) => if q' = q then some k else none
    | _ => none

/-- The node that a queue begins with. -/
def Deployment.dummyKey (d : Deployment) (q : Nat) : Nat :=
  u32 (d.dummyKeyIdOffset + q * msWritesNum)

/-- The sessions that have enqueued in a queue, and have not dequeued from it. -/
def MsSys.waiting (d : Deployment) (s : MsSys) (q : Nat) : Nat :=
  (List.range d.globalSessionNum).countP fun g =>
    (s.session g).info.queueId == q && (s.session g).info.owned.isNone

/-- The last request that a session waits for is the last one that it has issued, or the one before:
    a dequeue does not wait for the tail when it reads the first node. -/
def MsSessInfo.lag (info : MsSessInfo) : Nat :=
  if info.enqOrDeqState = .dequeuing ∧ info.state = .readHead then 1 else 0

/-- What a request leaves as it is. -/
structure MsSessInfo.Same (info info' : MsSessInfo) : Prop where
  queueId : info.queueId = info'.queueId
  ownedKey : info.ownedKey = info'.ownedKey
  ownedKeyPtr : info.ownedKeyPtr = info'.ownedKeyPtr
  state : info.state = info'.state
  enqOrDeq : info.enqOrDeqState = info'.enqOrDeqState
  lastReqId : info.lastReqId = info'.lastReqId

namespace MsSessInfo.Same

variable {info info' : MsSessInfo} {store store' : MsStore} {p : EnqOrDeq} {state : MsState}

theorem lag (h : info.Same info') : info.lag = info'.lag := by
  unfold MsSessInfo.lag
  rw [h.enqOrDeq, h.state]

theorem at_point (h : info.Same info') (hat : info'.At p state false) (hsuccess : info.success = false) :
    info.At p state false :=
  ⟨h.enqOrDeq.trans hat.enqOrDeq, h.state.trans hat.state, hsuccess⟩

theorem written (h : info.Same info') (hat : info'.At .enqueuing state false)
    (hlink : ∀ k, info'.owned = some k → store'.link d k = store.link d k)
    (hwritten : store.next d info'.ownedKey = 0) : store'.next d info.ownedKey = 0 := by
  rw [MsStore.next, h.ownedKey, hlink, ← hwritten]
  · rfl
  · rw [MsSessInfo.owned, hat.enqOrDeq, hat.success]
    rfl

end MsSessInfo.Same

/-- A session that has not begun is about to enqueue its node. -/
abbrev MsPhases (d : Deployment) (s : MsSys) : Prop :=
  WaitPhases d (fun info : MsSessInfo => info.At .enqueuing .init false) .readFlag s

/-- A session that has begun is one of a client that runs. -/
theorem MsPhases.running_of_state {s : MsSys} {g : Nat} (h : MsPhases d s)
    (hg : g < d.globalSessionNum) {p : EnqOrDeq} {state : MsState} {success : Bool}
    (hat : (s.session g).info.At p state success) (hne : (p, state) ≠ (.enqueuing, .init)) :
    (s.shared (d.clientOf g)).phase = .running := by
  refine h.running_of_begun hg fun hinit => hne ?_
  exact Prod.ext (hat.enqOrDeq.symm.trans hinit.enqOrDeq) (hat.state.symm.trans hinit.state)

/-- **The invariant** of the queues once they are set up: `chain q` are the nodes of queue `q`. -/
structure MsInv (d : Deployment) (tr : MsTrace) (s : MsSys) (chain : Nat → List Nat) : Prop where
  point : ∀ g, g < d.globalSessionNum →
    MsPoint d s.store (chain (s.session g).info.queueId) (s.session g)
  queue_lt : ∀ g, g < d.globalSessionNum → (s.session g).info.queueId < d.msQueuesNum
  keyPtr : ∀ g, g < d.globalSessionNum →
    (s.session g).info.ownedKeyPtr = d.msGetNodePtrKeyId (s.session g).info.ownedKey
  lastReq : ∀ g, g < d.globalSessionNum → (s.session g).info.state ≠ .init →
    (s.session g).info.state ≠ .loopStart →
    (s.session g).info.lastReqId = u32 ((s.session g).issued - (s.session g).info.lag)
  outside : ∀ g, d.globalSessionNum ≤ g → (s.session g).queue = [] ∧ (s.session g).issued = 0
  phases : MsPhases d s
  cntr_lt : ∀ c, 0 < d.msQueuesNum → (s.shared c).queueIdCntr < d.msQueuesNum
  initDone : s.store.initDone = msInitDoneFlag
  path : ∀ q, q < d.msQueuesNum →
    Path (s.store.next d) (s.store.head d q).nextKeyId (chain q) 0
  nodup : ∀ q, q < d.msQueuesNum → (chain q).Nodup
  tail_mem : ∀ q, q < d.msQueuesNum → (s.store.tail q).nextKeyId ∈ chain q
  waiting_eq : ∀ q, q < d.msQueuesNum → (chain q).length = s.waiting d q + 1
  order : ∀ q, q < d.msQueuesNum → d.dummyKey q :: entered tr q = left tr q ++ chain q
  placed : Placed d.isMsNode (holdsNode d.globalSessionNum d.msQueuesNum
    (fun g => (s.session g).info.owned) chain)
  bound : ∀ key, (s.store.ptr key).counter ≤ Service.served tr + 1

namespace MsInv

variable {tr : MsTrace} {s : MsSys} {chain : Nat → List Nat} {g q k : Nat}

theorem node_of_mem (h : MsInv d tr s chain) (hq : q < d.msQueuesNum) (hk : k ∈ chain q) :
    d.isMsNode k :=
  h.placed.isItem (show holdsNode _ _ _ chain (.linked q) k from ⟨hq, hk⟩)

theorem node_of_owned (h : MsInv d tr s chain) (hg : g < d.globalSessionNum)
    (howned : (s.session g).info.owned = some k) : d.isMsNode k :=
  h.placed.isItem (show holdsNode _ _ _ chain (.session g) k from ⟨hg, howned⟩)

theorem isMsNode_ne_zero (hk : d.isMsNode k) : k ≠ 0 := by
  have hlo := hk.1
  unfold Deployment.dummyKeyIdOffset at hlo
  omega

/-- A queue begins with the node at its head. -/
theorem chain_eq (h : MsInv d tr s chain) (hq : q < d.msQueuesNum) :
    ∃ l, chain q = (s.store.head d q).nextKeyId :: l ∧
      Path (s.store.next d) (s.store.next d (s.store.head d q).nextKeyId) l 0 := by
  have hpath := h.path q hq
  have hlen := h.waiting_eq q hq
  obtain ⟨a, l, hl⟩ := List.exists_cons_of_length_pos (l := chain q) (by omega)
  rw [hl] at hpath
  obtain ⟨hhead, hrest⟩ := hpath
  rw [← hhead] at hl hrest
  exact ⟨l, hl, hrest⟩

theorem endsIn (h : MsInv d tr s chain) : EndsIn d s.store chain where
  tail := h.tail_mem
  head q hq := by
    obtain ⟨l, hl, -⟩ := h.chain_eq hq
    rw [hl]
    exact List.mem_cons_self

/-- **The node at the head is not the only one** while a session is to dequeue. -/
theorem next_ne_zero (h : MsInv d tr s chain) (hg : g < d.globalSessionNum)
    (howned : (s.session g).info.owned = none) :
    s.store.next d (s.store.head d (s.session g).info.queueId).nextKeyId ≠ 0 := by
  have hq := h.queue_lt g hg
  have hpos : 0 < s.waiting d (s.session g).info.queueId :=
    List.countP_pos_iff.mpr ⟨g, List.mem_range.mpr hg, by simp [howned]⟩
  have hlen := h.waiting_eq _ hq
  obtain ⟨l, hl, hpath⟩ := h.chain_eq hq
  rw [hl, List.length_cons] at hlen
  obtain ⟨b, l', hl'⟩ := List.exists_cons_of_length_pos (l := l) (by omega)
  rw [hl'] at hpath
  obtain ⟨hnext, -⟩ := hpath
  rw [hnext]
  exact isMsNode_ne_zero (h.node_of_mem hq (by
    rw [hl, hl']
    exact List.mem_cons_of_mem _ List.mem_cons_self))

/-- The sessions that wait, after one session has changed. -/
theorem waiting_update (s : MsSys) (hg : g < d.globalSessionNum) (store : MsStore)
    (shared : Nat → BenchClient) (x : MsSession) (q : Nat) :
    MsSys.waiting d ⟨store, shared, Function.update s.session g x⟩ q
        + (if ((s.session g).info.queueId == q && (s.session g).info.owned.isNone) = true then 1
          else 0)
      = s.waiting d q + (if (x.info.queueId == q && x.info.owned.isNone) = true then 1 else 0) :=
  countP_update (fun x : MsSession => x.info.queueId == q && x.info.owned.isNone) s.session hg x

/-- **A step of session `g`**: what is left to say is where that leaves the session and the queues,
    and that the others do not notice. -/
theorem update (h : MsInv d tr s chain) (hg : g < d.globalSessionNum) {turn : Turn} {e : MsEvent}
    {store : MsStore} {shared : Nat → BenchClient} {x : MsSession} {chain' : Nat → List Nat}
    (hframe : ∀ g', g' < d.globalSessionNum → g' ≠ g →
      MsFrame d s.store store chain chain' (s.session g').info.owned)
    (hpoint : MsPoint d store (chain' x.info.queueId) x) (hqueue : x.info.queueId < d.msQueuesNum)
    (hkeyPtr : x.info.ownedKeyPtr = d.msGetNodePtrKeyId x.info.ownedKey)
    (hlastReq : x.info.state ≠ .init → x.info.state ≠ .loopStart →
      x.info.lastReqId = u32 (x.issued - x.info.lag))
    (hphases : MsPhases d ⟨store, shared, Function.update s.session g x⟩)
    (hcntr : ∀ c, 0 < d.msQueuesNum → (shared c).queueIdCntr < d.msQueuesNum)
    (hinit : store.initDone = s.store.initDone)
    (hpath : ∀ q, q < d.msQueuesNum → Path (store.next d) (store.head d q).nextKeyId (chain' q) 0)
    (hnodup : ∀ q, q < d.msQueuesNum → (chain' q).Nodup)
    (htail : ∀ q, q < d.msQueuesNum → (store.tail q).nextKeyId ∈ chain' q)
    (hwaits : ∀ q, q < d.msQueuesNum → (chain' q).length
        + (if ((s.session g).info.queueId == q && (s.session g).info.owned.isNone) = true then 1
          else 0)
      = (chain q).length + (if (x.info.queueId == q && x.info.owned.isNone) = true then 1 else 0))
    (horder : ∀ q, q < d.msQueuesNum →
      d.dummyKey q :: entered (tr ++ [(turn, e)]) q = left (tr ++ [(turn, e)]) q ++ chain' q)
    (hplaced : Placed d.isMsNode (holdsNode d.globalSessionNum d.msQueuesNum
      (fun g' => (Function.update s.session g x g').info.owned) chain'))
    (hbound : ∀ key, (store.ptr key).counter ≤ Service.served (tr ++ [(turn, e)]) + 1) :
    MsInv d (tr ++ [(turn, e)]) ⟨store, shared, Function.update s.session g x⟩ chain' := by
  constructor
  case point =>
    intro g' hg'
    show MsPoint d store (chain' (Function.update s.session g x g').info.queueId)
      (Function.update s.session g x g')
    by_cases hne : g' = g
    · rw [hne, Function.update_self]
      exact hpoint
    · rw [Function.update_of_ne hne]
      exact (hframe g' hg' hne).point h.endsIn (h.queue_lt g' hg') (h.point g' hg')
  case queue_lt =>
    intro g' hg'
    show (Function.update s.session g x g').info.queueId < _
    by_cases hne : g' = g
    · rw [hne, Function.update_self]
      exact hqueue
    · rw [Function.update_of_ne hne]
      exact h.queue_lt g' hg'
  case keyPtr =>
    intro g' hg'
    show (Function.update s.session g x g').info.ownedKeyPtr
      = d.msGetNodePtrKeyId (Function.update s.session g x g').info.ownedKey
    by_cases hne : g' = g
    · rw [hne, Function.update_self]
      exact hkeyPtr
    · rw [Function.update_of_ne hne]
      exact h.keyPtr g' hg'
  case lastReq =>
    intro g' hg'
    show (Function.update s.session g x g').info.state ≠ _ → _
    by_cases hne : g' = g
    · subst hne
      simp only [Function.update_self]
      exact hlastReq
    · simp only [Function.update_of_ne hne]
      exact h.lastReq g' hg'
  case outside =>
    intro g' hg'
    show (Function.update s.session g x g').queue = [] ∧ (Function.update s.session g x g').issued = 0
    rw [Function.update_of_ne (by omega)]
    exact h.outside g' hg'
  case phases => exact hphases
  case cntr_lt => exact hcntr
  case initDone => exact hinit.trans h.initDone
  case path => exact hpath
  case nodup => exact hnodup
  case tail_mem => exact htail
  case waiting_eq =>
    intro q hq
    have hcounts := waiting_update s hg store shared x q
    have hold := h.waiting_eq q hq
    have hnew := hwaits q hq
    omega
  case order => exact horder
  case placed => exact hplaced
  case bound => exact hbound

/-- **A step that moves no node.** -/
theorem keep (h : MsInv d tr s chain) (hg : g < d.globalSessionNum) {turn : Turn} {e : MsEvent}
    (he : e = .moved ∨ e = .served) {store : MsStore} {shared : Nat → BenchClient} {x : MsSession}
    (hframe : ∀ g', g' < d.globalSessionNum → g' ≠ g →
      MsFrame d s.store store chain chain (s.session g').info.owned)
    (hpoint : MsPoint d store (chain x.info.queueId) x) (hqueue : x.info.queueId < d.msQueuesNum)
    (hkeyPtr : x.info.ownedKeyPtr = d.msGetNodePtrKeyId x.info.ownedKey)
    (hlastReq : x.info.state ≠ .init → x.info.state ≠ .loopStart →
      x.info.lastReqId = u32 (x.issued - x.info.lag))
    (hphases : MsPhases d ⟨store, shared, Function.update s.session g x⟩)
    (hcntr : ∀ c, 0 < d.msQueuesNum → (shared c).queueIdCntr < d.msQueuesNum)
    (hinit : store.initDone = s.store.initDone)
    (howned : x.info.owned = (s.session g).info.owned)
    (hsame : x.info.owned = none → x.info.queueId = (s.session g).info.queueId)
    (hpath : ∀ q, q < d.msQueuesNum → Path (store.next d) (store.head d q).nextKeyId (chain q) 0)
    (htail : ∀ q, q < d.msQueuesNum → (store.tail q).nextKeyId ∈ chain q)
    (hbound : ∀ key, (store.ptr key).counter ≤ Service.served (tr ++ [(turn, e)]) + 1) :
    MsInv d (tr ++ [(turn, e)]) ⟨store, shared, Function.update s.session g x⟩ chain := by
  refine h.update hg hframe hpoint hqueue hkeyPtr hlastReq hphases hcntr hinit hpath
    h.nodup htail (fun q _ => ?_) (fun q hq => ?_) ?_ hbound
  · rw [howned]
    cases hx : (s.session g).info.owned with
    | none => rw [hsame (howned.trans hx)]
    | some k => simp only [Option.isNone_some, Bool.and_false]
  · have hentered : entered (tr ++ [(turn, e)]) q = entered tr q := by
      rw [entered, List.filterMap_append]
      rcases he with rfl | rfl <;> exact List.append_nil _
    have hleft : left (tr ++ [(turn, e)]) q = left tr q := by
      rw [left, List.filterMap_append]
      rcases he with rfl | rfl <;> exact List.append_nil _
    rw [hentered, hleft]
    exact h.order q hq
  · refine h.placed.congr fun p k => ?_
    cases p with
    | linked q => exact Iff.rfl
    | session g' =>
      show (_ ∧ (Function.update s.session g x g').info.owned = some k) ↔ (_ ∧ _)
      by_cases hne : g' = g
      · rw [hne, Function.update_self, howned]
      · rw [Function.update_of_ne hne]

/-- The counters after a step that swaps no pointer. -/
theorem bound_later (h : MsInv d tr s chain) (turn : Turn) (e : MsEvent) (key : Nat) :
    (s.store.ptr key).counter ≤ Service.served (tr ++ [(turn, e)]) + 1 := by
  refine Nat.le_trans (h.bound key) ?_
  rw [Service.served, Service.served, List.countP_append]
  omega

/-- **A step that writes no pointer.** -/
theorem quiet (h : MsInv d tr s chain) (hg : g < d.globalSessionNum) {turn : Turn} {e : MsEvent}
    (he : e = .moved ∨ e = .served) {store : MsStore} {shared : Nat → BenchClient} {x : MsSession}
    (hptr : store.ptr = s.store.ptr)
    (hpoint : MsPoint d s.store (chain x.info.queueId) x) (hqueue : x.info.queueId < d.msQueuesNum)
    (hkeyPtr : x.info.ownedKeyPtr = d.msGetNodePtrKeyId x.info.ownedKey)
    (hlastReq : x.info.state ≠ .init → x.info.state ≠ .loopStart →
      x.info.lastReqId = u32 (x.issued - x.info.lag))
    (hphases : MsPhases d ⟨store, shared, Function.update s.session g x⟩)
    (hcntr : ∀ c, 0 < d.msQueuesNum → (shared c).queueIdCntr < d.msQueuesNum)
    (hinit : store.initDone = s.store.initDone)
    (howned : x.info.owned = (s.session g).info.owned)
    (hsame : x.info.owned = none → x.info.queueId = (s.session g).info.queueId) :
    MsInv d (tr ++ [(turn, e)]) ⟨store, shared, Function.update s.session g x⟩ chain := by
  have hlink : store.link d = s.store.link d := by
    unfold MsStore.link
    rw [hptr]
  have hnext : store.next d = s.store.next d := by
    unfold MsStore.next
    rw [hlink]
  have hhead : store.head d = s.store.head d := by
    unfold MsStore.head
    rw [hptr]
  have htail : store.tail = s.store.tail := by
    unfold MsStore.tail
    rw [hptr]
  refine h.keep hg he (fun _ _ _ => .same hptr _) ?_ hqueue hkeyPtr hlastReq hphases hcntr
    hinit howned hsame (fun q hq => ?_) (fun q hq => ?_) fun key => ?_
  · exact (MsFrame.same hptr _).point h.endsIn hqueue hpoint
  · rw [hnext, hhead]
    exact h.path q hq
  · rw [htail]
    exact h.tail_mem q hq
  · rw [hptr]
    exact h.bound_later turn e key

/-! ### The owner of a node writes its pointer -/

theorem owner_ne (h : MsInv d tr s chain) (hg : g < d.globalSessionNum)
    (howned : (s.session g).info.owned = some k) {g' k' : Nat} (hg' : g' < d.globalSessionNum)
    (hne : g' ≠ g) (htheirs : (s.session g').info.owned = some k') : k' ≠ k := by
  rintro rfl
  have hmine : holdsNode d.globalSessionNum d.msQueuesNum (fun g => (s.session g).info.owned) chain
    (.session g) k' := ⟨hg, howned⟩
  have hother : holdsNode d.globalSessionNum d.msQueuesNum (fun g => (s.session g).info.owned) chain
    (.session g') k' := ⟨hg', htheirs⟩
  cases h.placed.once hmine hother
  exact hne rfl

theorem owned_not_linked (h : MsInv d tr s chain) (hg : g < d.globalSessionNum)
    (howned : (s.session g).info.owned = some k) (hq : q < d.msQueuesNum) : k ∉ chain q :=
  holdsNode.not_linked h.placed hg
    (show (fun g => (s.session g).info.owned) g = some k from howned) hq

theorem link_write_owned (h : MsInv d tr s chain) (hf : MsFits d) (hg : g < d.globalSessionNum)
    (howned : (s.session g).info.owned = some k) (ptr : MsPtr) (hq : q < d.msQueuesNum)
    {k' : Nat} (hk' : k' ∈ chain q) :
    (s.store.write (d.msGetNodePtrKeyId k) ptr).link d k' = s.store.link d k' := by
  rw [MsStore.write_link hf (h.node_of_owned hg howned) (h.node_of_mem hq hk'), if_neg]
  rintro rfl
  exact h.owned_not_linked hg howned hq hk'

/-- **The owner of a node writes its pointer**: nobody else looks at it. -/
theorem write_owned (h : MsInv d tr s chain) (hf : MsFits d) (hg : g < d.globalSessionNum)
    (howned : (s.session g).info.owned = some k) {ptr : MsPtr}
    (hcounter : (s.store.link d k).counter = ptr.counter) {owned : Option Nat}
    (hother : ∀ k', owned = some k' → d.isMsNode k' ∧ k' ≠ k) :
    MsFrame d s.store (s.store.write (d.msGetNodePtrKeyId k) ptr) chain chain owned := by
  have hk := h.node_of_owned hg howned
  constructor
  · exact MsStore.counter_write (Nat.le_of_eq hcounter)
  · intro q hq
    rw [MsStore.write_link_tail hf hk hq]
    exact .refl _
  · intro q hq
    rw [MsStore.write_link_head hf hk hq]
    exact .refl _
  · exact fun q k' hq hk' _ => h.link_write_owned hf hg howned ptr hq hk'
  · exact fun q k' hq hk' _ => Or.inl ⟨h.link_write_owned hf hg howned ptr hq hk', hk'⟩
  · intro k' hk'
    obtain ⟨hnode, hne⟩ := hother k' hk'
    rw [MsStore.write_link hf hk hnode, if_neg hne]
  · intro q hq _ hne
    rw [MsStore.write_link_tail hf hk hq]
    exact hne

/-! ### The tail is swapped -/

/-- **A tail that is swapped** to the next node stays in its queue. -/
theorem swap_tail (h : MsInv d tr s chain) (hf : MsFits d) (hq : q < d.msQueuesNum) {ptr : MsPtr}
    (hcounter : (s.store.tail q).counter < ptr.counter)
    (hnext : s.store.next d (s.store.tail q).nextKeyId = ptr.nextKeyId) (hne : ptr.nextKeyId ≠ 0)
    (owned : Option Nat) (howned : ∀ k, owned = some k → d.isMsNode k) :
    MsFrame d s.store (s.store.write q ptr) chain chain owned ∧ ptr.nextKeyId ∈ chain q := by
  obtain ⟨l, hl, -⟩ := h.chain_eq hq
  have hbehind : ptr.nextKeyId ∈ l := by
    have hmem := (h.path q hq).next_mem (h.tail_mem q hq)
    rw [hnext, hl, List.tail_cons] at hmem
    exact hmem.resolve_left hne
  refine ⟨?_, by rw [hl]; exact List.mem_cons_of_mem _ hbehind⟩
  have hlink : ∀ q', q' < d.msQueuesNum → ∀ k ∈ chain q',
      (s.store.write q ptr).link d k = s.store.link d k := fun q' hq' k hk =>
    MsStore.write_tail_link hf hq (h.node_of_mem hq' hk)
  constructor
  · exact MsStore.counter_write (Nat.le_of_lt hcounter)
  · intro q' _
    rw [MsStore.write_tail]
    split
    · rename_i heq
      rw [heq]
      exact Or.inr hcounter
    · exact .refl _
  · intro q' hq'
    rw [MsStore.write_tail_head hf hq hq']
    exact .refl _
  · exact fun q' k hq' hk _ => hlink q' hq' k hk
  · exact fun q' k hq' hk _ => Or.inl ⟨hlink q' hq' k hk, hk⟩
  · exact fun k hk => MsStore.write_tail_link hf hq (howned k hk)
  · intro q' hq' _ hapart
    rw [MsStore.write_tail]
    split
    · rename_i heq
      have hnodup := h.nodup q hq
      rw [hl] at hnodup
      rw [heq]
      intro hc
      rw [hc] at hbehind
      exact (List.nodup_cons.mp hnodup).1 hbehind
    · exact hapart

/-! ### A node enters a queue -/

theorem entered_append (tr : MsTrace) (turn : Turn) (q k q' : Nat) :
    entered (tr ++ [(turn, .enqueued q k)]) q' = entered tr q' ++ if q = q' then [k] else [] := by
  rw [entered, List.filterMap_append]
  by_cases hq : q = q'
  · simp only [hq, List.filterMap_cons, if_true, List.filterMap_nil]
    rfl
  · simp only [hq, List.filterMap_cons, if_false, List.filterMap_nil]
    rfl

theorem left_append (tr : MsTrace) (turn : Turn) (q k q' : Nat) :
    left (tr ++ [(turn, .dequeued q k)]) q' = left tr q' ++ if q = q' then [k] else [] := by
  rw [left, List.filterMap_append]
  by_cases hq : q = q'
  · simp only [hq, List.filterMap_cons, if_true, List.filterMap_nil]
    rfl
  · simp only [hq, List.filterMap_cons, if_false, List.filterMap_nil]
    rfl

/-- **A compare-and-swap of the pointer of the last node** that succeeds. -/
theorem enqueue (h : MsInv d tr s chain) (hf : MsFits d) (hg : g < d.globalSessionNum)
    {spurious : Bool} {ptr : MsPtr} {info : MsSessInfo} {k : Nat}
    (hinfo : info = { (s.session g).info with success := true })
    (hat : (s.session g).info.At .enqueuing .potentialSuccess false)
    (hptr : ptr.Counts (s.session g).info.lastOrFirstNodeMsPtr (s.session g).info.ownedKey)
    (hwritten : s.store.next d (s.session g).info.ownedKey = 0)
    (htail : (s.session g).info.tail.Later (s.store.tail (s.session g).info.queueId))
    (hnext : (s.session g).info.lastOrFirstNodeMsPtr.nextKeyId = 0)
    (hstill : s.store.link d k = (s.session g).info.lastOrFirstNodeMsPtr)
    (hk : k = (s.session g).info.tail.nextKeyId) (hmem : k ∈ chain (s.session g).info.queueId)
    (hfew : Service.served tr + 2 < 2 ^ 64) :
    ∃ chain', MsInv d (tr ++ [(.store g spurious,
        .enqueued (s.session g).info.queueId (s.session g).info.ownedKey)])
      ⟨s.store.write (d.msGetNodePtrKeyId k) ptr, s.shared,
        Function.update s.session g ⟨info, [], (s.session g).issued⟩⟩ chain' := by
  have hq := h.queue_lt g hg
  have howned : (s.session g).info.owned = some (s.session g).info.ownedKey := by
    rw [MsSessInfo.owned, hat.enqOrDeq, hat.success]
    rfl
  have hnone : info.owned = none := by
    rw [hinfo, MsSessInfo.owned]
    simp only [hat.enqOrDeq]
    rfl
  have hqueue : info.queueId = (s.session g).info.queueId := by
    rw [hinfo]
  have hown := h.node_of_owned hg howned
  have hnode := h.node_of_mem hq hmem
  have hnotin := fun {q'} (hq' : q' < d.msQueuesNum) => h.owned_not_linked hg howned hq'
  generalize hkey : (s.session g).info.ownedKey = own at hptr hwritten howned hown hnotin
  generalize hqid : (s.session g).info.queueId = q at htail hmem hq hqueue
  have hne : own ≠ k := by
    rintro rfl
    exact hnotin hq hmem
  have hlast : s.store.next d k = 0 := by
    rw [MsStore.next, hstill, hnext]
  have hcount : ptr.counter = (s.store.link d k).counter + 1 := by
    have hle := h.bound (d.msGetNodePtrKeyId k)
    change (s.store.link d k).counter ≤ _ at hle
    rw [hptr.counter, ← hstill, u64_of_lt (by omega)]
  have hlink : ∀ k', d.isMsNode k' → k' ≠ k →
      (s.store.write (d.msGetNodePtrKeyId k) ptr).link d k' = s.store.link d k' := by
    intro k' hk' hne'
    rw [MsStore.write_link hf hnode hk', if_neg hne']
  have hswapped : (s.store.write (d.msGetNodePtrKeyId k) ptr).link d k = ptr := by
    rw [MsStore.write_link hf hnode hnode, if_pos rfl]
  have hzero : ∀ q', q' < d.msQueuesNum → 0 ∉ chain q' := fun q' hq' hc =>
    isMsNode_ne_zero (h.node_of_mem hq' hc) rfl
  -- a node with another one behind it is not the last one
  have hkeep : ∀ q' k', q' < d.msQueuesNum → k' ∈ chain q' → s.store.next d k' ≠ 0 →
      (s.store.write (d.msGetNodePtrKeyId k) ptr).link d k' = s.store.link d k' := by
    intro q' k' hq' hk' hne'
    refine hlink k' (h.node_of_mem hq' hk') ?_
    rintro rfl
    exact hne' hlast
  refine ⟨Function.update chain q (chain q ++ [own]), h.update hg ?_ ?_ ?_ ?_ ?_ ?_
    h.cntr_lt rfl ?_ ?_ ?_ ?_ ?_ ?_ ?_⟩
  · intro g' hg' hne'
    constructor
    · exact MsStore.counter_write (by
        change (s.store.link d k).counter ≤ _
        omega)
    · intro q' hq'
      rw [MsStore.write_link_tail hf hnode hq']
      exact .refl _
    · intro q' hq'
      rw [MsStore.write_link_head hf hnode hq']
      exact .refl _
    · exact hkeep
    · intro q' k' hq' hk' _
      by_cases heq : k' = k
      · right
        rw [heq, hswapped]
        omega
      · left
        refine ⟨hlink k' (h.node_of_mem hq' hk') heq, ?_⟩
        by_cases hqq : q' = q
        · rw [hqq, Function.update_self]
          rw [hqq] at hk'
          exact List.mem_append_left _ hk'
        · rw [Function.update_of_ne hqq]
          exact hk'
    · intro k' hk'
      refine hlink k' (h.node_of_owned hg' hk') ?_
      rintro rfl
      exact h.owned_not_linked hg' hk' hq hmem
    · intro q' hq' _ hapart
      rw [MsStore.write_link_tail hf hnode hq']
      exact hapart
  · refine .enqueued ?_ rfl ?_
    · rw [hinfo]
      exact ⟨hat.enqOrDeq, hat.state, rfl⟩
    · rw [hinfo]
      show TailBefore d _ (s.session g).info.queueId (s.session g).info.tail (s.session g).info.ownedKey
      rw [hqid, hkey]
      refine ⟨?_, fun _ => ⟨?_, isMsNode_ne_zero hown⟩⟩
      · rw [MsStore.write_link_tail hf hnode hq]
        exact htail
      · rw [← hk, MsStore.next, hswapped, hptr.next]
  · rw [hqueue]
    exact hq
  · rw [hinfo]
    exact h.keyPtr g hg
  · rw [hinfo]
    exact h.lastReq g hg
  · exact h.phases.running (fun _ => rfl) (h.phases.running_of_state hg hat (by decide))
      fun hc => by cases hc
  · intro q' hq'
    rw [MsStore.write_link_head hf hnode hq']
    by_cases hqq : q' = q
    · rw [hqq, Function.update_self]
      refine (h.path q hq).concat hmem hlast (hzero q hq) (h.nodup q hq) (fun c hc hne' => ?_) ?_ ?_
      · rw [MsStore.next, hlink c (h.node_of_mem hq hc) hne']
        rfl
      · rw [MsStore.next, hswapped, hptr.next]
      · rw [MsStore.next, hlink own hown hne]
        exact hwritten
    · rw [Function.update_of_ne hqq]
      refine (h.path q' hq').congr fun c hc => ?_
      rw [MsStore.next, hlink c (h.node_of_mem hq' hc)]
      · rfl
      · rintro rfl
        have hmine : holdsNode d.globalSessionNum d.msQueuesNum
          (fun g => (s.session g).info.owned) chain (.linked q) c := ⟨hq, hmem⟩
        have hother : holdsNode d.globalSessionNum d.msQueuesNum
          (fun g => (s.session g).info.owned) chain (.linked q') c := ⟨hq', hc⟩
        cases h.placed.once hmine hother
        exact hqq rfl
  · intro q' hq'
    by_cases hqq : q' = q
    · rw [hqq, Function.update_self]
      refine List.nodup_append.mpr ⟨h.nodup q hq, List.nodup_singleton _, ?_⟩
      intro a ha b hb hab
      rw [List.mem_singleton.mp hb] at hab
      exact hnotin hq (hab ▸ ha)
    · rw [Function.update_of_ne hqq]
      exact h.nodup q' hq'
  · intro q' hq'
    rw [MsStore.write_link_tail hf hnode hq']
    by_cases hqq : q' = q
    · rw [hqq, Function.update_self]
      exact List.mem_append_left _ (h.tail_mem q hq)
    · rw [Function.update_of_ne hqq]
      exact h.tail_mem q' hq'
  · intro q' hq'
    rw [howned, hnone, hqueue]
    by_cases hqq : q' = q
    · rw [hqq, Function.update_self, List.length_append]
      simp only [hqid, Option.isNone_some, Bool.and_false, Option.isNone_none, Bool.and_true,
        beq_self_eq_true, List.length_singleton]
      rfl
    · rw [Function.update_of_ne hqq]
      have hother : (q == q') = false := by
        rw [beq_eq_false_iff_ne]
        exact fun hc => hqq hc.symm
      simp only [hother, Bool.false_and, Option.isNone_some, Bool.and_false]
  · intro q' hq'
    rw [entered_append]
    have hleft : left (tr ++ [(.store g spurious, .enqueued q own)]) q' = left tr q' := by
      rw [left, List.filterMap_append]
      exact List.append_nil _
    rw [hleft]
    by_cases hqq : q' = q
    · rw [hqq, if_pos rfl, Function.update_self, ← List.append_assoc, ← h.order q hq]
      rfl
    · rw [if_neg (fun hc => hqq hc.symm), Function.update_of_ne hqq, List.append_nil]
      exact h.order q' hq'
  · refine holdsNode.link h.placed hg hq howned ?_ ?_ fun k' => ?_
    · simp only [Function.update_self]
      exact hnone
    · intro g' hne'
      simp only [Function.update_of_ne hne']
    · rw [List.mem_append, List.mem_singleton]
      exact Or.comm
  · have hserved : Service.served (tr ++ [(.store g spurious, MsEvent.enqueued q own)])
        = Service.served tr + 1 := by
      rw [Service.served, List.countP_append]
      rfl
    rw [hserved]
    have hle := h.bound (d.msGetNodePtrKeyId k)
    change (s.store.link d k).counter ≤ _ at hle
    exact MsStore.write_counter_le (fun key => Nat.le_succ_of_le (h.bound key)) (by omega)

/-! ### A node leaves a queue -/

/-- **A compare-and-swap of a head** that succeeds. -/
theorem dequeue (h : MsInv d tr s chain) (hf : MsFits d) (hg : g < d.globalSessionNum)
    {spurious : Bool} {ptr : MsPtr} {info : MsSessInfo}
    (hinfo : info = { (s.session g).info with success := true })
    (hat : (s.session g).info.At .dequeuing .potentialSuccess false)
    (hptr : ptr.Counts (s.session g).info.head (s.session g).info.ownedNodePtr.nextKeyId)
    (hends : EndsRead d s.store (s.session g).info) (hfirst : FirstRead d s.store (s.session g).info)
    (hapart : (s.session g).info.tail.nextKeyId ≠ (s.session g).info.head.nextKeyId)
    (hstill : s.store.head d (s.session g).info.queueId = (s.session g).info.head)
    (hfew : Service.served tr + 2 < 2 ^ 64) :
    ∃ chain', MsInv d (tr ++ [(.store g spurious,
        .dequeued (s.session g).info.queueId (s.session g).info.head.nextKeyId)])
      ⟨s.store.write (d.headKey (s.session g).info.queueId) ptr, s.shared,
        Function.update s.session g ⟨info, [], (s.session g).issued⟩⟩ chain' := by
  have hq := h.queue_lt g hg
  have hnone : (s.session g).info.owned = none := by
    rw [MsSessInfo.owned, hat.enqOrDeq, hat.success]
    rfl
  have howned : info.owned = some (s.session g).info.head.nextKeyId := by
    rw [hinfo, MsSessInfo.owned]
    simp only [hat.enqOrDeq]
    rfl
  have hqueue : info.queueId = (s.session g).info.queueId := by
    rw [hinfo]
  obtain ⟨hlink, hnext⟩ := hfirst hstill
  have htail := hends.apart hstill hapart
  generalize hqid : (s.session g).info.queueId = q at hstill hq hqueue htail
  obtain ⟨l, hl, hpath⟩ := h.chain_eq hq
  rw [hstill] at hl hpath
  generalize hkey : (s.session g).info.head.nextKeyId = first at hlink howned hl hpath htail
  have hin : first ∈ chain q := by
    rw [hl]
    exact List.mem_cons_self
  have hnode := h.node_of_mem hq hin
  have hnodup := h.nodup q hq
  rw [hl] at hnodup
  obtain ⟨hnotin, hnodup⟩ := List.nodup_cons.mp hnodup
  have hcount : ptr.counter = (s.store.head d q).counter + 1 := by
    have hle := h.bound (d.headKey q)
    change (s.store.head d q).counter ≤ _ at hle
    rw [hptr.counter, ← hstill, u64_of_lt (by omega)]
  have hlinks : ∀ k, d.isMsNode k →
      (s.store.write (d.headKey q) ptr).link d k = s.store.link d k :=
    fun k hk => MsStore.write_head_link hf hq hk
  have hswapped : (s.store.write (d.headKey q) ptr).head d q = ptr := by
    rw [MsStore.write_head hf hq hq, if_pos rfl]
  -- the first node has another one behind it
  have hsecond : s.store.next d first ≠ 0 := by
    rw [MsStore.next, hlink]
    exact hnext
  refine ⟨Function.update chain q l, h.update hg ?_ ?_ ?_ ?_ ?_ ?_
    h.cntr_lt rfl ?_ ?_ ?_ ?_ ?_ ?_ ?_⟩
  · intro g' hg' _
    constructor
    · exact MsStore.counter_write (by
        change (s.store.head d q).counter ≤ _
        omega)
    · intro q' hq'
      rw [MsStore.write_head_tail hf hq hq']
      exact .refl _
    · intro q' hq'
      rw [MsStore.write_head hf hq hq']
      split
      · rename_i heq
        rw [heq]
        exact Or.inr (by omega)
      · exact .refl _
    · exact fun q' k hq' hk _ => hlinks k (h.node_of_mem hq' hk)
    · intro q' k hq' hk hlast
      refine Or.inl ⟨hlinks k (h.node_of_mem hq' hk), ?_⟩
      by_cases hqq : q' = q
      · rw [hqq, Function.update_self]
        rw [hqq, hl] at hk
        rcases List.mem_cons.mp hk with rfl | hk
        · exact absurd hlast hsecond
        · exact hk
      · rw [Function.update_of_ne hqq]
        exact hk
    · exact fun k hk => hlinks k (h.node_of_owned hg' hk)
    · intro q' hq' hsame hne
      rw [MsStore.write_head_tail hf hq hq']
      exact hne
  · refine .dequeued ?_ rfl ?_
    · rw [hinfo]
      exact ⟨hat.enqOrDeq, hat.state, rfl⟩
    · rw [hinfo]
      show (MsStore.link d _ (s.session g).info.head.nextKeyId).counter = _
      rw [hkey, hlinks first hnode, hlink]
  · rw [hqueue]
    exact hq
  · rw [hinfo]
    exact h.keyPtr g hg
  · rw [hinfo]
    exact h.lastReq g hg
  · exact h.phases.running (fun _ => rfl) (h.phases.running_of_state hg hat (by decide))
      fun hc => by cases hc
  · intro q' hq'
    have hsame : ∀ k ∈ chain q',
        (s.store.write (d.headKey q) ptr).next d k = s.store.next d k := fun k hk => by
      rw [MsStore.next, hlinks k (h.node_of_mem hq' hk)]
      rfl
    rw [MsStore.write_head hf hq hq']
    by_cases hqq : q' = q
    · rw [if_pos hqq, hqq, Function.update_self, hptr.next, ← hlink]
      refine Path.congr hpath fun k hk => hsame k ?_
      rw [hqq, hl]
      exact List.mem_cons_of_mem _ hk
    · rw [if_neg hqq, Function.update_of_ne hqq]
      exact (h.path q' hq').congr hsame
  · intro q' hq'
    by_cases hqq : q' = q
    · rw [hqq, Function.update_self]
      exact hnodup
    · rw [Function.update_of_ne hqq]
      exact h.nodup q' hq'
  · intro q' hq'
    rw [MsStore.write_head_tail hf hq hq']
    by_cases hqq : q' = q
    · rw [hqq, Function.update_self]
      have hmem := h.tail_mem q hq
      rw [hl] at hmem
      exact (List.mem_cons.mp hmem).resolve_left htail
    · rw [Function.update_of_ne hqq]
      exact h.tail_mem q' hq'
  · intro q' hq'
    rw [howned, hnone, hqueue]
    by_cases hqq : q' = q
    · rw [hqq, Function.update_self, hl, List.length_cons]
      simp only [hqid, Option.isNone_some, Bool.and_false, Option.isNone_none, Bool.and_true,
        beq_self_eq_true]
      rfl
    · rw [Function.update_of_ne hqq]
      have hother : (q == q') = false := by
        rw [beq_eq_false_iff_ne]
        exact fun hc => hqq hc.symm
      simp only [hqid, hother, Bool.false_and, Option.isNone_some, Bool.and_false]
  · intro q' hq'
    rw [left_append]
    have hentered : entered (tr ++ [(.store g spurious, .dequeued q first)]) q' = entered tr q' := by
      rw [entered, List.filterMap_append]
      exact List.append_nil _
    rw [hentered, h.order q' hq']
    by_cases hqq : q' = q
    · rw [hqq, if_pos rfl, Function.update_self, hl, List.append_assoc]
      rfl
    · rw [if_neg (fun hc => hqq hc.symm), Function.update_of_ne hqq, List.append_nil]
  · refine holdsNode.unlink h.placed hg hq ?_ hnone ?_ (fun k' => ?_) hnotin
    · simp only [Function.update_self]
      exact howned
    · intro g' hne'
      simp only [Function.update_of_ne hne']
    · rw [hl, List.mem_cons]
  · have hserved : Service.served (tr ++ [(.store g spurious, MsEvent.dequeued q first)])
        = Service.served tr + 1 := by
      rw [Service.served, List.countP_append]
      rfl
    rw [hserved]
    have hle := h.bound (d.headKey q)
    change (s.store.head d q).counter ≤ _ at hle
    exact MsStore.write_counter_le (fun key => Nat.le_succ_of_le (h.bound key)) (by omega)

/-! ### The store executes a request -/

/-- A request that writes no pointer in the store. -/
theorem served (h : MsInv d tr s chain) (hg : g < d.globalSessionNum) {spurious : Bool}
    {store : MsStore} {info : MsSessInfo} {queue : List MsReq}
    (hptr : store.ptr = s.store.ptr) (hinit : store.initDone = s.store.initDone)
    (hrunning : (s.shared (d.clientOf g)).phase = .running)
    (hsame : info.Same (s.session g).info) (howned : info.owned = (s.session g).info.owned)
    (hask : queue ≠ [.readFlag])
    (hpoint : MsPoint d s.store (chain (s.session g).info.queueId) ⟨info, queue, (s.session g).issued⟩) :
    MsInv d (tr ++ [(.store g spurious, .served)])
      ⟨store, s.shared, Function.update s.session g ⟨info, queue, (s.session g).issued⟩⟩ chain := by
  refine h.quiet hg (Or.inr rfl) hptr ?_ ?_ ?_ ?_ (h.phases.running (fun _ => rfl) hrunning hask)
    h.cntr_lt hinit howned fun _ => hsame.queueId
  · show MsPoint d s.store (chain info.queueId) _
    rw [hsame.queueId]
    exact hpoint
  · show info.queueId < _
    rw [hsame.queueId]
    exact h.queue_lt g hg
  · show info.ownedKeyPtr = d.msGetNodePtrKeyId info.ownedKey
    rw [hsame.ownedKeyPtr, hsame.ownedKey]
    exact h.keyPtr g hg
  · show info.state ≠ _ → info.state ≠ _ → info.lastReqId = u32 ((s.session g).issued - info.lag)
    rw [hsame.lag, hsame.state, hsame.lastReqId]
    exact h.lastReq g hg

/-- What a compare-and-swap does. -/
theorem msServe_cas {spurious : Bool} {store store' : MsStore} {info info' : MsSessInfo}
    {key : Nat} {swap : MsSwap} {ptr : MsPtr} {e : MsEvent}
    (h : msServe spurious store info (.cas key swap ptr) = (store', info', e)) :
    (store.ptr key = info.expected swap ∧ store' = store.write key ptr ∧
      info' = info.swapped (info.expected swap) true swap ∧ e = info.swapEvent ptr swap) ∨
    (store' = store ∧ info' = info.swapped (store.ptr key) false swap ∧ e = .served) := by
  unfold msServe at h
  dsimp only at h
  split at h
  · rename_i hcas
    cases h
    exact Or.inl ⟨hcas.1, rfl, rfl, rfl⟩
  · cases h
    exact Or.inr ⟨rfl, rfl, rfl⟩

/-- A swap of the tail, which may succeed or not: what comes after it does not depend on that. -/
theorem tail_served (h : MsInv d tr s chain) (hf : MsFits d) (hg : g < d.globalSessionNum)
    {spurious : Bool} {ptr : MsPtr} {n : Nat} {queue : List MsReq} {store : MsStore}
    {info : MsSessInfo} {e : MsEvent} (hfew : Service.served tr + 2 < 2 ^ 64)
    (hrunning : (s.shared (d.clientOf g)).phase = .running)
    (hsuccess : (s.session g).info.success = false) (hptr : ptr.Counts (s.session g).info.tail n)
    (hbefore : TailBefore d s.store (s.session g).info.queueId (s.session g).info.tail n)
    (hserve : msServe spurious s.store (s.session g).info
      (.cas (s.session g).info.queueId .tail ptr) = (store, info, e))
    (hask : queue ≠ [.readFlag])
    (hpoint : ∀ {store : MsStore} {info : MsSessInfo}, info.Same (s.session g).info →
      info.success = false →
      (∀ k, (s.session g).info.owned = some k → store.link d k = s.store.link d k) →
      MsPoint d store (chain (s.session g).info.queueId) ⟨info, queue, (s.session g).issued⟩) :
    MsInv d (tr ++ [(.store g spurious, e)])
      ⟨store, s.shared, Function.update s.session g ⟨info, queue, (s.session g).issued⟩⟩ chain := by
  have hq := h.queue_lt g hg
  have hsame : ∀ (old : MsPtr) (result : Bool),
      ((s.session g).info.swapped old result .tail).Same (s.session g).info :=
    fun _ _ => ⟨rfl, rfl, rfl, rfl, rfl, rfl⟩
  have howned : ∀ (old : MsPtr) (result : Bool),
      ((s.session g).info.swapped old result .tail).owned = (s.session g).info.owned := fun _ _ => rfl
  rcases msServe_cas hserve with ⟨hcas, rfl, rfl, rfl⟩ | ⟨rfl, rfl, rfl⟩
  · have hstill : s.store.tail (s.session g).info.queueId = (s.session g).info.tail := hcas
    obtain ⟨hnext, hne⟩ := hbefore.next hstill
    have hle := h.bound (s.session g).info.queueId
    have hcount : ptr.counter = (s.store.ptr (s.session g).info.queueId).counter + 1 := by
      change _ = (s.session g).info.tail at hcas
      rw [hptr.counter, hcas, u64_of_lt]
      rw [← hcas]
      omega
    have hlt : (s.store.tail (s.session g).info.queueId).counter < ptr.counter := by
      rw [hcount]
      exact Nat.lt_succ_self _
    rw [← hstill, ← hptr.next] at hnext
    rw [← hptr.next] at hne
    have hframe := h.swap_tail hf hq hlt hnext hne
    have hmine := hframe (s.session g).info.owned fun k hk => h.node_of_owned hg hk
    refine h.keep hg (Or.inr rfl)
      (fun g' hg' _ => (hframe _ fun k hk => h.node_of_owned hg' hk).1)
      (hpoint (hsame _ _) hsuccess hmine.1.owned) hq (h.keyPtr g hg) (h.lastReq g hg)
      (h.phases.running (fun _ => rfl) hrunning hask) h.cntr_lt rfl (howned _ _) (fun _ => rfl) ?_ ?_ ?_
    · intro q' hq'
      show Path (MsStore.next d (s.store.write (s.session g).info.queueId ptr))
        (MsStore.head d (s.store.write (s.session g).info.queueId ptr) q').nextKeyId (chain q') 0
      rw [MsStore.write_tail_head hf hq hq']
      refine (h.path q' hq').congr fun k hk => ?_
      rw [MsStore.next, MsStore.write_tail_link hf hq (h.node_of_mem hq' hk)]
      rfl
    · intro q' hq'
      show (MsStore.tail (s.store.write (s.session g).info.queueId ptr) q').nextKeyId ∈ chain q'
      rw [MsStore.write_tail]
      split
      · rename_i heq
        rw [heq]
        exact hmine.2
      · exact h.tail_mem q' hq'
    · have hserved : Service.served (tr ++ [(.store g spurious, MsEvent.served)])
          = Service.served tr + 1 := by
        rw [Service.served, List.countP_append]
        rfl
      intro key
      show ((s.store.write (s.session g).info.queueId ptr).ptr key).counter
        ≤ Service.served (tr ++ [(.store g spurious, MsEvent.served)]) + 1
      rw [hserved]
      exact MsStore.write_counter_le (fun key => Nat.le_succ_of_le (h.bound key)) (by omega) key
  · exact h.served hg rfl rfl hrunning (hsame _ _) (howned _ _) hask
      (hpoint (hsame _ _) hsuccess fun _ _ => rfl)

/-- The owner of a node has its pointer written. -/
theorem owned_served (h : MsInv d tr s chain) (hf : MsFits d) (hg : g < d.globalSessionNum)
    {spurious : Bool} {ptr : MsPtr} {queue : List MsReq}
    (hat : (s.session g).info.At .enqueuing .readTail false) (hnext : ptr.nextKeyId = 0)
    (hqueue : queue = [.readPtr (s.session g).info.queueId .tail])
    (hcounter : (s.store.link d (s.session g).info.ownedKey).counter = ptr.counter) :
    MsInv d (tr ++ [(.store g spurious, .served)])
      ⟨s.store.write (s.session g).info.ownedKeyPtr ptr, s.shared,
        Function.update s.session g ⟨(s.session g).info, queue, (s.session g).issued⟩⟩ chain := by
  have howned : (s.session g).info.owned = some (s.session g).info.ownedKey := by
    rw [MsSessInfo.owned, hat.enqOrDeq, hat.success]
    rfl
  have hnode := h.node_of_owned hg howned
  have hrunning := h.phases.running_of_state hg hat (by decide)
  have hask : queue ≠ [.readFlag] := by
    rw [hqueue]
    exact fun hc => by cases hc
  rw [h.keyPtr g hg]
  refine h.keep hg (Or.inr rfl)
    (fun g' hg' hne => h.write_owned hf hg howned hcounter fun k' hk' => ?_) ?_ (h.queue_lt g hg)
    (h.keyPtr g hg) (h.lastReq g hg) (h.phases.running (fun _ => rfl) hrunning hask) h.cntr_lt rfl rfl
    (fun _ => rfl) (fun q hq => ?_) (fun q hq => ?_) fun key => ?_
  · exact ⟨h.node_of_owned hg' hk', h.owner_ne hg howned hg' hne hk'⟩
  · have hwaits : queue = [] ++ [.readPtr (s.session g).info.queueId .tail] := hqueue
    refine .enqReadingTail hat hwaits .none ?_
    rw [MsStore.next, MsStore.write_link hf hnode hnode, if_pos rfl]
    exact hnext
  · rw [MsStore.write_link_head hf hnode hq]
    refine (h.path q hq).congr fun k hk => ?_
    rw [MsStore.next, h.link_write_owned hf hg howned ptr hq hk]
    rfl
  · rw [MsStore.write_link_tail hf hnode hq]
    exact h.tail_mem q hq
  · have hle := h.bound_later (.store g spurious) .served
    refine MsStore.write_counter_le hle ?_ key
    rw [← hcounter]
    exact hle _

/-- **The store executes a request.** -/
theorem serve (h : MsInv d tr s chain) (hf : MsFits d) {spurious : Bool} {r : MsReq}
    {queue : List MsReq} {store : MsStore} {info : MsSessInfo} {e : MsEvent}
    (hfew : Service.served tr + 2 < 2 ^ 64) (hqueue : (s.session g).queue = r :: queue)
    (hserve : msServe spurious s.store (s.session g).info r = (store, info, e)) :
    ∃ chain', MsInv d (tr ++ [(.store g spurious, e)])
      ⟨store, s.shared, Function.update s.session g ⟨info, queue, (s.session g).issued⟩⟩ chain' := by
  have hg : g < d.globalSessionNum := by
    by_contra hc
    rw [(h.outside g (Nat.le_of_not_lt hc)).1] at hqueue
    cases hqueue
  have hq := h.queue_lt g hg
  have hnext : ∀ {l}, (s.session g).queue = l → l = r :: queue := fun hc => hc.symm.trans hqueue
  have hnone : ∀ {state}, (s.session g).info.At .dequeuing state false →
      (s.session g).info.owned = none := by
    intro state hat
    rw [MsSessInfo.owned, hat.enqOrDeq, hat.success]
    rfl
  have hpoint := h.point g hg
  cases hpoint with
  | enqInit hat hwaits => cases hnext hwaits
  | enqTail hat hwaits => cases hnext hwaits
  | enqLast hat hwaits => cases hnext hwaits
  | enqFailed hat hwaits => cases hnext hwaits
  | enqueued hat hwaits => cases hnext hwaits
  | deqEnds hat hwaits => cases hnext hwaits
  | deqFirst hat hwaits => cases hnext hwaits
  | deqFailed hat hwaits => cases hnext hwaits
  | dequeued hat hwaits => cases hnext hwaits
  | enqAsking hat hwaits hcounter =>
    cases hnext hwaits
    cases hserve
    have hat' : MsSessInfo.At { (s.session g).info with initDoneFlag := s.store.initDone }
        .enqueuing .init false := ⟨hat.enqOrDeq, hat.state, hat.success⟩
    exact ⟨chain, h.quiet hg (Or.inr rfl) rfl (.enqInit hat' rfl hcounter) hq (h.keyPtr g hg)
      (h.lastReq g hg) (h.phases.answered hat' rfl) h.cntr_lt rfl rfl fun _ => rfl⟩
  | enqWriting hat hwaits hptr hcounter =>
    cases hnext hwaits
    cases hserve
    exact ⟨chain, h.served hg rfl rfl (h.phases.running_of_state hg hat (by decide))
      ⟨rfl, rfl, rfl, rfl, rfl, rfl⟩ rfl (fun hc => by cases hc)
      (.enqWritingPtr hat rfl hptr hcounter)⟩
  | enqWritingPtr hat hwaits hptr hcounter =>
    cases hnext hwaits
    cases hserve
    exact ⟨chain, h.owned_served hf hg hat hptr rfl hcounter⟩
  | enqLoop hat hswap hwritten =>
    rw [hqueue] at hswap
    cases hswap with
    | swap hptr hbefore =>
      refine ⟨chain, h.tail_served hf hg hfew (h.phases.running_of_state hg hat (by decide))
        hat.success hptr hbefore hserve (fun hc => by cases hc) ?_⟩
      intro store info hsame hsuccess hlink
      exact .enqLoop (hsame.at_point hat hsuccess) .none (hsame.written hat hlink hwritten)
  | enqReadingTail hat hwaits hswap hwritten =>
    have hrunning := h.phases.running_of_state hg hat (by decide)
    cases hswap with
    | none =>
      cases hnext hwaits
      cases hserve
      exact ⟨chain, h.served hg rfl rfl hrunning ⟨rfl, rfl, rfl, rfl, rfl, rfl⟩ rfl
        (fun hc => by cases hc)
        (.enqTail ⟨hat.enqOrDeq, hat.state, hat.success⟩ rfl hwritten (.refl _))⟩
    | swap hptr hbefore =>
      cases hnext hwaits
      refine ⟨chain, h.tail_served hf hg hfew hrunning hat.success hptr hbefore hserve
        (fun hc => by cases hc) ?_⟩
      intro store info hsame hsuccess hlink
      refine .enqReadingTail (hsame.at_point hat hsuccess) ?_ .none (hsame.written hat hlink hwritten)
      show _ = [] ++ [MsReq.readPtr info.queueId .tail]
      rw [hsame.queueId]
      rfl
  | enqReadingLast hat hwaits hwritten htail =>
    cases hnext hwaits
    cases hserve
    refine ⟨chain, h.served hg rfl rfl (h.phases.running_of_state hg hat (by decide))
      ⟨rfl, rfl, rfl, rfl, rfl, rfl⟩ rfl (fun hc => by cases hc)
      (.enqReadingSecond ⟨hat.enqOrDeq, hat.state, hat.success⟩ rfl hwritten htail fun hstill => ?_)⟩
    have hmem := h.tail_mem _ hq
    change s.store.tail (s.session g).info.queueId = (s.session g).info.tail at hstill
    rw [hstill] at hmem
    exact ⟨fun _ => Or.inl ⟨rfl, hmem⟩, fun _ => rfl⟩
  | enqReadingSecond hat hwaits hwritten htail hlast =>
    cases hnext hwaits
    cases hserve
    refine ⟨chain, h.served hg rfl rfl (h.phases.running_of_state hg hat (by decide))
      ⟨rfl, rfl, rfl, rfl, rfl, rfl⟩ rfl (fun hc => by cases hc)
      (.enqLast ⟨hat.enqOrDeq, hat.state, hat.success⟩ rfl hwritten htail fun hsame => ?_)⟩
    -- the tail that was read again is the one of now
    obtain ⟨hzero, hlink⟩ := hlast (htail.eq_of_counter hsame)
    refine ⟨hzero, fun hne => ⟨htail, fun _ => ⟨?_, hne⟩⟩⟩
    show (s.store.link d (s.session g).info.tail.nextKeyId).nextKeyId = _
    rw [hlink hne]
    rfl
  | enqSwapping hat hwaits hptr hwritten htail hzero hlast =>
    cases hnext hwaits
    rcases msServe_cas hserve with ⟨hcas, rfl, rfl, rfl⟩ | ⟨rfl, rfl, rfl⟩
    · rcases hlast with ⟨hlink, hmem⟩ | hlt
      · rw [MsSessInfo.swapEvent, hptr.next]
        exact h.enqueue hf hg rfl hat hptr hwritten htail hzero hlink rfl hmem hfew
      · change s.store.link d _ = (s.session g).info.lastOrFirstNodeMsPtr at hcas
        rw [hcas] at hlt
        exact absurd hlt (Nat.lt_irrefl _)
    · refine ⟨chain, h.served hg rfl rfl (h.phases.running_of_state hg hat (by decide))
        ⟨rfl, rfl, rfl, rfl, rfl, rfl⟩ ?_ (fun hc => by cases hc)
        (.enqFailed ⟨hat.enqOrDeq, hat.state, rfl⟩ rfl hwritten)⟩
      simp only [MsSessInfo.owned, MsSessInfo.swapped, hat.enqOrDeq, hat.success]
  | deqLoop hstate hat hswap =>
    rw [hqueue] at hswap
    cases hswap with
    | swap hptr hbefore =>
      refine ⟨chain, h.tail_served hf hg hfew (h.phases.running_of_state hg hat (by simp))
        hat.success hptr hbefore hserve (fun hc => by cases hc) ?_⟩
      intro store info hsame hsuccess _
      exact .deqLoop hstate (hsame.at_point hat hsuccess) .none
  | deqReadingHead hat hwaits hswap =>
    have hrunning := h.phases.running_of_state hg hat (by decide)
    cases hswap with
    | none =>
      cases hnext hwaits
      cases hserve
      refine ⟨chain, h.served hg rfl rfl hrunning ⟨rfl, rfl, rfl, rfl, rfl, rfl⟩ ?_
        (fun hc => by cases hc)
        (.deqReadingTail ⟨hat.enqOrDeq, hat.state, hat.success⟩ rfl (.refl _))⟩
      simp only [MsSessInfo.owned, MsSessInfo.fill, hat.enqOrDeq, hat.success]
      rfl
    | swap hptr hbefore =>
      cases hnext hwaits
      refine ⟨chain, h.tail_served hf hg hfew hrunning hat.success hptr hbefore hserve
        (fun hc => by cases hc) ?_⟩
      intro store info hsame hsuccess _
      refine .deqReadingHead (hsame.at_point hat hsuccess) ?_ .none
      show _ = [] ++ [MsReq.readPtr (d.headKey info.queueId) .head, .readPtr info.queueId .tail]
      rw [hsame.queueId]
      rfl
  | deqReadingTail hat hwaits hhead =>
    cases hnext hwaits
    cases hserve
    exact ⟨chain, h.served hg rfl rfl (h.phases.running_of_state hg hat (by decide))
      ⟨rfl, rfl, rfl, rfl, rfl, rfl⟩ rfl (fun hc => by cases hc)
      (.deqEnds ⟨hat.enqOrDeq, hat.state, hat.success⟩ rfl ⟨hhead, .refl _, fun _ hne => hne⟩)⟩
  | deqReadingAll hat hwaits hhead =>
    cases hnext hwaits
    cases hserve
    exact ⟨chain, h.served hg rfl rfl (h.phases.running_of_state hg hat (by decide))
      ⟨rfl, rfl, rfl, rfl, rfl, rfl⟩ rfl (fun hc => by cases hc)
      (.deqReadingFirst ⟨hat.enqOrDeq, hat.state, hat.success⟩ rfl
        ⟨hhead, .refl _, fun _ hne => hne⟩)⟩
  | deqReadingFirst hat hwaits hends =>
    cases hnext hwaits
    cases hserve
    refine ⟨chain, h.served hg rfl rfl (h.phases.running_of_state hg hat (by decide))
      ⟨rfl, rfl, rfl, rfl, rfl, rfl⟩ rfl (fun hc => by cases hc)
      (.deqReadingSecond ⟨hat.enqOrDeq, hat.state, hat.success⟩ rfl
        ⟨hends.head, hends.tail, hends.apart⟩ fun hstill => ⟨rfl, ?_⟩)⟩
    have hne := h.next_ne_zero hg (hnone hat)
    change s.store.head d (s.session g).info.queueId = (s.session g).info.head at hstill
    rw [hstill] at hne
    exact hne
  | deqReadingSecond hat hwaits hends hfirst =>
    cases hnext hwaits
    cases hserve
    refine ⟨chain, h.served hg rfl rfl (h.phases.running_of_state hg hat (by decide))
      ⟨rfl, rfl, rfl, rfl, rfl, rfl⟩ rfl (fun hc => by cases hc)
      (.deqFirst ⟨hat.enqOrDeq, hat.state, hat.success⟩ rfl ⟨hends.head, hends.tail, hends.apart⟩
        hfirst fun hsame hnode => ⟨hends.tail, fun _ => ?_⟩)⟩
    obtain ⟨hlink, hne⟩ := hfirst (hends.head.eq_of_counter hsame)
    change (s.session g).info.head.nextKeyId = (s.session g).info.tail.nextKeyId at hnode
    refine ⟨?_, hne⟩
    show s.store.next d (s.session g).info.tail.nextKeyId = _
    rw [← hnode, MsStore.next, hlink]
    rfl
  | deqReadingNode hat hwaits hptr hends hfirst hapart =>
    cases hnext hwaits
    cases hserve
    exact ⟨chain, h.served hg rfl rfl (h.phases.running_of_state hg hat (by decide))
      ⟨rfl, rfl, rfl, rfl, rfl, rfl⟩ rfl (fun hc => by cases hc)
      (.deqSwapping ⟨hat.enqOrDeq, hat.state, hat.success⟩ rfl hptr
        ⟨hends.head, hends.tail, hends.apart⟩ hfirst hapart)⟩
  | deqSwapping hat hwaits hptr hends hfirst hapart =>
    cases hnext hwaits
    rcases msServe_cas hserve with ⟨hcas, rfl, rfl, rfl⟩ | ⟨rfl, rfl, rfl⟩
    · exact h.dequeue hf hg rfl hat hptr hends hfirst hapart hcas hfew
    · refine ⟨chain, h.served hg rfl rfl (h.phases.running_of_state hg hat (by decide))
        ⟨rfl, rfl, rfl, rfl, rfl, rfl⟩ ?_ (fun hc => by cases hc)
        (.deqFailed ⟨hat.enqOrDeq, hat.state, rfl⟩ rfl)⟩
      simp only [MsSessInfo.owned, MsSessInfo.swapped, hat.enqOrDeq, hat.success]
      rfl

/-! ### What a client does -/

theorem counter_of_equal {ptr1 ptr2 : MsPtr} {equal : Bool}
    (h : areMsPtrsEqual ptr1 ptr2 = .ok equal) (hequal : equal = true) :
    ptr1.counter = ptr2.counter := by
  unfold areMsPtrsEqual at h
  split at h
  · rw [hequal] at h
    exact (of_decide_eq_true (Except.ok.inj h)).2
  · nomatch h

/-- After the wait, at most the request is left that the session does not wait for. -/
theorem queue_of_poll (h : MsInv d tr s chain) (hg : g < d.globalSessionNum)
    (hle : (s.session g).queue.length ≤ (s.session g).issued)
    (hfew : (s.session g).issued < 2 ^ 32) {p : EnqOrDeq} {state : MsState}
    (hp : (s.session g).info.enqOrDeqState = p) (hstate : (s.session g).info.state = state)
    (hwaits : state ≠ .init ∧ state ≠ .loopStart)
    (hpoll : pollAReqBlocking (s.session g) (s.session g).info.lastReqId = .ok ()) :
    (s.session g).queue.length ≤ if p = .dequeuing ∧ state = .readHead then 1 else 0 := by
  rw [h.lastReq g hg (by rw [hstate]; exact hwaits.1) (by rw [hstate]; exact hwaits.2)] at hpoll
  have hlen := executed_of_poll hle hfew (Nat.sub_le ..) hpoll
  rw [MsSessInfo.lag, hp, hstate] at hlen
  omega

/-- A pass that ends at another point. -/
theorem moved (h : MsInv d tr s chain) (hg : g < d.globalSessionNum)
    (hrunning : (s.shared (d.clientOf g)).phase = .running) {cntr : Nat} {info : MsSessInfo}
    {queue : List MsReq} {issued : Nat} (hcntr : 0 < d.msQueuesNum → cntr < d.msQueuesNum)
    (hask : queue ≠ [.readFlag]) (hqueue : info.queueId < d.msQueuesNum)
    (hkeyPtr : info.ownedKeyPtr = d.msGetNodePtrKeyId info.ownedKey)
    (howned : info.owned = (s.session g).info.owned)
    (hsame : info.owned = none → info.queueId = (s.session g).info.queueId)
    (hlastReq : info.state ≠ .init → info.state ≠ .loopStart →
      info.lastReqId = u32 (issued - info.lag))
    (hpoint : MsPoint d s.store (chain info.queueId) ⟨info, queue, issued⟩) :
    ∃ chain', MsInv d (tr ++ [(.client g, .moved)])
      ⟨s.store, Function.update s.shared (d.clientOf g)
        { s.shared (d.clientOf g) with queueIdCntr := cntr },
        Function.update s.session g ⟨info, queue, issued⟩⟩ chain' := by
  refine ⟨chain, h.quiet hg (Or.inl rfl) rfl hpoint hqueue hkeyPtr hlastReq
    (h.phases.running (fun c => ?_) hrunning hask) (fun c hpos => ?_) rfl howned hsame⟩
  · by_cases hne : c = d.clientOf g
    · rw [hne, Function.update_self]
    · rw [Function.update_of_ne hne]
  · show (Function.update s.shared (d.clientOf g) _ c).queueIdCntr < _
    by_cases hne : c = d.clientOf g
    · rw [hne, Function.update_self]
      exact hcntr hpos
    · rw [Function.update_of_ne hne]
      exact h.cntr_lt c hpos

/-- **A pass of the enqueue.** -/
theorem enqueuePass (h : MsInv d tr s chain) (hg : g < d.globalSessionNum)
    (hle : (s.session g).queue.length ≤ (s.session g).issued)
    (hfew : (s.session g).issued < 2 ^ 32)
    (hrunning : (s.shared (d.clientOf g)).phase = .running)
    (henq : (s.session g).info.enqOrDeqState = .enqueuing) {info : MsSessInfo}
    {requests : List MsReq} (hpass : d.msEnqueue (s.session g) = .ok (info, requests)) :
    ∃ chain', MsInv d (tr ++ [(.client g, .moved)])
      ⟨s.store, Function.update s.shared (d.clientOf g)
        { s.shared (d.clientOf g) with queueIdCntr := (s.shared (d.clientOf g)).queueIdCntr },
        Function.update s.session g ⟨info, (s.session g).queue ++ requests,
          (s.session g).issued + requests.length⟩⟩ chain' := by
  have hcntr := h.cntr_lt (d.clientOf g)
  have hq := h.queue_lt g hg
  have hkeyPtr := h.keyPtr g hg
  have hpoint := h.point g hg
  have hempty : ∀ state, (s.session g).info.state = state → state ≠ .init ∧ state ≠ .loopStart →
      pollAReqBlocking (s.session g) (s.session g).info.lastReqId = .ok () →
      (s.session g).queue = [] := by
    intro state hstate hwaits hpoll
    have hlen := h.queue_of_poll hg hle hfew henq hstate hwaits hpoll
    rw [if_neg (by simp)] at hlen
    exact List.eq_nil_of_length_eq_zero (Nat.le_zero.mp hlen)
  have hlag : ∀ {info : MsSessInfo} {n : Nat}, info.enqOrDeqState = .enqueuing →
      info.lastReqId = u32 n → info.lastReqId = u32 (n - info.lag) := by
    intro info n hinfo hreq
    rw [MsSessInfo.lag, hinfo]
    exact hreq
  unfold Deployment.msEnqueue at hpass
  dsimp only at hpass
  cases hstate : (s.session g).info.state with
  | init =>
    rw [hstate] at hpass
    cases hpass
    cases hpoint with
    | enqInit hat hqueue hcounter =>
      rw [hqueue]
      exact h.moved hg hrunning hcntr (fun hc => by cases hc) hq hkeyPtr rfl (fun _ => rfl)
        (fun _ _ => hlag hat.enqOrDeq rfl)
        (.enqWriting ⟨hat.enqOrDeq, rfl, hat.success⟩ rfl rfl hcounter)
    | enqAsking hat hqueue =>
      rw [(h.phases.asking g hg hqueue).1] at hrunning
      cases hrunning
    | deqLoop _ hat => exact absurd (henq.symm.trans hat.enqOrDeq) (by decide)
    | _ hat => exact absurd (hstate.symm.trans hat.state) (by decide)
  | loopStart =>
    rw [hstate] at hpass
    cases hpass
    cases hpoint with
    | enqLoop hat hswap hwritten =>
      refine h.moved hg hrunning hcntr ?_ hq hkeyPtr rfl (fun _ => rfl)
        (fun _ _ => hlag hat.enqOrDeq rfl)
        (.enqReadingTail ⟨hat.enqOrDeq, rfl, hat.success⟩ rfl (hswap.congr rfl rfl) hwritten)
      intro hc
      have hlast := congrArg List.getLast? hc
      rw [List.getLast?_append] at hlast
      cases hlast
    | deqLoop _ hat => exact absurd (henq.symm.trans hat.enqOrDeq) (by decide)
    | _ hat => exact absurd (hstate.symm.trans hat.state) (by decide)
  | readTail =>
    rw [hstate] at hpass
    obtain ⟨_, hpoll, hpass⟩ := bind_eq_ok.mp hpass
    have hnone := hempty _ hstate (by decide) hpoll
    cases hpass
    rw [hnone]
    cases hpoint with
    | enqTail hat hqueue hwritten htail =>
      exact h.moved hg hrunning hcntr (fun hc => by cases hc) hq hkeyPtr rfl (fun _ => rfl)
        (fun _ _ => hlag hat.enqOrDeq rfl)
        (.enqReadingLast ⟨hat.enqOrDeq, rfl, hat.success⟩ rfl hwritten htail)
    | enqWriting hat hqueue => cases hnone.symm.trans hqueue
    | enqWritingPtr hat hqueue => cases hnone.symm.trans hqueue
    | enqReadingTail hat hqueue =>
      have hlen := congrArg List.length (hnone.symm.trans hqueue)
      rw [List.length_append] at hlen
      exact absurd hlen (by simp)
    | deqLoop _ hat => exact absurd (henq.symm.trans hat.enqOrDeq) (by decide)
    | _ hat => exact absurd (hstate.symm.trans hat.state) (by decide)
  | readLastNode =>
    rw [hstate] at hpass
    obtain ⟨_, hpoll, hpass⟩ := bind_eq_ok.mp hpass
    have hnone := hempty _ hstate (by decide) hpoll
    obtain ⟨equal, hequal, hpass⟩ := bind_eq_ok.mp hpass
    rw [hnone]
    cases hpoint with
    | enqLast hat hqueue hwritten htail hlast =>
      split at hpass
      · cases hpass
        exact h.moved hg hrunning hcntr (fun hc => by cases hc) hq hkeyPtr rfl (fun _ => rfl)
          (fun _ hc => absurd rfl hc) (.enqLoop ⟨hat.enqOrDeq, rfl, hat.success⟩ .none hwritten)
      · rename_i htrue
        have hcounter := counter_of_equal hequal (by simpa using htrue)
        obtain ⟨hzero, hnext⟩ := hlast hcounter.symm
        split at hpass
        · rename_i hlastNode
          cases hpass
          exact h.moved hg hrunning hcntr (fun hc => by cases hc) hq hkeyPtr rfl (fun _ => rfl)
            (fun _ _ => hlag hat.enqOrDeq rfl) (.enqSwapping ⟨hat.enqOrDeq, rfl, hat.success⟩ rfl
              ⟨rfl, rfl⟩ hwritten htail hlastNode (hzero hlastNode))
        · rename_i hlastNode
          cases hpass
          exact h.moved hg hrunning hcntr (fun hc => by cases hc) hq hkeyPtr rfl (fun _ => rfl)
            (fun _ hc => absurd rfl hc) (.enqLoop ⟨hat.enqOrDeq, rfl, hat.success⟩
              (.swap ⟨rfl, rfl⟩ (hnext hlastNode)) hwritten)
    | enqReadingLast hat hqueue => cases hnone.symm.trans hqueue
    | enqReadingSecond hat hqueue => cases hnone.symm.trans hqueue
    | deqLoop _ hat => exact absurd (henq.symm.trans hat.enqOrDeq) (by decide)
    | _ hat => exact absurd (hstate.symm.trans hat.state) (by decide)
  | potentialSuccess =>
    rw [hstate] at hpass
    obtain ⟨_, hpoll, hpass⟩ := bind_eq_ok.mp hpass
    have hnone := hempty _ hstate (by decide) hpoll
    rw [hnone]
    cases hpoint with
    | enqueued hat hqueue hbefore =>
      rw [if_pos hat.success] at hpass
      cases hpass
      refine h.moved hg hrunning hcntr (fun hc => by cases hc) hq hkeyPtr ?_ (fun _ => rfl)
        (fun hc _ => absurd rfl hc)
        (.deqLoop (Or.inl rfl) ⟨rfl, rfl, rfl⟩ (.swap ⟨rfl, rfl⟩ hbefore))
      simp only [MsSessInfo.owned, hat.enqOrDeq, hat.success]
      rfl
    | enqFailed hat hqueue hwritten =>
      rw [if_neg (by rw [hat.success]; decide)] at hpass
      cases hpass
      exact h.moved hg hrunning hcntr (fun hc => by cases hc) hq hkeyPtr rfl (fun _ => rfl)
        (fun _ hc => absurd rfl hc) (.enqLoop ⟨hat.enqOrDeq, rfl, hat.success⟩ .none hwritten)
    | enqSwapping hat hqueue => cases hnone.symm.trans hqueue
    | deqLoop _ hat => exact absurd (henq.symm.trans hat.enqOrDeq) (by decide)
    | _ hat => first
      | exact absurd (hstate.symm.trans hat.state) (by decide)
      | exact absurd (henq.symm.trans hat.enqOrDeq) (by decide)
  | readHead =>
    cases hpoint with
    | deqLoop _ hat => exact absurd (henq.symm.trans hat.enqOrDeq) (by decide)
    | _ hat => first
      | exact absurd (hstate.symm.trans hat.state) (by decide)
      | exact absurd (henq.symm.trans hat.enqOrDeq) (by decide)
  | readFirstNode =>
    cases hpoint with
    | deqLoop _ hat => exact absurd (henq.symm.trans hat.enqOrDeq) (by decide)
    | _ hat => first
      | exact absurd (hstate.symm.trans hat.state) (by decide)
      | exact absurd (henq.symm.trans hat.enqOrDeq) (by decide)

/-- **A pass of the dequeue.** -/
theorem dequeuePass (h : MsInv d tr s chain) (hg : g < d.globalSessionNum)
    (hle : (s.session g).queue.length ≤ (s.session g).issued)
    (hfew : (s.session g).issued < 2 ^ 32)
    (hrunning : (s.shared (d.clientOf g)).phase = .running)
    (hdeq : (s.session g).info.enqOrDeqState = .dequeuing) {cntr : Nat} {info : MsSessInfo}
    {requests : List MsReq}
    (hpass : d.msDequeue (s.shared (d.clientOf g)).queueIdCntr (s.session g)
      = .ok (cntr, info, requests)) :
    ∃ chain', MsInv d (tr ++ [(.client g, .moved)])
      ⟨s.store, Function.update s.shared (d.clientOf g)
        { s.shared (d.clientOf g) with queueIdCntr := cntr },
        Function.update s.session g ⟨info, (s.session g).queue ++ requests,
          (s.session g).issued + requests.length⟩⟩ chain' := by
  have hcntr := h.cntr_lt (d.clientOf g)
  have hq := h.queue_lt g hg
  have hpos : 0 < d.msQueuesNum := Nat.lt_of_le_of_lt (Nat.zero_le _) hq
  have hkeyPtr := h.keyPtr g hg
  have hpoint := h.point g hg
  have hone : ∀ state, (s.session g).info.state = state → state ≠ .init ∧ state ≠ .loopStart →
      pollAReqBlocking (s.session g) (s.session g).info.lastReqId = .ok () →
      (s.session g).queue.length ≤ if EnqOrDeq.dequeuing = .dequeuing ∧ state = .readHead then 1
        else 0 :=
    fun _ hstate hwaits hpoll => h.queue_of_poll hg hle hfew hdeq hstate hwaits hpoll
  have hempty : ∀ state, (s.session g).info.state = state →
      state = .readFirstNode ∨ state = .potentialSuccess →
      pollAReqBlocking (s.session g) (s.session g).info.lastReqId = .ok () →
      (s.session g).queue = [] := by
    intro state hstate hwaits hpoll
    have hlen := hone state hstate (by rcases hwaits with rfl | rfl <;> decide) hpoll
    rw [if_neg (by rcases hwaits with rfl | rfl <;> decide)] at hlen
    exact List.eq_nil_of_length_eq_zero (Nat.le_zero.mp hlen)
  have hloop : ∀ {state : MsState}, (s.session g).info.At .dequeuing state false →
      TailSwap d s.store (s.session g).info (s.session g).queue → ∀ {info : MsSessInfo},
      info = { (s.session g).info with
        newTail := info.newTail, newHead := info.newHead
        lastReqId := lastReqIdAfter (s.session g) 1, state := .readHead } →
      ∃ chain', MsInv d (tr ++ [(.client g, .moved)])
        ⟨s.store, Function.update s.shared (d.clientOf g)
          { s.shared (d.clientOf g) with queueIdCntr := (s.shared (d.clientOf g)).queueIdCntr },
          Function.update s.session g ⟨info, (s.session g).queue ++
            [.readPtr (d.headKey (s.session g).info.queueId) .head,
              .readPtr (s.session g).info.queueId .tail], (s.session g).issued + 2⟩⟩ chain' := by
    intro state hat hswap info hinfo
    rw [hinfo]
    refine h.moved hg hrunning hcntr ?_ hq hkeyPtr rfl (fun _ => rfl) (fun _ _ => ?_)
      (.deqReadingHead ⟨hat.enqOrDeq, rfl, hat.success⟩ rfl (hswap.congr rfl rfl))
    · intro hc
      have hlast := congrArg List.getLast? hc
      rw [List.getLast?_append] at hlast
      cases hlast
    · rw [MsSessInfo.lag, if_pos ⟨hat.enqOrDeq, rfl⟩]
      rfl
  unfold Deployment.msDequeue at hpass
  dsimp only at hpass
  cases hstate : (s.session g).info.state with
  | init =>
    rw [hstate] at hpass
    cases hpass
    cases hpoint with
    | deqLoop _ hat hswap => exact hloop hat hswap rfl
    | _ hat => first
      | exact absurd (hdeq.symm.trans hat.enqOrDeq) (by decide)
      | exact absurd (hstate.symm.trans hat.state) (by decide)
  | loopStart =>
    rw [hstate] at hpass
    cases hpass
    cases hpoint with
    | deqLoop _ hat hswap => exact hloop hat hswap rfl
    | _ hat => first
      | exact absurd (hdeq.symm.trans hat.enqOrDeq) (by decide)
      | exact absurd (hstate.symm.trans hat.state) (by decide)
  | readHead =>
    rw [hstate] at hpass
    obtain ⟨_, hpoll, hpass⟩ := bind_eq_ok.mp hpass
    have hlen := hone _ hstate (by decide) hpoll
    rw [if_pos ⟨rfl, rfl⟩] at hlen
    cases hpass
    have hlag : ∀ {info : MsSessInfo} {n : Nat}, info.state = .readFirstNode →
        info.lastReqId = u32 n → info.lastReqId = u32 (n - info.lag) := by
      intro info n hinfo hreq
      rw [MsSessInfo.lag, if_neg (by rw [hinfo]; exact fun hc => by cases hc.2)]
      exact hreq
    cases hpoint with
    | deqEnds hat hqueue hends =>
      rw [hqueue]
      exact h.moved hg hrunning hcntr (fun hc => by cases hc) hq hkeyPtr rfl (fun _ => rfl)
        (fun _ _ => hlag rfl rfl) (.deqReadingFirst ⟨hat.enqOrDeq, rfl, hat.success⟩ rfl
          ⟨hends.head, hends.tail, hends.apart⟩)
    | deqReadingTail hat hqueue hhead =>
      rw [hqueue]
      exact h.moved hg hrunning hcntr (fun hc => by cases hc) hq hkeyPtr rfl (fun _ => rfl)
        (fun _ _ => hlag rfl rfl) (.deqReadingAll ⟨hat.enqOrDeq, rfl, hat.success⟩ rfl hhead)
    | deqReadingHead hat hqueue hswap =>
      rw [hqueue, List.length_append] at hlen
      exact absurd hlen (by simp)
    | deqLoop hor hat =>
      rw [← hat.state, hstate] at hor
      exact absurd hor (by decide)
    | _ hat => first
      | exact absurd (hdeq.symm.trans hat.enqOrDeq) (by decide)
      | exact absurd (hstate.symm.trans hat.state) (by decide)
  | readFirstNode =>
    rw [hstate] at hpass
    obtain ⟨_, hpoll, hpass⟩ := bind_eq_ok.mp hpass
    have hnone := hempty _ hstate (Or.inl rfl) hpoll
    obtain ⟨equal, hequal, hpass⟩ := bind_eq_ok.mp hpass
    rw [hnone]
    cases hpoint with
    | deqFirst hat hqueue hends hfirst hbefore =>
      split at hpass
      · cases hpass
        exact h.moved hg hrunning hcntr (fun hc => by cases hc) hq hkeyPtr rfl (fun _ => rfl)
          (fun _ hc => absurd rfl hc) (.deqLoop (Or.inr rfl) ⟨hat.enqOrDeq, rfl, hat.success⟩ .none)
      · rename_i htrue
        have hcounter := counter_of_equal hequal (by simpa using htrue)
        split at hpass
        · rename_i hnode
          cases hpass
          exact h.moved hg hrunning hcntr (fun hc => by cases hc) hq hkeyPtr rfl (fun _ => rfl)
            (fun _ hc => absurd rfl hc) (.deqLoop (Or.inr rfl) ⟨hat.enqOrDeq, rfl, hat.success⟩
              (.swap ⟨rfl, rfl⟩ (hbefore hcounter.symm hnode)))
        · rename_i hnode
          cases hpass
          refine h.moved hg hrunning hcntr (fun hc => by cases hc) hq hkeyPtr rfl (fun _ => rfl)
            (fun _ _ => ?_) (.deqReadingNode ⟨hat.enqOrDeq, rfl, hat.success⟩ rfl ⟨rfl, rfl⟩
              ⟨hends.head, hends.tail, hends.apart⟩ hfirst fun hc => hnode hc.symm)
          rw [MsSessInfo.lag, if_neg (fun hc => by cases hc.2)]
          rfl
    | deqReadingAll hat hqueue => cases hnone.symm.trans hqueue
    | deqReadingFirst hat hqueue => cases hnone.symm.trans hqueue
    | deqReadingSecond hat hqueue => cases hnone.symm.trans hqueue
    | deqLoop hor hat =>
      rw [← hat.state, hstate] at hor
      exact absurd hor (by decide)
    | _ hat => first
      | exact absurd (hdeq.symm.trans hat.enqOrDeq) (by decide)
      | exact absurd (hstate.symm.trans hat.state) (by decide)
  | potentialSuccess =>
    rw [hstate] at hpass
    obtain ⟨_, hpoll, hpass⟩ := bind_eq_ok.mp hpass
    have hnone := hempty _ hstate (Or.inr rfl) hpoll
    rw [hnone]
    cases hpoint with
    | dequeued hat hqueue hcounter =>
      rw [if_pos hat.success] at hpass
      cases hpass
      refine h.moved hg hrunning (fun hlt => d.incrQueueId_lt (hcntr hlt)) (fun hc => by cases hc)
        (hcntr hpos) rfl ?_ (fun hc => by cases hc) (fun hc _ => absurd rfl hc)
        (.enqInit ⟨rfl, rfl, rfl⟩ rfl hcounter)
      simp only [MsSessInfo.owned, hat.enqOrDeq, hat.success]
      rfl
    | deqFailed hat hqueue =>
      rw [if_neg (by rw [hat.success]; decide)] at hpass
      cases hpass
      exact h.moved hg hrunning hcntr (fun hc => by cases hc) hq hkeyPtr rfl (fun _ => rfl)
        (fun _ hc => absurd rfl hc) (.deqLoop (Or.inr rfl) ⟨hat.enqOrDeq, rfl, hat.success⟩ .none)
    | deqReadingNode hat hqueue => cases hnone.symm.trans hqueue
    | deqSwapping hat hqueue => cases hnone.symm.trans hqueue
    | deqLoop hor hat =>
      rw [← hat.state, hstate] at hor
      exact absurd hor (by decide)
    | _ hat => first
      | exact absurd (hdeq.symm.trans hat.enqOrDeq) (by decide)
      | exact absurd (hstate.symm.trans hat.state) (by decide)
  | readTail =>
    cases hpoint with
    | deqLoop hor hat =>
      rw [← hat.state, hstate] at hor
      exact absurd hor (by decide)
    | _ hat => first
      | exact absurd (hdeq.symm.trans hat.enqOrDeq) (by decide)
      | exact absurd (hstate.symm.trans hat.state) (by decide)
  | readLastNode =>
    cases hpoint with
    | deqLoop hor hat =>
      rw [← hat.state, hstate] at hor
      exact absurd hor (by decide)
    | _ hat => first
      | exact absurd (hdeq.symm.trans hat.enqOrDeq) (by decide)
      | exact absurd (hstate.symm.trans hat.state) (by decide)

/-- **A pass of a client that waits.** -/
theorem waitPass (h : MsInv d tr s chain) (hg : g < d.globalSessionNum)
    (hwaits : (s.shared (d.clientOf g)).phase ≠ .running) {client : BenchClient}
    {info : MsSessInfo} {requests : List MsReq} {issued : Nat}
    (hpass : d.msWaitForInit g (s.shared (d.clientOf g)) (s.session g)
      = .ok (client, info, requests)) :
    ∃ chain', MsInv d (tr ++ [(.client g, .moved)])
      ⟨s.store, Function.update s.shared (d.clientOf g) client,
        Function.update s.session g ⟨info, (s.session g).queue ++ requests, issued⟩⟩ chain' := by
  obtain ⟨hat, -⟩ := h.phases.idle g hg hwaits
  have hcounter : (s.store.link d (s.session g).info.ownedKey).counter
      = (s.session g).info.ownedNodePtr.counter := by
    cases h.point g hg with
    | enqInit _ _ hcounter => exact hcounter
    | enqAsking _ _ hcounter => exact hcounter
    | deqLoop _ hat' => exact absurd (hat.enqOrDeq.symm.trans hat'.enqOrDeq) (by decide)
    | _ hat' => exact absurd (hat.state.symm.trans hat'.state) (by decide)
  have hasks := h.phases.asks hg hwaits hpass
  obtain ⟨-, rfl, hclient⟩ := waitForInit_cases hpass
  refine ⟨chain, h.quiet hg (Or.inl rfl) rfl ?_ (h.queue_lt g hg) (h.keyPtr g hg)
    (fun hc => absurd hat.state hc) (h.phases.waitPass hg hwaits hpass) (fun c hpos => ?_) rfl rfl fun _ => rfl⟩
  · rcases hasks with ⟨hreq, -⟩ | hreq
    · exact .enqAsking hat hreq hcounter
    · exact .enqInit hat hreq hcounter
  · show (Function.update s.shared (d.clientOf g) _ c).queueIdCntr < _
    by_cases hne : c = d.clientOf g
    · rw [hne, Function.update_self]
      rcases hclient with ⟨-, rfl, -⟩ | ⟨-, -, -, rfl⟩
      · exact h.cntr_lt _ hpos
      · exact h.cntr_lt _ hpos
    · rw [Function.update_of_ne hne]
      exact h.cntr_lt c hpos

/-- **A turn keeps the invariant.** -/
theorem step (h : MsInv d tr s chain) (hf : MsFits d) {k : Turn} {s' : MsSys} {e : MsEvent}
    (hle : ∀ g, (s.session g).queue.length ≤ (s.session g).issued)
    (hissued : ∀ g, g < d.globalSessionNum → (s.session g).issued < 2 ^ 32)
    (hserved : Service.served tr + 2 < 2 ^ 64) (hstep : d.msService.step s k = .ok (s', e)) :
    ∃ chain', MsInv d (tr ++ [(k, e)]) s' chain' := by
  rcases Service.step_cases hstep with ⟨g, c, info, requests, rfl, hpass, rfl⟩ |
    ⟨g, spurious, r, queue, store, info, rfl, hqueue, hserve, rfl⟩
  · change (if g < d.globalSessionNum then _ else _) = _ at hpass
    split at hpass
    · rename_i hg
      obtain ⟨⟨c', info', requests'⟩, hms, hpass⟩ := bind_eq_ok.mp hpass
      cases hpass
      unfold Deployment.msPass at hms
      split at hms
      · rename_i hrunning
        change (s.shared (d.clientOf g)).phase = .running at hrunning
        obtain ⟨⟨cntr, info', requests'⟩, hloop, hms⟩ := bind_eq_ok.mp hms
        cases hms
        unfold Deployment.msLoopPass at hloop
        cases hstate : (s.session g).info.enqOrDeqState with
        | enqueuing =>
          rw [hstate] at hloop
          obtain ⟨⟨info', requests'⟩, henq, hloop⟩ := bind_eq_ok.mp hloop
          cases hloop
          exact h.enqueuePass hg (hle g) (hissued g hg) hrunning hstate henq
        | dequeuing =>
          rw [hstate] at hloop
          exact h.dequeuePass hg (hle g) (hissued g hg) hrunning hstate hloop
      · rename_i hwaits
        exact h.waitPass hg hwaits hms
    · cases hpass
  · exact h.serve hf hserved hqueue hserve

end MsInv

end Odyssey
