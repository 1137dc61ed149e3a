/-
  THE VALUES THAT THE DEQUEUES READ.

  Before it is linked, a node gets its body from the session that enqueues it (`msBody`), and
  before it swaps the head, a dequeue reads the body of a node.  That is the node at the head, which
  the session is going to own, and not the one behind it, where the head goes: so a dequeue reads
  what the enqueue before wrote, and the first one of a queue the body of the dummy, which nobody
  has written.

  `MsBodies` adds the bodies to the invariant of the queues: those of the nodes in a queue are the
  ones written by the enqueues, in order.  A node in a queue is not written, since its body is
  written by its owner only.  `Front` says which requests can be the next one of a session.
-/
import Odyssey.MsQueueSetUp

namespace Odyssey

open Lib

variable {d : Deployment}

/-! ## The next request of a session -/

/-- Requests that read pointers, and no more. -/
def OnlyReads (queue : List MsReq) : Prop := ∀ r ∈ queue, ∃ key b, r = .readPtr key b

theorem onlyReads_nil : OnlyReads [] := fun _ hr => nomatch hr

theorem OnlyReads.cons {queue : List MsReq} (h : OnlyReads queue) (key : Nat) (b : MsBuffer) :
    OnlyReads (.readPtr key b :: queue) := by
  intro r hr
  rcases List.mem_cons.mp hr with rfl | hr
  · exact ⟨key, b, rfl⟩
  · exact h r hr

/-- **The next request of a session**, with those behind it. -/
inductive Front (d : Deployment) (store : MsStore) (chain : List Nat) (x : MsSession) :
    MsReq → List MsReq → Prop
  | readFlag : Front d store chain x .readFlag []
  | readPtr {key : Nat} {b : MsBuffer} {queue : List MsReq} (hrest : OnlyReads queue) :
      Front d store chain x (.readPtr key b) queue
  | writeNode {k : Nat} {node : MsNode} {ptr : MsPtr} {key : Nat} {b : MsBuffer}
      (hat : x.info.At .enqueuing .readTail false) : Front d store chain x (.writeNode k node)
        [.writePtr x.info.ownedKeyPtr ptr, .readPtr key b]
  | writePtr {ptr : MsPtr} {queue : List MsReq} (hat : x.info.At .enqueuing .readTail false)
      (hrest : OnlyReads queue) : Front d store chain x (.writePtr x.info.ownedKeyPtr ptr) queue
  | tail {ptr : MsPtr} {queue : List MsReq} (hrest : OnlyReads queue) :
      Front d store chain x (.cas x.info.queueId .tail ptr) queue
  | lastNode {ptr : MsPtr} (hat : x.info.At .enqueuing .potentialSuccess false)
      (hptr : ptr.nextKeyId = x.info.ownedKey)
      (hmem : store.link d x.info.tail.nextKeyId = x.info.lastOrFirstNodeMsPtr →
        x.info.tail.nextKeyId ∈ chain) :
      Front d store chain x (.cas (d.msGetNodePtrKeyId x.info.tail.nextKeyId) .lastNode ptr) []
  | readNode {k i key : Nat} {ptr : MsPtr} (hat : x.info.At .dequeuing .potentialSuccess false) :
      Front d store chain x (.readNode k i) [.cas key .head ptr]
  | head {ptr : MsPtr} (hat : x.info.At .dequeuing .potentialSuccess false)
      (hptr : ptr.counter = u64 (x.info.head.counter + 1))
      (hlater : x.info.head.Later (store.head d x.info.queueId))
      (hapart : store.head d x.info.queueId = x.info.head →
        (store.tail x.info.queueId).nextKeyId ≠ x.info.head.nextKeyId) :
      Front d store chain x (.cas (d.headKey x.info.queueId) .head ptr) []

theorem MsPoint.front {store : MsStore} {chain : List Nat} {x : MsSession} {r : MsReq}
    {queue : List MsReq} (h : MsPoint d store chain x) (hqueue : x.queue = r :: queue) :
    Front d store chain x r queue := by
  have hnext : ∀ {l}, x.queue = l → l = r :: queue := fun hc => hc.symm.trans hqueue
  have hswap : ∀ {swap rest}, TailSwap d store x.info swap → OnlyReads rest →
      swap ++ rest = r :: queue → Front d store chain x r queue := by
    intro swap rest hswap hrest heq
    cases hswap with
    | none =>
      change rest = _ at heq
      subst heq
      obtain ⟨key, b, rfl⟩ := hrest r List.mem_cons_self
      exact .readPtr fun r' hr' => hrest r' (List.mem_cons_of_mem _ hr')
    | swap hptr hbefore =>
      cases heq
      exact .tail hrest
  cases h with
  | enqInit hat hwaits => nomatch hnext hwaits
  | enqTail hat hwaits => nomatch hnext hwaits
  | enqLast hat hwaits => nomatch hnext hwaits
  | enqFailed hat hwaits => nomatch hnext hwaits
  | enqueued hat hwaits => nomatch hnext hwaits
  | deqEnds hat hwaits => nomatch hnext hwaits
  | deqFirst hat hwaits => nomatch hnext hwaits
  | deqFailed hat hwaits => nomatch hnext hwaits
  | dequeued hat hwaits => nomatch hnext hwaits
  | enqAsking hat hwaits =>
    cases hnext hwaits
    exact .readFlag
  | enqWriting hat hwaits =>
    cases hnext hwaits
    exact .writeNode hat
  | enqWritingPtr hat hwaits =>
    cases hnext hwaits
    exact .writePtr hat (onlyReads_nil.cons _ _)
  | enqLoop hat hwaits => exact hswap hwaits onlyReads_nil ((List.append_nil _).trans hqueue)
  | enqReadingTail hat hwaits htail => exact hswap htail (onlyReads_nil.cons _ _) (hnext hwaits)
  | deqLoop hstate hat hwaits => exact hswap hwaits onlyReads_nil ((List.append_nil _).trans hqueue)
  | deqReadingHead hat hwaits htail =>
    exact hswap htail ((onlyReads_nil.cons _ _).cons _ _) (hnext hwaits)
  | enqReadingLast hat hwaits =>
    cases hnext hwaits
    exact .readPtr (onlyReads_nil.cons _ _)
  | enqReadingSecond hat hwaits =>
    cases hnext hwaits
    exact .readPtr onlyReads_nil
  | enqSwapping hat hwaits hptr hwritten htail hzero hlast =>
    cases hnext hwaits
    refine .lastNode hat hptr.next fun hsame => ?_
    rcases hlast with ⟨-, hmem⟩ | hlt
    · exact hmem
    · rw [hsame] at hlt
      exact absurd hlt (Nat.lt_irrefl _)
  | deqReadingTail hat hwaits =>
    cases hnext hwaits
    exact .readPtr onlyReads_nil
  | deqReadingAll hat hwaits =>
    cases hnext hwaits
    exact .readPtr ((onlyReads_nil.cons _ _).cons _ _)
  | deqReadingFirst hat hwaits =>
    cases hnext hwaits
    exact .readPtr (onlyReads_nil.cons _ _)
  | deqReadingSecond hat hwaits =>
    cases hnext hwaits
    exact .readPtr onlyReads_nil
  | deqReadingNode hat hwaits =>
    cases hnext hwaits
    exact .readNode hat
  | deqSwapping hat hwaits hptr hends hfirst hapart =>
    cases hnext hwaits
    exact .head hat hptr.counter hends.head fun hsame => hends.apart hsame hapart

/-! ## The bodies of the nodes -/

/-- What a session writes in a node before it enqueues it. -/
def Deployment.msBody (d : Deployment) (k : Nat) : MsNode := ⟨k, d.msGetNodePtrKeyId k⟩

/-- The bodies of the nodes that were in a queue, in order; nobody has written that of the dummy. -/
def Deployment.msBodies (d : Deployment) (tr : MsTrace) (q : Nat) : List MsNode :=
  ⟨0, 0⟩ :: (entered tr q).map d.msBody

/-- The bodies that a session is going to write are of the node that it owns. -/
def WritesBody (d : Deployment) (info : MsSessInfo) (requests : List MsReq) : Prop :=
  ∀ k node, .writeNode k node ∈ requests → k = info.ownedKey ∧ node = d.msBody info.ownedKey

/-- **What a session knows of bodies.** -/
structure BodyOk (d : Deployment) (store : MsStore) (x : MsSession) : Prop where
  writing : WritesBody d x.info x.queue
  /-- the body is written before the node is linked -/
  written : x.info.enqOrDeqState = .enqueuing → x.info.state ≠ .init → x.info.success = false →
    (∀ k node, .writeNode k node ∉ x.queue) → store.node x.info.ownedKey = d.msBody x.info.ownedKey
  reading : ∀ k i, .readNode k i ∈ x.queue → k = u32 x.info.head.nextKeyId ∧ i = 0
  /-- what was read is the body of the node at the head, if the head is still the same -/
  read : ∀ key ptr, x.queue = [.cas key .head ptr] →
    store.head d x.info.queueId = x.info.head →
    x.info.newNode 0 = store.node x.info.head.nextKeyId

/-- **The invariant of the bodies.** -/
structure MsBodies (d : Deployment) (tr : MsTrace) (s : MsSys) : Prop where
  values : ∀ q, q < d.msQueuesNum →
    ((d.dummyKey q :: entered tr q).drop (left tr q).length).map s.store.node
      = (d.msBodies tr q).drop (left tr q).length
  sessions : ∀ g, g < d.globalSessionNum → BodyOk d s.store (s.session g)

/-- The nodes of a queue, from the history. -/
theorem MsInv.chain_drop {tr : MsTrace} {s : MsSys} {chain : Nat → List Nat} {q : Nat}
    (h : MsInv d tr s chain) (hq : q < d.msQueuesNum) :
    (d.dummyKey q :: entered tr q).drop (left tr q).length = chain q := by
  rw [h.order q hq, List.drop_left]

theorem msNode_lt (hf : MsFits d) {k : Nat} (hk : d.isMsNode k) : k < 2 ^ 32 := by
  obtain ⟨-, hhi⟩ := hk
  unfold MsFits at hf
  unfold Deployment.msInitDoneFlagKey Deployment.msNodeKeyOffset Deployment.dummyKeyIdOffset
    Deployment.lastMsNodePtr Deployment.msNodePtrOffset Deployment.msQueuesNum msWritesNum at hhi
  omega

/-- What a step of another session may do to the bodies. -/
structure BodyFrame (d : Deployment) (store store' : MsStore) (chain : Nat → List Nat)
    (owned : Option Nat) : Prop where
  head : ∀ q, q < d.msQueuesNum → (store.head d q).Later (store'.head d q)
  node : ∀ q k, q < d.msQueuesNum → k ∈ chain q → store'.node k = store.node k
  owned : ∀ k, owned = some k → store'.node k = store.node k

theorem BodyFrame.same {store store' : MsStore} (hptr : store'.ptr = store.ptr)
    (hnode : store'.node = store.node) (chain : Nat → List Nat) (owned : Option Nat) :
    BodyFrame d store store' chain owned where
  head q _ := by
    rw [show store'.head d q = store.head d q from congrFun hptr _]
    exact .refl _
  node q k _ _ := by rw [hnode]
  owned k _ := by rw [hnode]

namespace BodyOk

variable {store store' : MsStore} {x : MsSession} {chain : Nat → List Nat}

/-- **A step of another session.** -/
theorem frame (h : BodyOk d store x) (hf : BodyFrame d store store' chain x.info.owned)
    (hin : EndsIn d store chain) (hq : x.info.queueId < d.msQueuesNum)
    (hpoint : MsPoint d store (chain x.info.queueId) x) : BodyOk d store' x where
  writing := h.writing
  written henq hstate hsuccess hnone := by
    rw [hf.owned x.info.ownedKey]
    · exact h.written henq hstate hsuccess hnone
    · rw [MsSessInfo.owned, henq, hsuccess]
      rfl
  reading := h.reading
  read key ptr hqueue hsame := by
    cases hpoint.front hqueue with
    | head hat hptr hlater hapart =>
      have hstill : store.head d x.info.queueId = x.info.head :=
        hlater.antisymm (hsame ▸ hf.head _ hq)
      have hmem := hin.head _ hq
      rw [hstill] at hmem
      rw [hf.node _ _ hq hmem]
      exact h.read _ _ hqueue hstill

/-- A request was executed that is not of a body. -/
theorem served (h : BodyOk d store x) {r : MsReq} {queue : List MsReq} (hqueue : x.queue = r :: queue)
    (hr : ∀ k node, r ≠ .writeNode k node) (hrest : OnlyReads queue) {info : MsSessInfo}
    (hsame : info.Same x.info) (hsuccess : info.success = false → x.info.success = false)
    (hnode : store'.node = store.node) : BodyOk d store' ⟨info, queue, x.issued⟩ where
  writing k node hmem := by
    obtain ⟨key, b, hc⟩ := hrest _ hmem
    nomatch hc
  written henq hstate hfalse _ := by
    show store'.node info.ownedKey = d.msBody info.ownedKey
    rw [hnode, hsame.ownedKey]
    refine h.written (hsame.enqOrDeq.symm.trans henq) ?_ (hsuccess hfalse) fun k node hmem => ?_
    · rw [← hsame.state]
      exact hstate
    · rw [hqueue] at hmem
      rcases List.mem_cons.mp hmem with heq | hmem
      · exact hr k node heq.symm
      · obtain ⟨key, b, hc⟩ := hrest _ hmem
        nomatch hc
  reading k i hmem := by
    obtain ⟨key, b, hc⟩ := hrest _ hmem
    nomatch hc
  read key ptr hone _ := by
    change queue = _ at hone
    rw [hone] at hrest
    obtain ⟨key, b, hc⟩ := hrest _ List.mem_cons_self
    nomatch hc

end BodyOk

/-! ## The store executes a request -/

namespace MsBodies

variable {tr : MsTrace} {s : MsSys} {chain : Nat → List Nat} {g : Nat}

/-- **A step of session `g`.** -/
theorem update (hb : MsBodies d tr s) (h : MsInv d tr s chain) {turn : Turn} {e : MsEvent}
    {store : MsStore} {shared : Nat → BenchClient} {x : MsSession}
    (hframe : ∀ g', g' < d.globalSessionNum → g' ≠ g →
      BodyFrame d s.store store chain (s.session g').info.owned) (hx : BodyOk d store x)
    (hvalues : ∀ q, q < d.msQueuesNum → ((d.dummyKey q :: entered (tr ++ [(turn, e)]) q).drop
      (left (tr ++ [(turn, e)]) q).length).map store.node
        = (d.msBodies (tr ++ [(turn, e)]) q).drop (left (tr ++ [(turn, e)]) q).length) :
    MsBodies d (tr ++ [(turn, e)]) ⟨store, shared, Function.update s.session g x⟩ where
  values := hvalues
  sessions g' hg' := by
    show BodyOk d store (Function.update s.session g x g')
    by_cases hne : g' = g
    · rw [hne, Function.update_self]
      exact hx
    · rw [Function.update_of_ne hne]
      exact (hb.sessions g' hg').frame (hframe g' hg' hne) h.endsIn (h.queue_lt g' hg')
        (h.point g' hg')

/-- A step that moves no node. -/
theorem keep (hb : MsBodies d tr s) (h : MsInv d tr s chain) {turn : Turn} {e : MsEvent}
    (he : e = .moved ∨ e = .served) {store : MsStore} {shared : Nat → BenchClient} {x : MsSession}
    (hnode : ∀ q k, q < d.msQueuesNum → k ∈ chain q → store.node k = s.store.node k)
    (hframe : ∀ g', g' < d.globalSessionNum → g' ≠ g →
      BodyFrame d s.store store chain (s.session g').info.owned) (hx : BodyOk d store x) :
    MsBodies d (tr ++ [(turn, e)]) ⟨store, shared, Function.update s.session g x⟩ := by
  refine hb.update h hframe hx fun q hq => ?_
  have hentered : entered (tr ++ [(turn, e)]) q = entered tr q := by
    rw [entered, List.filterMap_append]
    rcases he with rfl | rfl <;> exact List.append_nil _
  have hleft : left (tr ++ [(turn, e)]) q = left tr q := by
    rw [left, List.filterMap_append]
    rcases he with rfl | rfl <;> exact List.append_nil _
  rw [Deployment.msBodies, hentered, hleft, ← Deployment.msBodies, ← hb.values q hq]
  refine List.map_congr_left fun k hk => ?_
  rw [h.chain_drop hq] at hk
  exact hnode q k hq hk

/-- A node enters a queue. -/
theorem enqueue (hb : MsBodies d tr s) (h : MsInv d tr s chain) {turn : Turn} {q k : Nat}
    {store : MsStore} {shared : Nat → BenchClient} {x : MsSession} (hnode : store.node = s.store.node)
    (hbody : s.store.node k = d.msBody k)
    (hframe : ∀ g', g' < d.globalSessionNum → g' ≠ g →
      BodyFrame d s.store store chain (s.session g').info.owned) (hx : BodyOk d store x) :
    MsBodies d (tr ++ [(turn, .enqueued q k)])
      ⟨store, shared, Function.update s.session g x⟩ := by
  refine hb.update h hframe hx fun q' hq' => ?_
  have hleft : left (tr ++ [(turn, .enqueued q k)]) q' = left tr q' := by
    rw [left, List.filterMap_append]
    exact List.append_nil _
  have hle : (left tr q').length ≤ (d.dummyKey q' :: entered tr q').length := by
    rw [h.order q' hq', List.length_append]
    exact Nat.le_add_right ..
  have hle' : (left tr q').length ≤ (d.msBodies tr q').length := by
    rw [Deployment.msBodies, List.length_cons, List.length_map]
    exact hle
  have hbodies : d.msBodies (tr ++ [(turn, .enqueued q k)]) q'
      = d.msBodies tr q' ++ (if q = q' then [k] else []).map d.msBody := by
    rw [Deployment.msBodies, Deployment.msBodies, MsInv.entered_append, List.map_append]
    rfl
  have hvalues := hb.values q' hq'
  rw [hbodies, hleft, MsInv.entered_append, ← List.cons_append, List.drop_append_of_le_length hle,
    List.drop_append_of_le_length hle', List.map_append, hnode, hvalues]
  congr 1
  split
  · rw [List.map_singleton, List.map_singleton, hbody]
  · rfl

/-- A node leaves a queue. -/
theorem dequeue (hb : MsBodies d tr s) (h : MsInv d tr s chain) {turn : Turn} {q k : Nat}
    {store : MsStore} {shared : Nat → BenchClient} {x : MsSession} (hnode : store.node = s.store.node)
    (hframe : ∀ g', g' < d.globalSessionNum → g' ≠ g →
      BodyFrame d s.store store chain (s.session g').info.owned) (hx : BodyOk d store x) :
    MsBodies d (tr ++ [(turn, .dequeued q k)])
      ⟨store, shared, Function.update s.session g x⟩ := by
  refine hb.update h hframe hx fun q' hq' => ?_
  have hentered : entered (tr ++ [(turn, .dequeued q k)]) q' = entered tr q' := by
    rw [entered, List.filterMap_append]
    exact List.append_nil _
  have hvalues := congrArg (List.drop (if q = q' then [k] else []).length) (hb.values q' hq')
  rw [← List.map_drop, List.drop_drop, List.drop_drop] at hvalues
  rw [Deployment.msBodies, hentered, ← Deployment.msBodies, MsInv.left_append, List.length_append, hnode]
  exact hvalues

/-- The body of the node that a session owns is written. -/
theorem writeNode (hb : MsBodies d tr s) (h : MsInv d tr s chain) (hg : g < d.globalSessionNum)
    (hat : (s.session g).info.At .enqueuing .readTail false) {turn : Turn} {k : Nat} {node : MsNode}
    {ptr : MsPtr} {key : Nat} {b : MsBuffer} {shared : Nat → BenchClient}
    (hqueue : (s.session g).queue = [.writeNode k node, .writePtr (s.session g).info.ownedKeyPtr ptr,
      .readPtr key b]) :
    MsBodies d (tr ++ [(turn, .served)])
      ⟨{ s.store with node := Function.update s.store.node k node }, shared,
        Function.update s.session g ⟨(s.session g).info,
          [.writePtr (s.session g).info.ownedKeyPtr ptr, .readPtr key b], (s.session g).issued⟩⟩ := by
  have howned : (s.session g).info.owned = some (s.session g).info.ownedKey := by
    rw [MsSessInfo.owned, hat.enqOrDeq, hat.success]
    rfl
  obtain ⟨rfl, rfl⟩ := (hb.sessions g hg).writing k node (by rw [hqueue]; exact List.mem_cons_self)
  have hchain : ∀ q k, q < d.msQueuesNum → k ∈ chain q →
      Function.update s.store.node (s.session g).info.ownedKey
        (d.msBody (s.session g).info.ownedKey) k = s.store.node k := by
    intro q k hq hk
    refine Function.update_of_ne ?_ ..
    rintro rfl
    exact h.owned_not_linked hg howned hq hk
  refine hb.keep h (Or.inr rfl) hchain (fun g' hg' hne => ⟨fun q _ => .refl _, hchain, ?_⟩) ⟨?_, ?_, ?_, ?_⟩
  · intro k hk
    exact Function.update_of_ne (h.owner_ne hg howned hg' hne hk) ..
  · intro k node hmem
    rcases List.mem_cons.mp hmem with hc | hc
    · cases hc
    · cases List.mem_singleton.mp hc
  · exact fun _ _ _ _ => Function.update_self ..
  · intro k i hmem
    rcases List.mem_cons.mp hmem with hc | hc
    · cases hc
    · cases List.mem_singleton.mp hc
  · exact fun key ptr hc => by cases hc

/-- The body of the node at the head is read. -/
theorem readNode (hb : MsBodies d tr s) (h : MsInv d tr s chain) (hf : MsFits d)
    (hg : g < d.globalSessionNum) (hat : (s.session g).info.At .dequeuing .potentialSuccess false)
    {turn : Turn} {k i key : Nat} {ptr : MsPtr} {shared : Nat → BenchClient}
    (hqueue : (s.session g).queue = [.readNode k i, .cas key .head ptr]) :
    MsBodies d (tr ++ [(turn, .served)]) ⟨s.store, shared, Function.update s.session g
      ⟨{ (s.session g).info with
          newNode := Function.update (s.session g).info.newNode i (s.store.node k) },
        [.cas key .head ptr], (s.session g).issued⟩⟩ := by
  obtain ⟨rfl, rfl⟩ := (hb.sessions g hg).reading k i (by rw [hqueue]; exact List.mem_cons_self)
  refine hb.keep h (Or.inr rfl) (fun _ _ _ _ => rfl) (fun _ _ _ => .same rfl rfl _ _) ⟨?_, ?_, ?_, ?_⟩
  · intro k node hmem
    nomatch List.mem_singleton.mp hmem
  · intro henq
    nomatch hat.enqOrDeq.symm.trans henq
  · intro k i hmem
    nomatch List.mem_singleton.mp hmem
  · intro key ptr _ hsame
    have hmem := h.endsIn.head _ (h.queue_lt g hg)
    change s.store.head d (s.session g).info.queueId = (s.session g).info.head at hsame
    rw [hsame] at hmem
    have hfit := msNode_lt hf (h.node_of_mem (h.queue_lt g hg) hmem)
    show Function.update (s.session g).info.newNode 0
      (s.store.node (u32 (s.session g).info.head.nextKeyId)) 0 = _
    rw [Function.update_self, u32_of_lt hfit]

/-- **The store executes a request.** -/
theorem serve (hb : MsBodies d tr s) (h : MsInv d tr s chain) (hf : MsFits d) {spurious : Bool}
    {r : MsReq} {queue : List MsReq} {store : MsStore} {info : MsSessInfo} {e : MsEvent}
    (hfew : Service.served tr + 2 < 2 ^ 64) (hqueue : (s.session g).queue = r :: queue)
    (hserve : msServe spurious s.store (s.session g).info r = (store, info, e)) :
    MsBodies d (tr ++ [(.store g spurious, e)])
      ⟨store, s.shared, Function.update s.session g ⟨info, queue, (s.session g).issued⟩⟩ := by
  have hg : g < d.globalSessionNum := by
    by_contra hc
    rw [(h.outside g (Nat.le_of_not_lt hc)).1] at hqueue
    cases hqueue
  have hq := h.queue_lt g hg
  have hbody := hb.sessions g hg
  -- a pointer is written that is not a head
  have hwrite : ∀ {key ptr}, (∀ q, q < d.msQueuesNum →
      (s.store.write key ptr).head d q = s.store.head d q) → ∀ owned,
      BodyFrame d s.store (s.store.write key ptr) chain owned := by
    intro key ptr hhead owned
    refine ⟨fun q hq => ?_, fun _ _ _ _ => rfl, fun _ _ => rfl⟩
    rw [hhead q hq]
    exact .refl _
  cases (h.point g hg).front hqueue with
  | readFlag =>
    cases hserve
    exact hb.keep h (Or.inr rfl) (fun _ _ _ _ => rfl) (fun _ _ _ => .same rfl rfl _ _)
      (hbody.served hqueue (fun _ _ hc => by cases hc) onlyReads_nil ⟨rfl, rfl, rfl, rfl, rfl, rfl⟩
        (fun hc => hc) rfl)
  | @readPtr key b _ hrest =>
    cases hserve
    exact hb.keep h (Or.inr rfl) (fun _ _ _ _ => rfl) (fun _ _ _ => .same rfl rfl _ _)
      (hbody.served hqueue (fun _ _ hc => by cases hc) hrest
        (by cases b <;> exact ⟨rfl, rfl, rfl, rfl, rfl, rfl⟩) (by cases b <;> exact fun hc => hc) rfl)
  | writeNode hat =>
    cases hserve
    exact hb.writeNode h hg hat hqueue
  | @writePtr ptr _ hat hrest =>
    have howned : (s.session g).info.owned = some (s.session g).info.ownedKey := by
      rw [MsSessInfo.owned, hat.enqOrDeq, hat.success]
      rfl
    have hnode := h.node_of_owned hg howned
    cases hserve
    refine hb.keep h (Or.inr rfl) (fun _ _ _ _ => rfl) (fun _ _ _ => hwrite (fun q hq => ?_) _)
      (hbody.served hqueue (fun _ _ hc => by cases hc) hrest ⟨rfl, rfl, rfl, rfl, rfl, rfl⟩
        (fun hc => hc) rfl)
    rw [h.keyPtr g hg]
    exact MsStore.write_link_head hf hnode hq
  | tail hrest =>
    have hx : ∀ (store : MsStore) (old : MsPtr) (result : Bool), store.node = s.store.node →
        BodyOk d store ⟨(s.session g).info.swapped old result .tail, queue, (s.session g).issued⟩ :=
      fun store old result hnode => hbody.served hqueue (fun _ _ hc => by cases hc) hrest
        ⟨rfl, rfl, rfl, rfl, rfl, rfl⟩ (fun hc => hc) hnode
    rcases MsInv.msServe_cas hserve with ⟨-, rfl, rfl, rfl⟩ | ⟨rfl, rfl, rfl⟩
    · exact hb.keep h (Or.inr rfl) (fun _ _ _ _ => rfl)
        (fun _ _ _ => hwrite (fun q' hq' => MsStore.write_tail_head hf hq hq') _) (hx _ _ _ rfl)
    · exact hb.keep h (Or.inr rfl) (fun _ _ _ _ => rfl) (fun _ _ _ => .same rfl rfl _ _) (hx _ _ _ rfl)
  | @lastNode ptr hat hptr hmem =>
    have hx : ∀ (store : MsStore) (old : MsPtr) (result : Bool), store.node = s.store.node →
        BodyOk d store
          ⟨(s.session g).info.swapped old result .lastNode, [], (s.session g).issued⟩ :=
      fun store old result hnode => hbody.served hqueue (fun _ _ hc => by cases hc) onlyReads_nil
        ⟨rfl, rfl, rfl, rfl, rfl, rfl⟩ (fun _ => hat.success) hnode
    rcases MsInv.msServe_cas hserve with ⟨hcas, rfl, rfl, rfl⟩ | ⟨rfl, rfl, rfl⟩
    · have hnode := h.node_of_mem hq (hmem hcas)
      have hown := hbody.written hat.enqOrDeq (by rw [hat.state]; decide) hat.success
        fun k node hc => by
          rw [hqueue] at hc
          cases List.mem_singleton.mp hc
      rw [MsSessInfo.swapEvent, hptr]
      exact hb.enqueue h rfl hown
        (fun _ _ _ => hwrite (fun q' hq' => MsStore.write_link_head hf hnode hq') _) (hx _ _ _ rfl)
    · exact hb.keep h (Or.inr rfl) (fun _ _ _ _ => rfl) (fun _ _ _ => .same rfl rfl _ _) (hx _ _ _ rfl)
  | readNode hat =>
    cases hserve
    exact hb.readNode h hf hg hat hqueue
  | @head ptr hat hptr hlater hapart =>
    have hx : ∀ (store : MsStore) (old : MsPtr) (result : Bool), store.node = s.store.node →
        BodyOk d store ⟨(s.session g).info.swapped old result .head, [], (s.session g).issued⟩ :=
      fun store old result hnode => hbody.served hqueue (fun _ _ hc => by cases hc) onlyReads_nil
        ⟨rfl, rfl, rfl, rfl, rfl, rfl⟩ (fun _ => hat.success) hnode
    rcases MsInv.msServe_cas hserve with ⟨hcas, rfl, rfl, rfl⟩ | ⟨rfl, rfl, rfl⟩
    · refine hb.dequeue h rfl (fun _ _ _ => ⟨fun q' hq' => ?_, fun _ _ _ _ => rfl, fun _ _ => rfl⟩)
        (hx _ _ _ rfl)
      have hcas : s.store.head d (s.session g).info.queueId = (s.session g).info.head := hcas
      have hle := h.bound (d.headKey (s.session g).info.queueId)
      change (s.store.head d (s.session g).info.queueId).counter ≤ _ at hle
      rw [MsStore.write_head hf hq hq']
      split
      · rename_i heq
        rw [heq]
        refine Or.inr ?_
        rw [hptr, ← hcas, u64_of_lt (by omega)]
        exact Nat.lt_succ_self _
      · exact .refl _
    · exact hb.keep h (Or.inr rfl) (fun _ _ _ _ => rfl) (fun _ _ _ => .same rfl rfl _ _) (hx _ _ _ rfl)

end MsBodies

/-! ## What a client does -/

/-- A request that is not of a body, and does not swap a head. -/
def MsReq.Plain : MsReq → Prop
  | .writeNode .. | .readNode .. => False
  | .cas _ swap _ => swap ≠ .head
  | _ => True

namespace BodyOk

variable {store : MsStore} {x : MsSession} {info : MsSessInfo} {requests : List MsReq} {n : Nat}

/-- A pass that issues nothing of a body. -/
theorem passed (h : BodyOk d store x) (hplain : ∀ r ∈ requests, r.Plain)
    (howned : info.ownedKey = x.info.ownedKey) (hhead : info.head = x.info.head)
    (hqueue : info.queueId = x.info.queueId) (hnode : info.newNode = x.info.newNode)
    (hwas : info.enqOrDeqState = .enqueuing → info.state ≠ .init →
      x.info.enqOrDeqState = .enqueuing ∧ x.info.state ≠ .init ∧ info.success = x.info.success) :
    BodyOk d store ⟨info, x.queue ++ requests, n⟩ where
  writing k node hmem := by
    show k = info.ownedKey ∧ node = d.msBody info.ownedKey
    rw [howned]
    rcases List.mem_append.mp hmem with hold | hnew
    · exact h.writing k node hold
    · exact absurd (hplain _ hnew) not_false
  written henq hstate hsuccess hnone := by
    show store.node info.ownedKey = d.msBody info.ownedKey
    obtain ⟨henq', hstate', hsame⟩ := hwas henq hstate
    rw [howned]
    exact h.written henq' hstate' (hsame.symm.trans hsuccess) fun k node hmem =>
      hnone k node (List.mem_append_left _ hmem)
  reading k i hmem := by
    show k = u32 info.head.nextKeyId ∧ i = 0
    rw [hhead]
    rcases List.mem_append.mp hmem with hold | hnew
    · exact h.reading k i hold
    · exact absurd (hplain _ hnew) not_false
  read key ptr hone hsame := by
    show info.newNode 0 = store.node info.head.nextKeyId
    change store.head d info.queueId = info.head at hsame
    rw [hqueue, hhead] at hsame
    rw [hnode, hhead]
    change x.queue ++ requests = _ at hone
    rcases List.append_eq_singleton_iff.mp hone with ⟨-, hnew⟩ | ⟨hold, -⟩
    · have hswap := hplain (.cas key .head ptr) (by rw [hnew]; exact List.mem_cons_self)
      exact absurd rfl hswap
    · exact h.read key ptr hold hsame

theorem enqInit_writes (hstate : x.info.state = .init)
    (hkeyPtr : x.info.ownedKeyPtr = d.msGetNodePtrKeyId x.info.ownedKey)
    (hown : x.info.ownedKey < 2 ^ 32) (hpass : d.msEnqueue x = .ok (info, requests)) :
    (∃ k node ptr, requests = [.writeNode k node, .writePtr x.info.ownedKeyPtr ptr,
      .readPtr x.info.queueId .tail]) ∧ WritesBody d info requests := by
  unfold Deployment.msEnqueue at hpass
  dsimp only at hpass
  rw [hstate] at hpass
  cases hpass
  refine ⟨⟨_, _, _, rfl⟩, fun k node hmem => ?_⟩
  rcases List.mem_cons.mp hmem with heq | hmem
  · cases heq
    refine ⟨u32_of_lt hown, ?_⟩
    show Function.update x.info.newNode 0 ⟨x.info.ownedKey, x.info.ownedKeyPtr⟩ 0 = _
    rw [Function.update_self, hkeyPtr]
    rfl
  · rcases List.mem_cons.mp hmem with hc | hc
    · nomatch hc
    · nomatch List.mem_singleton.mp hc

/-- **A pass of an enqueue.** -/
theorem enqueuePass (h : BodyOk d store x) (hkeyPtr : x.info.ownedKeyPtr
      = d.msGetNodePtrKeyId x.info.ownedKey)
    (hinit : x.info.state = .init → x.queue = [] ∧ x.info.ownedKey < 2 ^ 32)
    (henq : x.info.enqOrDeqState = .enqueuing) (hpass : d.msEnqueue x = .ok (info, requests)) :
    BodyOk d store ⟨info, x.queue ++ requests, n⟩ := by
  by_cases hstate : x.info.state = .init
  · obtain ⟨hempty, hown⟩ := hinit hstate
    obtain ⟨⟨k, node, ptr, hrequests⟩, hwrites⟩ := enqInit_writes hstate hkeyPtr hown hpass
    rw [hempty]
    refine ⟨hwrites, fun _ _ _ hnone => ?_, fun k i hmem => ?_, fun key ptr hc => ?_⟩
    · refine absurd ?_ (hnone k node)
      show _ ∈ requests
      rw [hrequests]
      exact List.mem_cons_self
    · change _ ∈ requests at hmem
      rw [hrequests] at hmem
      rcases List.mem_cons.mp hmem with hc | hmem
      · cases hc
      · rcases List.mem_cons.mp hmem with hc | hc
        · cases hc
        · cases List.mem_singleton.mp hc
    · change requests = _ at hc
      cases hrequests.symm.trans hc
  have hne := hstate
  unfold Deployment.msEnqueue at hpass
  dsimp only at hpass
  generalize x.info.state = state at hpass hstate
  cases state with
  | init => exact absurd rfl hstate
  | loopStart =>
    cases hpass
    refine h.passed (fun r hr => ?_) rfl rfl rfl rfl fun _ _ => ⟨henq, hne, rfl⟩
    rw [List.mem_singleton.mp hr]
    trivial
  | readTail =>
    obtain ⟨_, -, hpass⟩ := bind_eq_ok.mp hpass
    cases hpass
    refine h.passed (fun r hr => ?_) rfl rfl rfl rfl fun _ _ => ⟨henq, hne, rfl⟩
    rcases List.mem_cons.mp hr with rfl | hr
    · trivial
    · rw [List.mem_singleton.mp hr]
      trivial
  | readLastNode =>
    obtain ⟨_, -, hpass⟩ := bind_eq_ok.mp hpass
    obtain ⟨equal, -, hpass⟩ := bind_eq_ok.mp hpass
    split at hpass
    · cases hpass
      exact h.passed (fun r hr => by cases hr) rfl rfl rfl rfl fun _ _ => ⟨henq, hne, rfl⟩
    · split at hpass
      · cases hpass
        refine h.passed (fun r hr => ?_) rfl rfl rfl rfl fun _ _ => ⟨henq, hne, rfl⟩
        rw [List.mem_singleton.mp hr]
        exact fun hc => by cases hc
      · cases hpass
        refine h.passed (fun r hr => ?_) rfl rfl rfl rfl fun _ _ => ⟨henq, hne, rfl⟩
        rw [List.mem_singleton.mp hr]
        exact fun hc => by cases hc
  | potentialSuccess =>
    obtain ⟨_, -, hpass⟩ := bind_eq_ok.mp hpass
    split at hpass
    · cases hpass
      refine h.passed (fun r hr => ?_) rfl rfl rfl rfl (fun _ hc => absurd rfl hc)
      rw [List.mem_singleton.mp hr]
      exact fun hc => by cases hc
    · cases hpass
      exact h.passed (fun r hr => by cases hr) rfl rfl rfl rfl fun _ _ => ⟨henq, hne, rfl⟩
  | readHead | readFirstNode =>
    cases hpass
    exact h.passed (fun r hr => by cases hr) rfl rfl rfl rfl fun _ _ => ⟨henq, hne, rfl⟩

/-- **A pass of a dequeue.** -/
theorem dequeuePass (h : BodyOk d store x) (hempty : x.info.state = .readFirstNode ∨
      x.info.state = .potentialSuccess → pollAReqBlocking x x.info.lastReqId = .ok () → x.queue = [])
    (hdeq : x.info.enqOrDeqState = .dequeuing) {cntr cntr' : Nat}
    (hpass : d.msDequeue cntr x = .ok (cntr', info, requests)) :
    BodyOk d store ⟨info, x.queue ++ requests, n⟩ := by
  have hwas : ∀ {P : Prop}, x.info.enqOrDeqState = .enqueuing → P := fun henq =>
    by cases hdeq.symm.trans henq
  unfold Deployment.msDequeue at hpass
  dsimp only at hpass
  cases hstate : x.info.state with
  | init | loopStart =>
    rw [hstate] at hpass
    cases hpass
    refine h.passed (fun r hr => ?_) rfl rfl rfl rfl hwas
    rcases List.mem_cons.mp hr with rfl | hr
    · trivial
    · rw [List.mem_singleton.mp hr]
      trivial
  | readHead =>
    rw [hstate] at hpass
    obtain ⟨_, -, hpass⟩ := bind_eq_ok.mp hpass
    cases hpass
    refine h.passed (fun r hr => ?_) rfl rfl rfl rfl hwas
    rcases List.mem_cons.mp hr with rfl | hr
    · trivial
    · rw [List.mem_singleton.mp hr]
      trivial
  | readFirstNode =>
    rw [hstate] at hpass
    obtain ⟨_, hpoll, hpass⟩ := bind_eq_ok.mp hpass
    obtain ⟨equal, -, hpass⟩ := bind_eq_ok.mp hpass
    split at hpass
    · cases hpass
      exact h.passed (fun r hr => by cases hr) rfl rfl rfl rfl hwas
    · split at hpass
      · cases hpass
        refine h.passed (fun r hr => ?_) rfl rfl rfl rfl hwas
        rw [List.mem_singleton.mp hr]
        exact fun hc => by cases hc
      · -- the body of the node at the head is asked for
        cases hpass
        rw [hempty (Or.inl hstate) hpoll]
        refine ⟨fun k node hmem => ?_, fun henq => hwas henq, fun k i hmem => ?_,
          fun key ptr hc => by cases hc⟩
        · rcases List.mem_cons.mp hmem with hc | hc
          · cases hc
          · cases List.mem_singleton.mp hc
        · rcases List.mem_cons.mp hmem with heq | hc
          · cases heq
            exact ⟨rfl, rfl⟩
          · cases List.mem_singleton.mp hc
  | potentialSuccess =>
    rw [hstate] at hpass
    obtain ⟨_, hpoll, hpass⟩ := bind_eq_ok.mp hpass
    split at hpass
    · cases hpass
      rw [hempty (Or.inr hstate) hpoll]
      exact ⟨(fun k node hmem => by cases hmem), (fun _ hc => absurd rfl hc),
        (fun k i hmem => by cases hmem), fun key ptr hc => by cases hc⟩
    · cases hpass
      exact h.passed (fun r hr => by cases hr) rfl rfl rfl rfl hwas
  | readTail | readLastNode =>
    rw [hstate] at hpass
    cases hpass
    exact h.passed (fun r hr => by cases hr) rfl rfl rfl rfl hwas

end BodyOk

namespace MsBodies

variable {tr : MsTrace} {s : MsSys} {chain : Nat → List Nat}

/-- **A turn keeps the bodies.** -/
theorem step (hb : MsBodies d tr s) (h : MsInv d tr s chain) (hf : MsFits d) {k : Turn} {s' : MsSys}
    {e : MsEvent} (hle : ∀ g, (s.session g).queue.length ≤ (s.session g).issued)
    (hissued : ∀ g, g < d.globalSessionNum → (s.session g).issued < 2 ^ 32)
    (hserved : Service.served tr + 2 < 2 ^ 64) (hstep : d.msService.step s k = .ok (s', e)) :
    MsBodies d (tr ++ [(k, e)]) s' := by
  have hmoved : ∀ {g shared x}, BodyOk d s.store x → MsBodies d (tr ++ [(.client g, .moved)])
      ⟨s.store, shared, Function.update s.session g x⟩ := fun hx =>
    hb.keep h (Or.inl rfl) (fun _ _ _ _ => rfl) (fun _ _ _ => .same rfl rfl _ _) hx
  rcases Service.step_cases hstep with ⟨g, c, info, requests, rfl, hpass, rfl⟩ |
    ⟨g, spurious, r, queue, store, info, rfl, hqueue, hserve, rfl⟩
  · change (if g < d.globalSessionNum then _ else _) = _ at hpass
    split at hpass
    · rename_i hg
      have hbody := hb.sessions g hg
      obtain ⟨⟨c', info', requests'⟩, hms, hpass⟩ := bind_eq_ok.mp hpass
      cases hpass
      unfold Deployment.msPass at hms
      split at hms
      · rename_i hrunning
        change (s.shared (d.clientOf g)).phase = .running at hrunning
        obtain ⟨⟨cntr, info', requests'⟩, hloop, hms⟩ := bind_eq_ok.mp hms
        cases hms
        unfold Deployment.msLoopPass at hloop
        cases hstate : (s.session g).info.enqOrDeqState with
        | enqueuing =>
          rw [hstate] at hloop
          obtain ⟨⟨info', requests'⟩, henq, hloop⟩ := bind_eq_ok.mp hloop
          cases hloop
          refine hmoved (hbody.enqueuePass (h.keyPtr g hg) (fun hinit => ?_) hstate henq)
          -- its client is in the loop, so it does not wait for the flag
          have hat : (s.session g).info.At .enqueuing .init false ∧ (s.session g).queue = [] := by
            cases h.point g hg with
            | enqInit hat hqueue => exact ⟨hat, hqueue⟩
            | enqAsking hat hqueue =>
              rw [(h.phases.asking g hg hqueue).1] at hrunning
              cases hrunning
            | deqLoop _ hat => cases hstate.symm.trans hat.enqOrDeq
            | _ hat => cases hinit.symm.trans hat.state
          refine ⟨hat.2, msNode_lt hf (h.node_of_owned hg ?_)⟩
          rw [MsSessInfo.owned, hat.1.enqOrDeq, hat.1.success]
          rfl
        | dequeuing =>
          rw [hstate] at hloop
          refine hmoved (hbody.dequeuePass (fun hwaits hpoll => ?_) hstate hloop)
          have hlen := h.queue_of_poll hg (hle g) (hissued g hg) hstate rfl
            (by rcases hwaits with hc | hc <;> rw [hc] <;> decide) hpoll
          rw [if_neg (by rcases hwaits with hc | hc <;> rw [hc] <;> decide)] at hlen
          exact List.eq_nil_of_length_eq_zero (Nat.le_zero.mp hlen)
      · obtain ⟨-, hinfo, hcases⟩ := waitForInit_cases hms
        rw [hinfo]
        refine hmoved (hbody.passed ?_ rfl rfl rfl rfl fun henq hinit => ⟨henq, hinit, rfl⟩)
        rcases hcases with ⟨-, -, hreq⟩ | ⟨-, -, hreq, -⟩
        · intro r hr
          rw [hreq] at hr
          rw [List.mem_singleton.mp hr]
          trivial
        · intro r hr
          rw [hreq] at hr
          cases hr
    · cases hpass
  · exact hb.serve h hf hserved hqueue hserve

end MsBodies

/-! ## From the start -/

/-- **A pass of the first client** in session 0, before the set-up is executed. -/
theorem firstPass_writes (hf : MsFits d) (hpos : 0 < d.globalSessionNum) {x : MsSession}
    {own w requests : List MsReq} {info : MsSessInfo} (hfirst : FirstPass d x.info x.issued own)
    (hqueue : x.queue = w ++ .releaseFlag msInitDoneFlag :: own)
    (hle : x.queue.length ≤ x.issued) (hfew : x.issued < 2 ^ 32) {cntr cntr' : Nat}
    (hpass : d.msLoopPass cntr x = .ok (cntr', info, requests)) :
    WritesBody d info (own ++ requests) := by
  obtain ⟨hinfo, rfl, -, henq⟩ := hfirst.before_of_pass hqueue hle hfew hpass
  refine (BodyOk.enqInit_writes ?_ ?_ ?_ henq).2
  · rw [hinfo]
    rfl
  · rw [hinfo]
    rfl
  · rw [hinfo]
    exact msNode_lt hf (hf.owned_isNode hpos)

/-- How the first client sets the queues up, with the body that its session 0 writes. -/
def bodySetUpBy (d : Deployment) (hf : MsFits d) (hpos : 0 < d.globalSessionNum)
    (tail head : MsPtr) : SetUpBy d d.msService :=
  (msSetUpBy d tail head).also (fun info _ requests => WritesBody d info requests)
    (fun _ _ _ hmem => nomatch hmem) (by
      intro c x requests w c' info more e hphase hfirst _ hqueue hle hfew h
      obtain ⟨cntr, hloop, -⟩ := loopPass_of_pass hphase h
      exact firstPass_writes hf hpos hfirst hqueue hle hfew hloop)

theorem node_foldl_apply (requests : List MsReq) (store : MsStore) :
    (requests.foldl MsStore.apply store).node = store.node := by
  induction requests generalizing store with
  | nil => rfl
  | cons r requests ih =>
    rw [List.foldl_cons, ih]
    cases r <;> rfl

namespace MsBodies

variable {tail head : MsPtr} {tr : MsTrace} {s : MsSys}

/-- A session that has not begun. -/
theorem bodyOk_idle (store : MsStore) (g n : Nat) {queue : List MsReq}
    (hqueue : queue = [] ∨ queue = [.readFlag]) : BodyOk d store ⟨d.msSessInfo g, queue, n⟩ := by
  refine ⟨?_, fun _ hc => absurd rfl hc, ?_, ?_⟩
  · intro k node hmem
    rcases hqueue with rfl | rfl
    · nomatch hmem
    · nomatch List.mem_singleton.mp hmem
  · intro k i hmem
    rcases hqueue with rfl | rfl
    · nomatch hmem
    · nomatch List.mem_singleton.mp hmem
  · intro key ptr hc
    rcases hqueue with rfl | rfl
    · nomatch hc
    · nomatch hc

/-- What session 0 has issued behind the set-up. -/
theorem bodyOk_first (store : MsStore) {info : MsSessInfo} {issued : Nat} {requests : List MsReq}
    (hfirst : FirstPass d info issued requests) (hwrites : WritesBody d info requests) :
    BodyOk d store ⟨info, requests, issued⟩ := by
  cases hfirst with
  | before hinfo =>
    rw [hinfo]
    exact bodyOk_idle store 0 issued (Or.inl rfl)
  | made =>
    refine ⟨hwrites, fun _ _ _ hnone => absurd List.mem_cons_self (hnone _ _), fun k i hmem => ?_,
      fun key ptr hc => nomatch hc⟩
    rcases List.mem_cons.mp hmem with hc | hmem
    · nomatch hc
    · rcases List.mem_cons.mp hmem with hc | hc
      · nomatch hc
      · nomatch List.mem_singleton.mp hc

/-- **The queues are set up**: nobody has written a body. -/
theorem start {hf : MsFits d} {hpos : 0 < d.globalSessionNum}
    (h : SettingUp (bodySetUpBy d hf hpos tail head) (d.msStart tail head).store tr s [])
    {turn : Turn} {e : MsEvent} (he : e = .moved ∨ e = .served) {flag issued : Nat}
    {info : MsSessInfo} {requests : List MsReq}
    (hfirst : FirstPass d info issued requests ∧ WritesBody d info requests) :
    MsBodies d (tr ++ [(turn, e)]) ⟨{ s.store with initDone := flag }, s.shared,
      Function.update s.session 0 ⟨info, requests, issued⟩⟩ where
  values q _ := by
    have hnode : s.store.node = fun _ => ⟨0, 0⟩ := by
      have hstored := h.stored
      rw [List.foldl_nil] at hstored
      rw [hstored]
      exact node_foldl_apply _ _
    obtain ⟨hentered, hleft⟩ : entered (tr ++ [(turn, e)]) q = [] ∧ left (tr ++ [(turn, e)]) q = [] :=
      MsInv.no_events (h.events_concat he) q
    show List.map s.store.node _ = _
    rw [Deployment.msBodies, hentered, hleft, hnode]
    rfl
  sessions g _ := by
    show BodyOk d _ (Function.update s.session 0 _ g)
    by_cases hne : g = 0
    · rw [hne, Function.update_self]
      exact bodyOk_first _ hfirst.1 hfirst.2
    · rw [Function.update_of_ne hne]
      obtain ⟨hinfo, hqueue⟩ := h.others g hne
      have hidle : BodyOk d _ ⟨d.msSessInfo g, (s.session g).queue, (s.session g).issued⟩ :=
        bodyOk_idle { s.store with initDone := flag } g _ hqueue
      change (s.session g).info = d.msSessInfo g at hinfo
      rw [← hinfo] at hidle
      exact hidle

end MsBodies

/-- What a run under the conditions has reached, with the bodies. -/
theorem ms_run_bodies (hf : MsFits d) (hpos : 0 < d.globalSessionNum) {tail head : MsPtr}
    {tr : MsTrace} {s : MsSys} (hrun : Run d.msService.step (d.msStart tail head) tr s)
    (hfew : ∀ g, g < d.globalSessionNum → (s.session g).issued < 2 ^ 32)
    (hfirst : SetUpFirst d (d.msSetUp tail head).length tr) :
    (∃ w, SettingUp (bodySetUpBy d hf hpos tail head) (d.msStart tail head).store tr s w) ∨
      ∃ chain, MsInv d tr s chain ∧ MsBodies d tr s := by
  have hlength : (d.msSetUp tail head).length = (bodySetUpBy d hf hpos tail head).writes.length + 1 :=
    List.length_append
  have hstart : (bodySetUpBy d hf hpos tail head).Start (d.msStart tail head) :=
    (msSetUpBy_start hpos tail head).also
  rw [hlength] at hfirst
  refine (bodySetUpBy d hf hpos tail head).invariant hf hpos hstart
    (fun tr s => ∃ chain, MsInv d tr s chain ∧ MsBodies d tr s) ?_ ?_ ?_ hrun hfew hfirst
  · intro tr s spurious requests store info e h hpass hserve
    cases hserve
    exact ⟨_, MsInv.start h.of_also hf hpos (Or.inr rfl) rfl hpass.1, .start h (Or.inr rfl) hpass⟩
  · rintro tr s ⟨chain, h, -⟩ g hg
    exact (h.outside g hg).2
  · rintro tr s k s' e ⟨chain, h, hb⟩ hle hissued hserved hstep
    obtain ⟨chain', h'⟩ := h.step hf hle hissued hserved hstep
    exact ⟨chain', h', hb.step h hf hle hissued hserved hstep⟩

/-! ## The value of a dequeue -/

namespace MsBodies

variable {tr : MsTrace} {s s' : MsSys} {chain : Nat → List Nat} {g q k : Nat}

/-- **What a dequeue has read** is the body of the first node, and there is another one behind it. -/
theorem read_first (hb : MsBodies d tr s) (h : MsInv d tr s chain) {spurious : Bool}
    (hstep : d.msService.step s (.store g spurious) = .ok (s', .dequeued q k)) :
    q < d.msQueuesNum ∧ (∃ own l, chain q = k :: own :: l) ∧
      (s'.session g).info.newNode 0 = s.store.node k := by
  rcases Service.step_cases hstep with ⟨_, _, _, _, hc, -⟩ |
    ⟨g', spurious', r, queue, store, info, heq, hqueue, hserve, rfl⟩
  · nomatch hc
  cases heq
  have hg : g < d.globalSessionNum := by
    by_contra hc
    rw [(h.outside g (Nat.le_of_not_lt hc)).1] at hqueue
    nomatch hqueue
  have hq := h.queue_lt g hg
  change msServe spurious s.store (s.session g).info r = _ at hserve
  show _ ∧ _ ∧ (Function.update s.session g _ g).info.newNode 0 = _
  rw [Function.update_self]
  cases (h.point g hg).front hqueue with
  | readFlag => nomatch hserve
  | readPtr => nomatch hserve
  | writeNode => nomatch hserve
  | writePtr => nomatch hserve
  | readNode => nomatch hserve
  | tail =>
    rcases MsInv.msServe_cas hserve with ⟨-, -, -, hc⟩ | ⟨-, -, hc⟩
    · nomatch hc
    · nomatch hc
  | lastNode =>
    rcases MsInv.msServe_cas hserve with ⟨-, -, -, hc⟩ | ⟨-, -, hc⟩
    · nomatch hc
    · nomatch hc
  | @head ptr hat hptr hlater hapart =>
    rcases MsInv.msServe_cas hserve with ⟨hcas, -, rfl, heq⟩ | ⟨-, -, hc⟩
    · cases heq
      have hstill : s.store.head d (s.session g).info.queueId = (s.session g).info.head := hcas
      refine ⟨hq, ?_, (hb.sessions g hg).read _ _ hqueue hstill⟩
      obtain ⟨l, hl, -⟩ := h.chain_eq hq
      rw [hstill] at hl
      have hmem := h.tail_mem _ hq
      rw [hl] at hmem
      rcases List.mem_cons.mp hmem with hc | hmem
      · exact absurd hc (hapart hstill)
      · obtain ⟨own, l', rfl⟩ := List.exists_cons_of_ne_nil (List.ne_nil_of_mem hmem)
        exact ⟨own, l', hl⟩
    · nomatch hc

/-- The `n`-th dequeue has read what the enqueue before wrote, and not the value that is due. -/
theorem read_before (hb : MsBodies d tr s) (h : MsInv d tr s chain) {spurious : Bool}
    (hstep : d.msService.step s (.store g spurious) = .ok (s', .dequeued q k)) :
    (d.msBodies tr q)[(left tr q).length]? = some ((s'.session g).info.newNode 0) ∧
      ∃ own, (entered tr q)[(left tr q).length]? = some own ∧
        (s'.session g).info.newNode 0 ≠ d.msBody own := by
  obtain ⟨hq, ⟨own, l, hl⟩, hread⟩ := hb.read_first h hstep
  have hnodes := h.chain_drop hq
  have hvalues := hb.values q hq
  have hnodup := h.nodup q hq
  rw [hnodes, hl, List.map_cons] at hvalues
  rw [hl] at hnodes hnodup
  have hown : (entered tr q)[(left tr q).length]? = some own := by
    have hsecond := congrArg (fun l => l[1]?) hnodes
    simp only [List.getElem?_drop] at hsecond
    exact hsecond
  have hbody : (d.msBodies tr q)[(left tr q).length]? = some (s.store.node k) := by
    have hfirst := congrArg (fun l => l[0]?) hvalues
    simp only [List.getElem?_drop] at hfirst
    exact hfirst.symm
  have hne : k ≠ own := by
    rintro rfl
    exact (List.nodup_cons.mp hnodup).1 List.mem_cons_self
  rw [hread]
  refine ⟨hbody, own, hown, fun hc => ?_⟩
  have hkey : (s.store.node k).nodeId = own := by rw [hc]; rfl
  have hfirst : (d.dummyKey q :: entered tr q)[(left tr q).length]? = some k := by
    have hhead := congrArg (fun l => l[0]?) hnodes
    simp only [List.getElem?_drop] at hhead
    exact hhead
  cases hn : (left tr q).length with
  | zero =>
    -- the body of the dummy
    rw [hn] at hbody
    have hzero : s.store.node k = ⟨0, 0⟩ := (Option.some.inj hbody).symm
    rw [hzero] at hkey
    have hmem : own ∈ chain q := by
      rw [hl]
      exact List.mem_cons_of_mem _ List.mem_cons_self
    exact MsInv.isMsNode_ne_zero (h.node_of_mem hq hmem) hkey.symm
  | succ n =>
    rw [hn] at hbody hfirst
    have hmap : ((entered tr q).map d.msBody)[n]? = some (s.store.node k) := hbody
    have hprev : (entered tr q)[n]? = some k := hfirst
    rw [List.getElem?_map, hprev] at hmap
    rw [← Option.some.inj hmap] at hkey
    exact hne hkey

end MsBodies

/-- Nothing is dequeued while the set-up is executed. -/
theorem settingUp_not_dequeued {hf : MsFits d} {hpos : 0 < d.globalSessionNum} {tail head : MsPtr}
    {store : MsStore} {tr : MsTrace} {s s' : MsSys} {w : List MsReq}
    (h : SettingUp (bodySetUpBy d hf hpos tail head) store tr s w)
    (hle : (s.session 0).queue.length ≤ (s.session 0).issued) (hfew : (s.session 0).issued < 2 ^ 32)
    {g q k : Nat} {spurious : Bool} :
    d.msService.step s (.store g spurious) ≠ .ok (s', .dequeued q k) := by
  intro hstep
  rcases h.step hpos hle hfew (by intro g hc; nomatch hc) hstep with
    ⟨w', h'⟩ | ⟨spurious, requests, store', info, -, -, -, hserve, -⟩
  · rcases h'.events _ (List.mem_append_right _ (List.mem_singleton_self _)) with hc | hc
    · nomatch hc
    · nomatch hc
  · change (_, _, MsEvent.served) = _ at hserve
    nomatch hserve

/-- Without a session, nothing is issued but the flag. -/
theorem only_release (hnone : d.globalSessionNum = 0) {tail head : MsPtr} {tr : MsTrace} {s : MsSys}
    (hrun : Run d.msService.step (d.msStart tail head) tr s) :
    ∀ g, ∀ r ∈ (s.session g).queue, r = .releaseFlag msInitDoneFlag := by
  refine hrun.invariant (fun _ s => ∀ g, ∀ r ∈ (s.session g).queue, r = .releaseFlag msInitDoneFlag)
    ?_ ?_
  · intro g r hr
    by_cases hg : g = 0
    · subst hg
      change r ∈ d.msSetUp tail head at hr
      rw [Deployment.msSetUp, Deployment.msQueuesNum, hnone] at hr
      exact List.mem_singleton.mp hr
    · have hempty : ((d.msStart tail head).session g).queue = [] := by
        show (if g = 0 then _ else _ : MsSession).queue = []
        rw [if_neg hg]
      rw [hempty] at hr
      cases hr
  · intro tr s k s' e _ h hstep g' r hr
    rcases Service.step_cases hstep with ⟨g, c, info, requests, rfl, hpass, rfl⟩ |
      ⟨g, spurious, r', queue, store, info, rfl, hqueue, hserve, rfl⟩
    · change (if g < d.globalSessionNum then _ else _) = _ at hpass
      rw [if_neg (by omega)] at hpass
      cases hpass
    · change r ∈ (Function.update s.session g _ g').queue at hr
      by_cases hg : g' = g
      · subst hg
        rw [Function.update_self] at hr
        exact h g' r (by rw [hqueue]; exact List.mem_cons_of_mem _ hr)
      · rw [Function.update_of_ne hg] at hr
        exact h g' r hr

/-- **A dequeue reads the value before the one that is due**: the first one of a queue reads the body
    of the dummy, which nobody has written, and every other one what the enqueue before wrote. -/
theorem dequeue_reads_before (hf : MsFits d) {tail head : MsPtr} {tr : MsTrace} {s s' : MsSys}
    (hrun : Run d.msService.step (d.msStart tail head) tr s)
    (hfew : ∀ g, g < d.globalSessionNum → (s.session g).issued < 2 ^ 32)
    (hfirst : SetUpFirst d (d.msSetUp tail head).length tr) {g q k : Nat} {spurious : Bool}
    (hstep : d.msService.step s (.store g spurious) = .ok (s', .dequeued q k)) :
    (d.msBodies tr q)[(left tr q).length]? = some ((s'.session g).info.newNode 0) ∧
      ∃ own, (entered tr q)[(left tr q).length]? = some own ∧
        (s'.session g).info.newNode 0 ≠ d.msBody own := by
  rcases Nat.eq_zero_or_pos d.globalSessionNum with hnone | hpos
  · rcases Service.step_cases hstep with ⟨_, _, _, _, hc, -⟩ |
      ⟨g', spurious', r, queue, store, info, -, hqueue, hserve, -⟩
    · nomatch hc
    · have hr := only_release hnone hrun g' r (by rw [hqueue]; exact List.mem_cons_self)
      subst hr
      nomatch hserve
  · have hstart : (bodySetUpBy d hf hpos tail head).Start (d.msStart tail head) :=
      (msSetUpBy_start hpos tail head).also
    have hle := Service.queue_le_issued (fun g => Nat.le_of_eq (hstart.issued_eq g)) hrun
    rcases ms_run_bodies hf hpos hrun hfew hfirst with ⟨w, h⟩ | ⟨chain, h, hb⟩
    · exact absurd hstep (settingUp_not_dequeued h (hle 0) (hfew 0 hpos))
    · exact hb.read_before h hstep

end Odyssey
