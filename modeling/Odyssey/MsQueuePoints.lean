/-
  WHAT A SESSION OF THE MICHAEL-SCOTT QUEUES KNOWS.

  `MsPoint` says, for every point that a session can be at, which of its requests wait and what it
  knows.  What it knows of pointers that it has read is always of one of two forms:

  * while the head (or the tail) is the one that was read, something holds of the nodes behind it:
    the counters of heads and tails only grow, so none of them comes back (`MsPtr.Later`), and a
    node keeps its pointer as long as it is in a queue with another node behind it;
  * the pointer of the node at the tail is the one that was read, and then the node is still the
    last of the queue, or it was counted since (`LastLink`).

  `MsFrame` is what a step of another session may do to the store, and `MsFrame.point` says that
  it leaves a session at its point.
-/
import Odyssey.MsQueue
import Odyssey.Lib.Paths

namespace Odyssey

open Lib

variable {d : Deployment}

/-! ## Keys -/

/-- What the keys need: the sessions are numbered apart by a `uint16_t`. -/
def MsFits (d : Deployment) : Prop := d.globalSessionNum ≤ 2 ^ 16

/-- The keys of the nodes, the dummies included. -/
def Deployment.isMsNode (d : Deployment) (k : Nat) : Prop :=
  d.dummyKeyIdOffset ≤ k ∧ k < d.msInitDoneFlagKey

/-- The key of a head. -/
def Deployment.headKey (d : Deployment) (q : Nat) : Nat := u32 (q + d.msHeadKeyIdOffset)

namespace MsFits

variable {q q' k k' : Nat}

theorem headKey_eq (h : MsFits d) (hq : q < d.msQueuesNum) : d.headKey q = q + d.msQueuesNum := by
  unfold MsFits at h
  unfold Deployment.msQueuesNum at hq
  unfold Deployment.headKey Deployment.msHeadKeyIdOffset Deployment.msQueuesNum
  rw [u32_of_lt (by omega)]

theorem linkKey_eq (h : MsFits d) (hk : d.isMsNode k) :
    d.msGetNodePtrKeyId k = 2 * d.msQueuesNum + (k - d.dummyKeyIdOffset) := by
  obtain ⟨hlo, hhi⟩ := hk
  unfold MsFits at h
  have hdummy : d.dummyKeyIdOffset = 4 * d.globalSessionNum + 1 := by
    unfold Deployment.dummyKeyIdOffset Deployment.lastMsNodePtr Deployment.msNodePtrOffset
      Deployment.msQueuesNum
    omega
  have hflag : d.msInitDoneFlagKey = 6 * d.globalSessionNum + 1 := by
    unfold Deployment.msInitDoneFlagKey Deployment.msNodeKeyOffset Deployment.msQueuesNum msWritesNum
    omega
  unfold Deployment.msGetNodePtrKeyId Deployment.msNodePtrOffset Deployment.msQueuesNum msWritesNum
    u32
  omega

theorem linkKey_inj (h : MsFits d) (hk : d.isMsNode k) (hk' : d.isMsNode k')
    (heq : d.msGetNodePtrKeyId k = d.msGetNodePtrKeyId k') : k = k' := by
  rw [h.linkKey_eq hk, h.linkKey_eq hk'] at heq
  have hlo := hk.1
  have hlo' := hk'.1
  omega

theorem headKey_inj (h : MsFits d) (hq : q < d.msQueuesNum) (hq' : q' < d.msQueuesNum)
    (heq : d.headKey q = d.headKey q') : q = q' := by
  rw [h.headKey_eq hq, h.headKey_eq hq'] at heq
  omega

theorem tail_ne_head (h : MsFits d) (hq : q < d.msQueuesNum) (hq' : q' < d.msQueuesNum) :
    q ≠ d.headKey q' := by
  rw [h.headKey_eq hq']
  omega

theorem tail_ne_link (h : MsFits d) (hq : q < d.msQueuesNum) (hk : d.isMsNode k) :
    q ≠ d.msGetNodePtrKeyId k := by
  rw [h.linkKey_eq hk]
  omega

theorem head_ne_link (h : MsFits d) (hq : q < d.msQueuesNum) (hk : d.isMsNode k) :
    d.headKey q ≠ d.msGetNodePtrKeyId k := by
  rw [h.headKey_eq hq, h.linkKey_eq hk]
  omega

end MsFits

/-! ## Heads, tails and links -/

namespace MsStore

variable (d) (store : MsStore)

/-- The tail of a queue. -/
def tail (q : Nat) : MsPtr := store.ptr q

/-- The head of a queue. -/
def head (q : Nat) : MsPtr := store.ptr (d.headKey q)

/-- The pointer of a node. -/
def link (k : Nat) : MsPtr := store.ptr (d.msGetNodePtrKeyId k)

/-- The node after a node. -/
def next (k : Nat) : Nat := (store.link d k).nextKeyId

end MsStore

/-- The pointer is the same, or was counted since. -/
def MsPtr.Later (old cur : MsPtr) : Prop := cur = old ∨ old.counter < cur.counter

namespace MsPtr.Later

variable {a b c : MsPtr}

theorem refl (a : MsPtr) : a.Later a := Or.inl rfl

theorem trans (h : a.Later b) (h' : b.Later c) : a.Later c := by
  rcases h with rfl | h
  · exact h'
  · rcases h' with rfl | h'
    · exact Or.inr h
    · exact Or.inr (Nat.lt_trans h h')

/-- **No head and no tail comes back.** -/
theorem antisymm (h : a.Later b) (h' : b.Later a) : b = a := by
  rcases h with rfl | h
  · rfl
  · rcases h' with rfl | h'
    · rfl
    · exact absurd h (Nat.lt_asymm h')

theorem eq_of_counter (h : a.Later b) (hcounter : b.counter = a.counter) : b = a := by
  rcases h with heq | hlt
  · exact heq
  · omega

end MsPtr.Later

/-! ## What a session knows -/

/-- The pointer of node `k` is what was read, and the node the last of the queue; or it was swapped
    since. -/
def LastLink (d : Deployment) (store : MsStore) (chain : List Nat) (k : Nat) (last : MsPtr) : Prop :=
  (store.link d k = last ∧ k ∈ chain) ∨ last.counter < (store.link d k).counter

/-- While the tail is the one that was read, node `n` comes after it. -/
structure TailBefore (d : Deployment) (store : MsStore) (q : Nat) (tail : MsPtr) (n : Nat) : Prop where
  later : tail.Later (store.tail q)
  next : store.tail q = tail → store.next d tail.nextKeyId = n ∧ n ≠ 0

/-- What was read of the node at the tail: that it is the last one, or which is the next. -/
structure LastRead (d : Deployment) (store : MsStore) (chain : List Nat) (k : Nat) (last : MsPtr) :
    Prop where
  isLast : last.nextKeyId = 0 → LastLink d store chain k last
  isNot : last.nextKeyId ≠ 0 → store.link d k = last

/-- The head and the tail of its queue that a session has read: if the head is still the same and
    they were different nodes, they are now. -/
structure EndsRead (d : Deployment) (store : MsStore) (info : MsSessInfo) : Prop where
  head : info.head.Later (store.head d info.queueId)
  tail : info.tail.Later (store.tail info.queueId)
  apart : store.head d info.queueId = info.head → info.tail.nextKeyId ≠ info.head.nextKeyId →
    (store.tail info.queueId).nextKeyId ≠ info.head.nextKeyId

/-- What was read of the first node, if the head is still the same. -/
def FirstRead (d : Deployment) (store : MsStore) (info : MsSessInfo) : Prop :=
  store.head d info.queueId = info.head →
    store.link d info.head.nextKeyId = info.ownedNodePtr ∧ info.ownedNodePtr.nextKeyId ≠ 0

/-- A pointer that counts `old`, to node `n`. -/
structure MsPtr.Counts (ptr old : MsPtr) (n : Nat) : Prop where
  next : ptr.nextKeyId = n
  counter : ptr.counter = u64 (old.counter + 1)

/-- A swap of the tail that a session does not wait for. -/
inductive TailSwap (d : Deployment) (store : MsStore) (info : MsSessInfo) : List MsReq → Prop
  | none : TailSwap d store info []
  | swap {ptr : MsPtr} {n : Nat} (hptr : ptr.Counts info.tail n)
      (hbefore : TailBefore d store info.queueId info.tail n) :
      TailSwap d store info [.cas info.queueId .tail ptr]

theorem TailSwap.congr {store : MsStore} {info info' : MsSessInfo} {swap : List MsReq}
    (h : TailSwap d store info swap) (htail : info'.tail = info.tail)
    (hqueue : info'.queueId = info.queueId) : TailSwap d store info' swap := by
  cases h with
  | none => exact .none
  | swap hptr hbefore =>
    rw [← hqueue] at hbefore ⊢
    rw [← htail] at hptr hbefore
    exact .swap hptr hbefore

/-! ## Where a session is -/

namespace MsSessInfo

variable (info : MsSessInfo)

/-- The node that a session owns: the one it is going to enqueue, until it is linked, and the one
    it has dequeued. -/
def owned : Option Nat :=
  match info.enqOrDeqState with
  | .enqueuing => if info.success = true then none else some info.ownedKey
  | .dequeuing => if info.success = true then some info.head.nextKeyId else none

/-- Where the state machines are. -/
structure At (p : EnqOrDeq) (state : MsState) (success : Bool) : Prop where
  enqOrDeq : info.enqOrDeqState = p
  state : info.state = state
  success : info.success = success

end MsSessInfo

/-- **The points of a session**, in order, with the requests that wait there. -/
inductive MsPoint (d : Deployment) (store : MsStore) (chain : List Nat) (x : MsSession) : Prop
  | enqInit (hat : x.info.At .enqueuing .init false) (hqueue : x.queue = [])
      (hcounter : (store.link d x.info.ownedKey).counter = x.info.ownedNodePtr.counter)
  | enqAsking (hat : x.info.At .enqueuing .init false) (hqueue : x.queue = [.readFlag])
      (hcounter : (store.link d x.info.ownedKey).counter = x.info.ownedNodePtr.counter)
  | enqWriting {k : Nat} {node : MsNode} {ptr : MsPtr} (hat : x.info.At .enqueuing .readTail false)
      (hqueue : x.queue = [.writeNode k node, .writePtr x.info.ownedKeyPtr ptr,
        .readPtr x.info.queueId .tail])
      (hnext : ptr.nextKeyId = 0)
      (hcounter : (store.link d x.info.ownedKey).counter = ptr.counter)
  | enqWritingPtr {ptr : MsPtr} (hat : x.info.At .enqueuing .readTail false)
      (hqueue : x.queue = [.writePtr x.info.ownedKeyPtr ptr, .readPtr x.info.queueId .tail])
      (hnext : ptr.nextKeyId = 0)
      (hcounter : (store.link d x.info.ownedKey).counter = ptr.counter)
  | enqLoop (hat : x.info.At .enqueuing .loopStart false) (hswap : TailSwap d store x.info x.queue)
      (hwritten : store.next d x.info.ownedKey = 0)
  | enqReadingTail {swap : List MsReq} (hat : x.info.At .enqueuing .readTail false)
      (hqueue : x.queue = swap ++ [.readPtr x.info.queueId .tail])
      (hswap : TailSwap d store x.info swap) (hwritten : store.next d x.info.ownedKey = 0)
  | enqTail (hat : x.info.At .enqueuing .readTail false) (hqueue : x.queue = [])
      (hwritten : store.next d x.info.ownedKey = 0)
      (htail : x.info.tail.Later (store.tail x.info.queueId))
  | enqReadingLast (hat : x.info.At .enqueuing .readLastNode false)
      (hqueue : x.queue = [.readPtr (d.msGetNodePtrKeyId x.info.tail.nextKeyId) .lastNodePtr,
        .readPtr x.info.queueId .secondTail])
      (hwritten : store.next d x.info.ownedKey = 0)
      (htail : x.info.tail.Later (store.tail x.info.queueId))
  | enqReadingSecond (hat : x.info.At .enqueuing .readLastNode false)
      (hqueue : x.queue = [.readPtr x.info.queueId .secondTail])
      (hwritten : store.next d x.info.ownedKey = 0)
      (htail : x.info.tail.Later (store.tail x.info.queueId))
      (hlast : store.tail x.info.queueId = x.info.tail →
        LastRead d store chain x.info.tail.nextKeyId x.info.lastOrFirstNodeMsPtr)
  | enqLast (hat : x.info.At .enqueuing .readLastNode false) (hqueue : x.queue = [])
      (hwritten : store.next d x.info.ownedKey = 0)
      (htail : x.info.tail.Later (store.tail x.info.queueId))
      (hlast : x.info.secondTail.counter = x.info.tail.counter →
        (x.info.lastOrFirstNodeMsPtr.nextKeyId = 0 →
          LastLink d store chain x.info.tail.nextKeyId x.info.lastOrFirstNodeMsPtr) ∧
        (x.info.lastOrFirstNodeMsPtr.nextKeyId ≠ 0 → TailBefore d store x.info.queueId x.info.tail
          x.info.lastOrFirstNodeMsPtr.nextKeyId))
  | enqSwapping {ptr : MsPtr} (hat : x.info.At .enqueuing .potentialSuccess false)
      (hqueue : x.queue = [.cas (d.msGetNodePtrKeyId x.info.tail.nextKeyId) .lastNode ptr])
      (hptr : ptr.Counts x.info.lastOrFirstNodeMsPtr x.info.ownedKey)
      (hwritten : store.next d x.info.ownedKey = 0)
      (htail : x.info.tail.Later (store.tail x.info.queueId))
      (hnext : x.info.lastOrFirstNodeMsPtr.nextKeyId = 0)
      (hlast : LastLink d store chain x.info.tail.nextKeyId x.info.lastOrFirstNodeMsPtr)
  | enqFailed (hat : x.info.At .enqueuing .potentialSuccess false) (hqueue : x.queue = [])
      (hwritten : store.next d x.info.ownedKey = 0)
  | enqueued (hat : x.info.At .enqueuing .potentialSuccess true) (hqueue : x.queue = [])
      (hbefore : TailBefore d store x.info.queueId x.info.tail x.info.ownedKey)
  | deqLoop {state : MsState} (hstate : state = .init ∨ state = .loopStart)
      (hat : x.info.At .dequeuing state false) (hswap : TailSwap d store x.info x.queue)
  | deqReadingHead {swap : List MsReq} (hat : x.info.At .dequeuing .readHead false)
      (hqueue : x.queue = swap ++ [.readPtr (d.headKey x.info.queueId) .head,
        .readPtr x.info.queueId .tail])
      (hswap : TailSwap d store x.info swap)
  | deqReadingTail (hat : x.info.At .dequeuing .readHead false)
      (hqueue : x.queue = [.readPtr x.info.queueId .tail])
      (hhead : x.info.head.Later (store.head d x.info.queueId))
  | deqEnds (hat : x.info.At .dequeuing .readHead false) (hqueue : x.queue = [])
      (hends : EndsRead d store x.info)
  | deqReadingAll (hat : x.info.At .dequeuing .readFirstNode false)
      (hqueue : x.queue = [.readPtr x.info.queueId .tail,
        .readPtr (d.msGetNodePtrKeyId x.info.head.nextKeyId) .ownedNodePtr,
        .readPtr (d.headKey x.info.queueId) .secondHead])
      (hhead : x.info.head.Later (store.head d x.info.queueId))
  | deqReadingFirst (hat : x.info.At .dequeuing .readFirstNode false)
      (hqueue : x.queue = [.readPtr (d.msGetNodePtrKeyId x.info.head.nextKeyId) .ownedNodePtr,
        .readPtr (d.headKey x.info.queueId) .secondHead])
      (hends : EndsRead d store x.info)
  | deqReadingSecond (hat : x.info.At .dequeuing .readFirstNode false)
      (hqueue : x.queue = [.readPtr (d.headKey x.info.queueId) .secondHead])
      (hends : EndsRead d store x.info) (hfirst : FirstRead d store x.info)
  | deqFirst (hat : x.info.At .dequeuing .readFirstNode false) (hqueue : x.queue = [])
      (hends : EndsRead d store x.info)
      (hfirst : FirstRead d store x.info)
      (hbefore : x.info.secondHead.counter = x.info.head.counter →
        x.info.head.nextKeyId = x.info.tail.nextKeyId →
        TailBefore d store x.info.queueId x.info.tail x.info.ownedNodePtr.nextKeyId)
  | deqReadingNode {k i : Nat} {ptr : MsPtr} (hat : x.info.At .dequeuing .potentialSuccess false)
      (hqueue : x.queue = [.readNode k i, .cas (d.headKey x.info.queueId) .head ptr])
      (hptr : ptr.Counts x.info.head x.info.ownedNodePtr.nextKeyId)
      (hends : EndsRead d store x.info) (hfirst : FirstRead d store x.info)
      (hapart : x.info.tail.nextKeyId ≠ x.info.head.nextKeyId)
  | deqSwapping {ptr : MsPtr} (hat : x.info.At .dequeuing .potentialSuccess false)
      (hqueue : x.queue = [.cas (d.headKey x.info.queueId) .head ptr])
      (hptr : ptr.Counts x.info.head x.info.ownedNodePtr.nextKeyId)
      (hends : EndsRead d store x.info) (hfirst : FirstRead d store x.info)
      (hapart : x.info.tail.nextKeyId ≠ x.info.head.nextKeyId)
  | deqFailed (hat : x.info.At .dequeuing .potentialSuccess false) (hqueue : x.queue = [])
  | dequeued (hat : x.info.At .dequeuing .potentialSuccess true) (hqueue : x.queue = [])
      (hcounter : (store.link d x.info.head.nextKeyId).counter = x.info.ownedNodePtr.counter)

/-! ## What the others do -/

/-- What a step of another session may do to the store. -/
structure MsFrame (d : Deployment) (store store' : MsStore) (chain chain' : Nat → List Nat)
    (owned : Option Nat) : Prop where
  counter : ∀ key, (store.ptr key).counter ≤ (store'.ptr key).counter
  tail : ∀ q, q < d.msQueuesNum → (store.tail q).Later (store'.tail q)
  head : ∀ q, q < d.msQueuesNum → (store.head d q).Later (store'.head d q)
  /-- a node that is not the last one keeps its pointer -/
  linked : ∀ q k, q < d.msQueuesNum → k ∈ chain q → store.next d k ≠ 0 →
    store'.link d k = store.link d k
  /-- the last one keeps it, and stays, or it is swapped -/
  last : ∀ q k, q < d.msQueuesNum → k ∈ chain q → store.next d k = 0 →
    (store'.link d k = store.link d k ∧ k ∈ chain' q) ∨
      (store.link d k).counter < (store'.link d k).counter
  owned : ∀ k, owned = some k → store'.link d k = store.link d k
  /-- the tail does not fall back on the head -/
  apart : ∀ q, q < d.msQueuesNum → store'.head d q = store.head d q →
    (store.tail q).nextKeyId ≠ (store.head d q).nextKeyId →
    (store'.tail q).nextKeyId ≠ (store.head d q).nextKeyId

/-- The nodes at the ends of a queue are in it. -/
structure EndsIn (d : Deployment) (store : MsStore) (chain : Nat → List Nat) : Prop where
  tail : ∀ q, q < d.msQueuesNum → (store.tail q).nextKeyId ∈ chain q
  head : ∀ q, q < d.msQueuesNum → (store.head d q).nextKeyId ∈ chain q

namespace MsFrame

variable {store store' : MsStore} {chain chain' : Nat → List Nat} {owned : Option Nat} {q k n : Nat}
  {last tail : MsPtr} {info : MsSessInfo}

theorem lastLink (hf : MsFrame d store store' chain chain' owned) (hq : q < d.msQueuesNum)
    (hlast : last.nextKeyId = 0) (h : LastLink d store (chain q) k last) :
    LastLink d store' (chain' q) k last := by
  rcases h with ⟨heq, hk⟩ | hlt
  · have hnext : store.next d k = 0 := by
      rw [MsStore.next, heq, hlast]
    rcases hf.last q k hq hk hnext with ⟨heq', hk'⟩ | hlt
    · exact Or.inl ⟨by rw [heq', heq], hk'⟩
    · exact Or.inr (by rw [← heq]; exact hlt)
  · exact Or.inr (Nat.lt_of_lt_of_le hlt (hf.counter _))

theorem tailBefore (hf : MsFrame d store store' chain chain' owned) (hin : EndsIn d store chain)
    (hq : q < d.msQueuesNum) (h : TailBefore d store q tail n) : TailBefore d store' q tail n where
  later := h.later.trans (hf.tail q hq)
  next hsame := by
    have hstill : store.tail q = tail := h.later.antisymm (hsame ▸ hf.tail q hq)
    obtain ⟨hnext, hne⟩ := h.next hstill
    have hmem := hin.tail q hq
    rw [hstill] at hmem
    refine ⟨?_, hne⟩
    rw [MsStore.next, hf.linked q _ hq hmem (by rw [hnext]; exact hne)]
    exact hnext

theorem lastRead (hf : MsFrame d store store' chain chain' owned) (hq : q < d.msQueuesNum)
    (hk : k ∈ chain q) (h : LastRead d store (chain q) k last) :
    LastRead d store' (chain' q) k last where
  isLast hlast := hf.lastLink hq hlast (h.isLast hlast)
  isNot hlast := by
    have heq := h.isNot hlast
    rw [hf.linked q k hq hk (by rw [MsStore.next, heq]; exact hlast), heq]

theorem endsRead (hf : MsFrame d store store' chain chain' owned)
    (hq : info.queueId < d.msQueuesNum) (h : EndsRead d store info) : EndsRead d store' info where
  head := h.head.trans (hf.head _ hq)
  tail := h.tail.trans (hf.tail _ hq)
  apart hsame hne := by
    have hstill : store.head d info.queueId = info.head := h.head.antisymm (hsame ▸ hf.head _ hq)
    have happart := hf.apart _ hq (by rw [hsame, hstill])
    rw [hstill] at happart
    exact happart (h.apart hstill hne)

theorem firstRead (hf : MsFrame d store store' chain chain' owned) (hin : EndsIn d store chain)
    (hq : info.queueId < d.msQueuesNum) (hhead : info.head.Later (store.head d info.queueId))
    (h : FirstRead d store info) : FirstRead d store' info := by
  intro hsame
  have hstill : store.head d info.queueId = info.head := hhead.antisymm (hsame ▸ hf.head _ hq)
  obtain ⟨heq, hne⟩ := h hstill
  have hmem := hin.head _ hq
  rw [hstill] at hmem
  refine ⟨?_, hne⟩
  rw [hf.linked _ _ hq hmem (by rw [MsStore.next, heq]; exact hne), heq]

theorem tailSwap (hf : MsFrame d store store' chain chain' owned) (hin : EndsIn d store chain)
    (hq : info.queueId < d.msQueuesNum) {swap : List MsReq} (h : TailSwap d store info swap) :
    TailSwap d store' info swap := by
  cases h with
  | none => exact .none
  | swap hptr hbefore => exact .swap hptr (hf.tailBefore hin hq hbefore)

/-- No pointer is written. -/
theorem same (hptr : store'.ptr = store.ptr) (owned : Option Nat) :
    MsFrame d store store' chain chain owned := by
  have hlink : store'.link d = store.link d := by
    unfold MsStore.link
    rw [hptr]
  have hhead : store'.head d = store.head d := by
    unfold MsStore.head
    rw [hptr]
  have htail : store'.tail = store.tail := by
    unfold MsStore.tail
    rw [hptr]
  constructor
  · exact fun key => by rw [hptr]
  · exact fun q _ => by rw [htail]; exact .refl _
  · exact fun q _ => by rw [hhead]; exact .refl _
  · exact fun q k _ _ _ => by rw [hlink]
  · exact fun q k _ hk _ => Or.inl ⟨by rw [hlink], hk⟩
  · exact fun k _ => by rw [hlink]
  · exact fun q _ _ hne => by rw [htail]; exact hne

/-- **A step of another session** leaves a session at its point. -/
theorem point {x : MsSession} (hf : MsFrame d store store' chain chain' x.info.owned)
    (hin : EndsIn d store chain) (hq : x.info.queueId < d.msQueuesNum)
    (h : MsPoint d store (chain x.info.queueId) x) :
    MsPoint d store' (chain' x.info.queueId) x := by
  have hown : ∀ {state}, x.info.At .enqueuing state false →
      store'.link d x.info.ownedKey = store.link d x.info.ownedKey := by
    intro state hat
    refine hf.owned _ ?_
    rw [MsSessInfo.owned, hat.enqOrDeq, hat.success]
    rfl
  have hwrite : ∀ {state}, x.info.At .enqueuing state false →
      store.next d x.info.ownedKey = 0 → store'.next d x.info.ownedKey = 0 := by
    intro state hat hwritten
    rw [MsStore.next, hown hat]
    exact hwritten
  have htail := hf.tail _ hq
  have hhead := hf.head _ hq
  cases h with
  | enqInit hat hqueue hcounter => exact .enqInit hat hqueue (by rw [hown hat]; exact hcounter)
  | enqAsking hat hqueue hcounter => exact .enqAsking hat hqueue (by rw [hown hat]; exact hcounter)
  | enqWriting hat hqueue hnext hcounter =>
    exact .enqWriting hat hqueue hnext (by rw [hown hat]; exact hcounter)
  | enqWritingPtr hat hqueue hnext hcounter =>
    exact .enqWritingPtr hat hqueue hnext (by rw [hown hat]; exact hcounter)
  | enqLoop hat hswap hwritten => exact .enqLoop hat (hf.tailSwap hin hq hswap) (hwrite hat hwritten)
  | enqReadingTail hat hqueue hswap hwritten =>
    exact .enqReadingTail hat hqueue (hf.tailSwap hin hq hswap) (hwrite hat hwritten)
  | enqTail hat hqueue hwritten hlater =>
    exact .enqTail hat hqueue (hwrite hat hwritten) (hlater.trans htail)
  | enqReadingLast hat hqueue hwritten hlater =>
    exact .enqReadingLast hat hqueue (hwrite hat hwritten) (hlater.trans htail)
  | enqReadingSecond hat hqueue hwritten hlater hlast =>
    refine .enqReadingSecond hat hqueue (hwrite hat hwritten) (hlater.trans htail) fun hsame => ?_
    have hstill : store.tail x.info.queueId = x.info.tail := hlater.antisymm (hsame ▸ htail)
    have hmem := hin.tail _ hq
    rw [hstill] at hmem
    exact hf.lastRead hq hmem (hlast hstill)
  | enqLast hat hqueue hwritten hlater hlast =>
    refine .enqLast hat hqueue (hwrite hat hwritten) (hlater.trans htail) fun hsame => ?_
    obtain ⟨hzero, hnext⟩ := hlast hsame
    exact ⟨fun hc => hf.lastLink hq hc (hzero hc), fun hc => hf.tailBefore hin hq (hnext hc)⟩
  | enqSwapping hat hqueue hptr hwritten hlater hnext hlast =>
    exact .enqSwapping hat hqueue hptr (hwrite hat hwritten) (hlater.trans htail) hnext
      (hf.lastLink hq hnext hlast)
  | enqFailed hat hqueue hwritten => exact .enqFailed hat hqueue (hwrite hat hwritten)
  | enqueued hat hqueue hbefore => exact .enqueued hat hqueue (hf.tailBefore hin hq hbefore)
  | deqLoop hstate hat hswap => exact .deqLoop hstate hat (hf.tailSwap hin hq hswap)
  | deqReadingHead hat hqueue hswap => exact .deqReadingHead hat hqueue (hf.tailSwap hin hq hswap)
  | deqReadingTail hat hqueue hlater => exact .deqReadingTail hat hqueue (hlater.trans hhead)
  | deqEnds hat hqueue hends => exact .deqEnds hat hqueue (hf.endsRead hq hends)
  | deqReadingAll hat hqueue hlater => exact .deqReadingAll hat hqueue (hlater.trans hhead)
  | deqReadingFirst hat hqueue hends => exact .deqReadingFirst hat hqueue (hf.endsRead hq hends)
  | deqReadingSecond hat hqueue hends hfirst =>
    exact .deqReadingSecond hat hqueue (hf.endsRead hq hends) (hf.firstRead hin hq hends.head hfirst)
  | deqFirst hat hqueue hends hfirst hbefore =>
    exact .deqFirst hat hqueue (hf.endsRead hq hends) (hf.firstRead hin hq hends.head hfirst)
      fun hsame hnode => hf.tailBefore hin hq (hbefore hsame hnode)
  | deqReadingNode hat hqueue hptr hends hfirst hapart =>
    exact .deqReadingNode hat hqueue hptr (hf.endsRead hq hends)
      (hf.firstRead hin hq hends.head hfirst) hapart
  | deqSwapping hat hqueue hptr hends hfirst hapart =>
    exact .deqSwapping hat hqueue hptr (hf.endsRead hq hends)
      (hf.firstRead hin hq hends.head hfirst) hapart
  | deqFailed hat hqueue => exact .deqFailed hat hqueue
  | dequeued hat hqueue hcounter =>
    refine .dequeued hat hqueue ?_
    rw [hf.owned x.info.head.nextKeyId, hcounter]
    rw [MsSessInfo.owned, hat.enqOrDeq, hat.success]
    rfl

end MsFrame

/-! ## Writes of pointers -/

namespace MsStore

/-- A store in which one pointer was written. -/
def write (store : MsStore) (key : Nat) (ptr : MsPtr) : MsStore :=
  { store with ptr := Function.update store.ptr key ptr }

variable {store : MsStore} {ptr : MsPtr} {q q' k k' key : Nat}

theorem write_link (hf : MsFits d) (hk : d.isMsNode k) (hk' : d.isMsNode k') :
    (store.write (d.msGetNodePtrKeyId k) ptr).link d k'
      = if k' = k then ptr else store.link d k' := by
  unfold write link
  by_cases hne : k' = k
  · rw [hne, if_pos rfl]
    exact Function.update_self ..
  · rw [if_neg hne]
    exact Function.update_of_ne (fun hc => hne (hf.linkKey_inj hk' hk hc)) ..

theorem write_link_tail (hf : MsFits d) (hk : d.isMsNode k) (hq : q < d.msQueuesNum) :
    (store.write (d.msGetNodePtrKeyId k) ptr).tail q = store.tail q :=
  Function.update_of_ne (hf.tail_ne_link hq hk) ..

theorem write_link_head (hf : MsFits d) (hk : d.isMsNode k) (hq : q < d.msQueuesNum) :
    (store.write (d.msGetNodePtrKeyId k) ptr).head d q = store.head d q :=
  Function.update_of_ne (hf.head_ne_link hq hk) ..

theorem write_tail : (store.write q ptr).tail q' = if q' = q then ptr else store.tail q' := by
  unfold write tail
  by_cases hne : q' = q
  · rw [hne, if_pos rfl]
    exact Function.update_self ..
  · rw [if_neg hne]
    exact Function.update_of_ne hne ..

theorem write_tail_head (hf : MsFits d) (hq : q < d.msQueuesNum) (hq' : q' < d.msQueuesNum) :
    (store.write q ptr).head d q' = store.head d q' :=
  Function.update_of_ne (fun hc => hf.tail_ne_head hq hq' hc.symm) ..

theorem write_tail_link (hf : MsFits d) (hq : q < d.msQueuesNum) (hk : d.isMsNode k) :
    (store.write q ptr).link d k = store.link d k :=
  Function.update_of_ne (fun hc => hf.tail_ne_link hq hk hc.symm) ..

theorem write_head (hf : MsFits d) (hq : q < d.msQueuesNum) (hq' : q' < d.msQueuesNum) :
    (store.write (d.headKey q) ptr).head d q' = if q' = q then ptr else store.head d q' := by
  unfold write head
  by_cases hne : q' = q
  · rw [hne, if_pos rfl]
    exact Function.update_self ..
  · rw [if_neg hne]
    exact Function.update_of_ne (fun hc => hne (hf.headKey_inj hq' hq hc)) ..

theorem write_head_tail (hf : MsFits d) (hq : q < d.msQueuesNum) (hq' : q' < d.msQueuesNum) :
    (store.write (d.headKey q) ptr).tail q' = store.tail q' :=
  Function.update_of_ne (hf.tail_ne_head hq' hq) ..

theorem write_head_link (hf : MsFits d) (hq : q < d.msQueuesNum) (hk : d.isMsNode k) :
    (store.write (d.headKey q) ptr).link d k = store.link d k :=
  Function.update_of_ne (fun hc => hf.head_ne_link hq hk hc.symm) ..

/-- A pointer that is not counted down. -/
theorem counter_write (h : (store.ptr key).counter ≤ ptr.counter) (key' : Nat) :
    (store.ptr key').counter ≤ ((store.write key ptr).ptr key').counter := by
  show _ ≤ (Function.update store.ptr key ptr key').counter
  by_cases hne : key' = key
  · rw [hne, Function.update_self]
    exact h
  · rw [Function.update_of_ne hne]

theorem write_counter_le {n : Nat} (h : ∀ key, (store.ptr key).counter ≤ n) (hptr : ptr.counter ≤ n)
    (key' : Nat) : ((store.write key ptr).ptr key').counter ≤ n := by
  show (Function.update store.ptr key ptr key').counter ≤ n
  by_cases hne : key' = key
  · rw [hne, Function.update_self]
    exact hptr
  · rw [Function.update_of_ne hne]
    exact h key'

end MsStore

end Odyssey
