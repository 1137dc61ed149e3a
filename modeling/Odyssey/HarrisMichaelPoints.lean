/-
  WHAT A SESSION OF THE HARRIS-MICHAEL LISTS KNOWS.

  Here everything goes by the keys of the pointers: a head is the pointer of no node, and from the
  head of a list the pointers lead to the pointers of its nodes (`HmStore.after`).  `HmLists` is
  what holds of them: they are in order, and each is in one list.

  A session goes through a list with two pointers in hand.  What it has read of a pointer is good as
  long as the owner does not overwrite it: then the pointer is the same, or it was swapped or marked
  since (`HmPtr.Later`), and if it is not marked it is in the list (`PtrRead`).  The counters do not
  tell whether a pointer was overwritten, as they begin at 0 every time.  What a session has read of
  the node behind is good if the pointer before it turns out to be the same (`NextRead`, `Matched`).

  `HmPoint` says, for every point that a session can be at, which of its requests wait and what it
  knows.  `HmFrame` is what a step of another session may do, and `HmFrame.point` says that it
  leaves a session at its point.
-/
import Odyssey.HarrisMichael
import Odyssey.Lib.Paths

namespace Odyssey

open Lib

variable {d : Deployment}

/-! ## Keys -/

/-- What the keys need: the sessions are numbered apart by a `uint16_t`, the pointers are
    `RMW`-able (`hm_insert_delete_multi_session` asserts it), and a key is a `uint32_t`. -/
structure HmFits (d : Deployment) : Prop where
  sessions : d.globalSessionNum ≤ 2 ^ 16
  ptrs : d.lastHmNodePtr < d.numOfRmwKeys
  keys : d.hmInitDoneFlagKey < 2 ^ 32

/-- The keys of the nodes, the preinserted ones included. -/
def Deployment.isHmNode (d : Deployment) (k : Nat) : Prop :=
  ∃ i, i < 2 * d.hmListsNum ∧ k = d.hmPreinsertedNodeKeyOffset + hmWritesNum * i

namespace HmFits

variable {i k k' : Nat}

theorem linkKey_eq (h : HmFits d) (hi : i < 2 * d.hmListsNum) :
    d.hmGetNodePtrKeyId (d.hmPreinsertedNodeKeyOffset + hmWritesNum * i) = d.hmListsNum + i := by
  have hkeys := h.keys
  have hsessions := h.sessions
  unfold Deployment.hmInitDoneFlagKey Deployment.hmFreeNodeKeyOffset at hkeys
  unfold Deployment.hmGetNodePtrKeyId Deployment.hmPreinsertedNodePtrOffset u32
  unfold Deployment.hmListsNum hmWritesNum at *
  omega

theorem linkKey_range (h : HmFits d) (hk : d.isHmNode k) :
    d.hmListsNum ≤ d.hmGetNodePtrKeyId k ∧ d.hmGetNodePtrKeyId k < d.lastHmNodePtr := by
  obtain ⟨i, hi, rfl⟩ := hk
  rw [h.linkKey_eq hi]
  unfold Deployment.lastHmNodePtr Deployment.hmPreinsertedNodePtrOffset
  omega

theorem linkKey_inj (h : HmFits d) (hk : d.isHmNode k) (hk' : d.isHmNode k')
    (heq : d.hmGetNodePtrKeyId k = d.hmGetNodePtrKeyId k') : k = k' := by
  obtain ⟨i, hi, rfl⟩ := hk
  obtain ⟨i', hi', rfl⟩ := hk'
  rw [h.linkKey_eq hi, h.linkKey_eq hi'] at heq
  rw [show i = i' by omega]

theorem isHmNode_lt (h : HmFits d) (hk : d.isHmNode k) : k < 2 ^ 32 - hmWritesNum := by
  have hkeys := h.keys
  unfold Deployment.hmInitDoneFlagKey Deployment.hmFreeNodeKeyOffset at hkeys
  obtain ⟨i, hi, rfl⟩ := hk
  unfold hmWritesNum at *
  omega

theorem isHmNode_ne_zero (h : HmFits d) (hk : d.isHmNode k) : k ≠ 0 := by
  obtain ⟨i, -, rfl⟩ := hk
  have hptrs := h.ptrs
  unfold Deployment.hmPreinsertedNodeKeyOffset
  omega

end HmFits

/-! ## Pointers -/

/-- The pointer behind a pointer: that of the node it points to, or the end. -/
def Deployment.behind (d : Deployment) (ptr : HmPtr) : Nat :=
  if ptr.nextKeyId = 0 then d.lastHmNodePtr else d.hmGetNodePtrKeyId ptr.nextKeyId

/-- The key of the pointer behind that at `key`. -/
def HmStore.after (d : Deployment) (store : HmStore) (key : Nat) : Nat := d.behind (store.ptr key)

theorem behind_congr {ptr ptr' : HmPtr} (h : ptr.nextKeyId = ptr'.nextKeyId) :
    d.behind ptr = d.behind ptr' := by
  unfold Deployment.behind
  rw [h]

/-- The pointer is the same, or it was swapped or marked since. -/
def HmPtr.Later (old cur : HmPtr) : Prop :=
  cur = old ∨ (old.marked = false ∧ (cur.marked = true ∨ old.counter < cur.counter))

namespace HmPtr.Later

variable {a b c : HmPtr}

theorem refl (a : HmPtr) : a.Later a := Or.inl rfl

theorem trans (h : a.Later b) (h' : b.Later c) : a.Later c := by
  rcases h with rfl | ⟨ha, hb⟩
  · exact h'
  · rcases h' with rfl | ⟨hb', hc⟩
    · exact Or.inr ⟨ha, hb⟩
    · refine Or.inr ⟨ha, hc.imp_right fun hlt => Nat.lt_trans (hb.resolve_left ?_) hlt⟩
      rw [hb']
      decide

/-- **A pointer does not come back**, unless it is overwritten. -/
theorem antisymm (h : a.Later b) (h' : b.Later a) : b = a := by
  rcases h with rfl | ⟨ha, hb⟩
  · rfl
  · rcases h' with rfl | ⟨hb', ha'⟩
    · rfl
    · rw [hb'] at hb
      rw [ha] at ha'
      rcases hb with hb | hlt
      · cases hb
      · rcases ha' with ha' | hlt'
        · cases ha'
        · exact absurd hlt (Nat.lt_asymm hlt')

theorem unmarked (h : a.Later b) (hb : b.marked = false) : a.marked = false := by
  rcases h with rfl | ⟨ha, -⟩
  · exact hb
  · exact ha

theorem of_marked (h : a.Later b) (ha : a.marked = true) : b = a := by
  rcases h with heq | ⟨hfalse, -⟩
  · exact heq
  · rw [ha] at hfalse
    cases hfalse

/-- A pointer that is equal by `hm_ptrs_are_equal` is the same. -/
theorem eq_of_equal (h : a.Later b) (ha : a.marked = false) (heq : hmPtrsAreEqual a b = true) :
    b = a := by
  obtain ⟨-, hcounter, hmarked⟩ := of_decide_eq_true heq
  rcases h with rfl | ⟨-, hb | hlt⟩
  · rfl
  · rw [← hmarked, ha] at hb
    cases hb
  · omega

end HmPtr.Later

/-! ## The lists -/

/-- The body of a node has the key of its pointer. -/
def HmStore.BodyOk (d : Deployment) (store : HmStore) (k : Nat) : Prop :=
  (store.node k).nodePtrKeyId = d.hmGetNodePtrKeyId k

/-- **The lists**: from head `l`, the pointers lead through `chain l`, and are in order. -/
structure HmLists (d : Deployment) (store : HmStore) (chain : Nat → List Nat) : Prop where
  path : ∀ l, l < d.hmListsNum → Path (store.after d) l (chain l) d.lastHmNodePtr
  sorted : ∀ l, l < d.hmListsNum → (chain l).Pairwise (· < ·)
  /-- what is behind the head are pointers of nodes -/
  node : ∀ l p, l < d.hmListsNum → p ∈ chain l →
    p = l ∨ ∃ k, d.isHmNode k ∧ p = d.hmGetNodePtrKeyId k
  disjoint : ∀ l l' p, l < d.hmListsNum → l' < d.hmListsNum → p ∈ chain l → p ∈ chain l' → l = l'
  valid : ∀ l p, l < d.hmListsNum → p ∈ chain l → (store.ptr p).nextKeyId ≠ 0 →
    d.isHmNode (store.ptr p).nextKeyId
  myKey : ∀ l p, l < d.hmListsNum → p ∈ chain l → (store.ptr p).myKeyId = p
  body : ∀ l k, l < d.hmListsNum → d.isHmNode k → d.hmGetNodePtrKeyId k ∈ chain l →
    store.BodyOk d k
  head : ∀ l, l < d.hmListsNum → (store.ptr l).marked = false

namespace HmLists

variable {store : HmStore} {chain : Nat → List Nat} {l p q : Nat}

theorem lt_last (h : HmLists d store chain) (hf : HmFits d) (hl : l < d.hmListsNum)
    (hp : p ∈ chain l) : p < d.lastHmNodePtr := by
  rcases h.node l p hl hp with rfl | ⟨k, hk, rfl⟩
  · unfold Deployment.lastHmNodePtr
    omega
  · exact (hf.linkKey_range hk).2

theorem head_mem (h : HmLists d store chain) (hl : l < d.hmListsNum) : l ∈ chain l := by
  have hne : l ≠ d.lastHmNodePtr := by
    unfold Deployment.lastHmNodePtr
    omega
  obtain ⟨rest, heq, -⟩ := (h.path l hl).exists_cons hne
  rw [heq]
  exact List.mem_cons_self

/-- Behind a pointer is the end, or a greater one. -/
theorem after_gt (h : HmLists d store chain) (hf : HmFits d) (hl : l < d.hmListsNum)
    (hp : p ∈ chain l) : p < store.after d p := by
  rcases (h.path l hl).next_of_mem (h.sorted l hl) hp with heq | ⟨-, hlt⟩
  · rw [heq]
    exact h.lt_last hf hl hp
  · exact hlt

/-- Behind a pointer is the next greater one. -/
theorem after_le (h : HmLists d store chain) (hl : l < d.hmListsNum) (hp : p ∈ chain l)
    (hq : q ∈ chain l) (hlt : p < q) : store.after d p ∈ chain l ∧ store.after d p ≤ q :=
  (h.path l hl).next_le (h.sorted l hl) hp hq hlt

/-- A pointer that is not the last one points to a node of the list. -/
theorem after_mem (h : HmLists d store chain) (hf : HmFits d) (hl : l < d.hmListsNum)
    (hp : p ∈ chain l) (hne : (store.ptr p).nextKeyId ≠ 0) : store.after d p ∈ chain l := by
  refine ((h.path l hl).next_of_mem (h.sorted l hl) hp).elim (fun heq => ?_) And.left
  have hrange := hf.linkKey_range (h.valid l p hl hp hne)
  rw [HmStore.after, Deployment.behind, if_neg hne] at heq
  omega

/-- Behind the last pointer is no other one. -/
theorem not_mem_of_last (h : HmLists d store chain) (hf : HmFits d) (hl : l < d.hmListsNum)
    (hp : p ∈ chain l) (hlast : (store.ptr p).nextKeyId = 0) (hlt : p < q) : q ∉ chain l := by
  intro hq
  have hafter : store.after d p = d.lastHmNodePtr := if_pos hlast
  obtain ⟨hmem, -⟩ := h.after_le hl hp hq hlt
  rw [hafter] at hmem
  exact Nat.lt_irrefl _ (h.lt_last hf hl hmem)

end HmLists

/-! ## What a session knows -/

section Known

variable (d) (store : HmStore) (chain : List Nat) (good : Nat → Prop)

/-- What a session has read of a pointer of the list.  `good` says of a key that its pointer was not
    overwritten since. -/
structure PtrRead (p : Nat) (v : HmPtr) : Prop where
  myKey : v.myKeyId = p
  valid : v.nextKeyId ≠ 0 → d.isHmNode v.nextKeyId
  lt : p < d.behind v
  later : good p → v.Later (store.ptr p)
  mem : good p → (store.ptr p).marked = false → p ∈ chain

/-- The pointer that a session compares with is still the same. -/
structure Unchanged (info : HmSessInfo) : Prop where
  good : good info.prevPtr
  same : store.ptr info.prevPtr = info.currPtr

/-- The pointer before the place of the session's node. -/
structure CurrRead (info : HmSessInfo) : Prop where
  read : PtrRead d store chain good info.prevPtr info.currPtr
  unmarked : info.currPtr.marked = false
  before : info.prevPtr < info.ownedKeyPtr

/-- What was read of the pointer behind `curr_ptr`, before `curr_ptr` is read again. -/
structure NextRead (info : HmSessInfo) : Prop where
  later : good (d.behind info.currPtr) → info.nextPtr.Later (store.ptr (d.behind info.currPtr))
  dead : info.insOrDelState = .searchingCl → d.behind info.currPtr = info.ownedKeyPtr →
    info.nextPtr.marked = true
  known : Unchanged store good info →
    info.nextPtr.myKeyId = d.behind info.currPtr ∧
    (info.nextPtr.nextKeyId ≠ 0 → d.isHmNode info.nextPtr.nextKeyId) ∧
    d.behind info.currPtr < d.behind info.nextPtr ∧
    info.nextPtr.Later (store.ptr (d.behind info.currPtr)) ∧
    (info.nextPtr.nextKeyId = 0 → d.behind info.currPtr < info.ownedKeyPtr →
      info.ownedKeyPtr ∉ chain)

/-- What a session knows when `curr_ptr` was the same. -/
structure Matched (info : HmSessInfo) : Prop where
  same : info.newCurrPtr = info.currPtr
  body : info.nextNode.nodePtrKeyId = d.behind info.currPtr
  read : PtrRead d store chain good (d.behind info.currPtr) info.nextPtr
  still : Unchanged store good info → info.nextPtr.Later (store.ptr (d.behind info.currPtr))
  last : info.nextPtr.nextKeyId = 0 → d.behind info.currPtr < info.ownedKeyPtr →
    info.ownedKeyPtr ∉ chain
  gap : info.ownedKeyPtr ≤ d.behind info.currPtr →
    d.behind info.currPtr = info.ownedKeyPtr ∨ info.ownedKeyPtr ∉ chain
  out : info.insOrDelState = .searchingIns → d.behind info.currPtr ≠ info.ownedKeyPtr
  dead : info.insOrDelState = .searchingCl → d.behind info.currPtr = info.ownedKeyPtr →
    info.nextPtr.marked = true

/-- A swap of `curr_ptr` at key `p`, past the node behind it. -/
structure Unlinks (p : Nat) (curr ptr : HmPtr) : Prop where
  read : PtrRead d store chain good p curr
  unmarked : curr.marked = false
  next : curr.nextKeyId ≠ 0
  counted : ptr = { curr with counter := u64 (curr.counter + 1), nextKeyId := ptr.nextKeyId }
  marked : good p → store.ptr p = curr → (store.ptr (d.behind curr)).marked = true ∧
    (store.ptr (d.behind curr)).nextKeyId = ptr.nextKeyId

end Known

/-! ## Where a session is -/

/-- Where the state machines are. -/
structure HmSessInfo.At (info : HmSessInfo) (p : InsOrDel) (state : HmState) : Prop where
  insOrDel : info.insOrDelState = p
  state : info.state = state

section Points

variable (d) (store : HmStore) (chain : Nat → List Nat) (good : Nat → Prop) (member : Option Nat)

/-- No list has the pointer. -/
def OutOfLists (p : Nat) : Prop := ∀ l, l < d.hmListsNum → p ∉ chain l

/-- The node of the session is marked, and in no list but one. -/
structure Dead (info : HmSessInfo) : Prop where
  marked : (store.ptr info.ownedKeyPtr).marked = true
  others : ∀ l, l < d.hmListsNum → l ≠ info.listId → info.ownedKeyPtr ∉ chain l

/-- Where the node of a session is that searches: `member` is the list it was inserted in, if it is
    not marked. -/
inductive Owned (info : HmSessInfo) : Prop
  | out (hstate : info.insOrDelState = .searchingIns) (hbody : store.BodyOk d info.ownedKey)
      (hout : OutOfLists d chain info.ownedKeyPtr)
  | linked (hstate : info.insOrDelState = .searchingDel) (hmember : member = some info.listId)
  | dead (hstate : info.insOrDelState = .searchingCl) (hdead : Dead d store chain info)

/-- A session searches for the place of its node. -/
structure Searches (info : HmSessInfo) : Prop where
  owned : Owned d store chain member info
  mine : info.newNodePtr.myKeyId = info.ownedKeyPtr

/-- A request that writes a body of the node of the session, or of none. -/
inductive BodyWrite (info : HmSessInfo) : HmReq → Prop
  | own {node : HmNode} (hnode : node.nodePtrKeyId = info.ownedKeyPtr) :
    BodyWrite info (.writeNode info.ownedKey node)
  | rest {key : Nat} {node : HmNode} (hkey : ¬ d.isHmNode key) :
    BodyWrite info (.writeNode key node)

/-- **The points of a session**, in order, with the requests that wait there. -/
inductive HmPoint (x : HmSession) : Prop
  | insInit (hat : x.info.At .inserting .init) (hqueue : x.queue = [] ∨ x.queue = [.readFlag])
      (hout : OutOfLists d chain x.info.ownedKeyPtr)
  | insWriting {writes : List HmReq} (hat : x.info.At .searchingIns .searchInnerLoop)
      (hqueue : x.queue = writes ++ [.readPtr x.info.listId .currPtr])
      (hwrites : ∀ r ∈ writes, BodyWrite d x.info r)
      (hbody : store.BodyOk d x.info.ownedKey ∨
        ∃ node, HmReq.writeNode x.info.ownedKey node ∈ writes)
      (hout : OutOfLists d chain x.info.ownedKeyPtr)
      (hmine : x.info.newNodePtr.myKeyId = x.info.ownedKeyPtr)
      (hprev : x.info.prevPtr = x.info.listId)
  | searchStart (hstate : x.info.state = .searchInnerLoop)
      (hqueue : x.queue = [.readPtr x.info.listId .currPtr])
      (hsearch : Searches d store chain member x.info) (hprev : x.info.prevPtr = x.info.listId)
  | searchHelp {p : Nat} {ptr : HmPtr} (hstate : x.info.state = .searchInnerLoop)
      (hqueue : x.queue = [.cas p .unlink ptr, .readPtr x.info.listId .currPtr])
      (hsearch : Searches d store chain member x.info) (hprev : x.info.prevPtr = x.info.listId)
      (hunlink : Unlinks d store (chain x.info.listId) good p x.info.currPtr ptr)
  | searchCurr (hstate : x.info.state = .searchInnerLoop ∨
        x.info.state = .searchInnerLoopAfterCopyingPtrs) (hqueue : x.queue = [])
      (hsearch : Searches d store chain member x.info)
      (hcurr : CurrRead d store (chain x.info.listId) good x.info)
      (hend : x.info.currPtr.nextKeyId = 0 → x.info.ownedKeyPtr ∉ chain x.info.listId)
  | searchNext (hstate : x.info.state = .readCurrPtrAgain)
      (hqueue : x.queue = [.readPtr (d.behind x.info.currPtr) .nextPtr,
        .readNextNode x.info.currPtr.nextKeyId, .readPtr x.info.prevPtr .newCurrPtr])
      (hsearch : Searches d store chain member x.info)
      (hcurr : CurrRead d store (chain x.info.listId) good x.info)
      (hnext : x.info.currPtr.nextKeyId ≠ 0)
  | searchNode (hstate : x.info.state = .readCurrPtrAgain)
      (hqueue : x.queue =
        [.readNextNode x.info.currPtr.nextKeyId, .readPtr x.info.prevPtr .newCurrPtr])
      (hsearch : Searches d store chain member x.info)
      (hcurr : CurrRead d store (chain x.info.listId) good x.info)
      (hnext : x.info.currPtr.nextKeyId ≠ 0)
      (hread : NextRead d store (chain x.info.listId) good x.info)
  | searchAgain (hstate : x.info.state = .readCurrPtrAgain)
      (hqueue : x.queue = [.readPtr x.info.prevPtr .newCurrPtr])
      (hsearch : Searches d store chain member x.info)
      (hcurr : CurrRead d store (chain x.info.listId) good x.info)
      (hnext : x.info.currPtr.nextKeyId ≠ 0)
      (hread : NextRead d store (chain x.info.listId) good x.info)
      (hbody : Unchanged store good x.info →
        x.info.nextNode.nodePtrKeyId = d.behind x.info.currPtr)
  | searched (hstate : x.info.state = .readCurrPtrAgain) (hqueue : x.queue = [])
      (hsearch : Searches d store chain member x.info)
      (hcurr : CurrRead d store (chain x.info.listId) good x.info)
      (hnext : x.info.currPtr.nextKeyId ≠ 0)
      (hmatched : hmPtrsAreEqual x.info.currPtr x.info.newCurrPtr = true →
        Matched d store (chain x.info.listId) good x.info)
  | tryInsert (hat : x.info.At .inserting .tryInsert) (hqueue : x.queue = [])
      (hbody : store.BodyOk d x.info.ownedKey) (hout : OutOfLists d chain x.info.ownedKeyPtr)
      (hcurr : CurrRead d store (chain x.info.listId) good x.info)
      (hlt : x.info.ownedKeyPtr < d.behind x.info.currPtr)
  | insPointing (hat : x.info.At .inserting .potentialSuccess)
      (hqueue : x.queue = [.writePtr x.info.ownedKeyPtr x.info.newNodePtr,
        .cas x.info.prevPtr .insert x.info.newCurrPtr])
      (hbody : store.BodyOk d x.info.ownedKey) (hout : OutOfLists d chain x.info.ownedKeyPtr)
      (hcurr : CurrRead d store (chain x.info.listId) good x.info)
      (hlt : x.info.ownedKeyPtr < d.behind x.info.currPtr)
      (hfilled : hmFillNewNodePtrNewCurrPtr x.info = x.info)
  | insSwapping (hat : x.info.At .inserting .potentialSuccess)
      (hqueue : x.queue = [.cas x.info.prevPtr .insert x.info.newCurrPtr])
      (hbody : store.BodyOk d x.info.ownedKey) (hout : OutOfLists d chain x.info.ownedKeyPtr)
      (hcurr : CurrRead d store (chain x.info.listId) good x.info)
      (hlt : x.info.ownedKeyPtr < d.behind x.info.currPtr)
      (hfilled : hmFillNewNodePtrNewCurrPtr x.info = x.info)
      (hwritten : store.ptr x.info.ownedKeyPtr = x.info.newNodePtr)
  | insSwapped (hat : x.info.At .inserting .potentialSuccess) (hqueue : x.queue = [])
      (hmember : x.info.success = true → member = some x.info.listId)
      (hfailed : x.info.success = false →
        store.BodyOk d x.info.ownedKey ∧ OutOfLists d chain x.info.ownedKeyPtr)
      (hmine : x.info.newNodePtr.myKeyId = x.info.ownedKeyPtr)
  | delInit (hat : x.info.At .deleting .init) (hqueue : x.queue = [])
      (hmember : member = some x.info.listId)
  | tryDelete (hat : x.info.At .deleting .tryDelete) (hqueue : x.queue = [])
      (hmember : member = some x.info.listId)
      (hcurr : CurrRead d store (chain x.info.listId) good x.info)
      (hnext : x.info.currPtr.nextKeyId = x.info.ownedKey)
  | delMarking {reads : List HmReq} (hat : x.info.At .deleting .markedPotentialSuccess)
      (hqueue : x.queue = reads ++ [.cas x.info.ownedKeyPtr .mark x.info.newNodePtr])
      (hreads : ∀ r ∈ reads, ∃ key, r = .readNewNode key)
      (hmember : member = some x.info.listId)
      (hcurr : CurrRead d store (chain x.info.listId) good x.info)
      (hnext : x.info.currPtr.nextKeyId = x.info.ownedKey)
      (hmarks : x.info.newNodePtr.marked = true ∧ x.info.newNodePtr.myKeyId = x.info.ownedKeyPtr ∧
        x.info.newNodePtr.nextKeyId = x.info.nextPtr.nextKeyId)
  | delMarked (hat : x.info.At .deleting .markedPotentialSuccess) (hqueue : x.queue = [])
      (hmember : x.info.success = false → member = some x.info.listId)
      (hdead : x.info.success = true → Dead d store chain x.info ∧
        (store.ptr x.info.ownedKeyPtr).nextKeyId = x.info.nextPtr.nextKeyId)
      (hcurr : CurrRead d store (chain x.info.listId) good x.info)
      (hnext : x.info.currPtr.nextKeyId = x.info.ownedKey)
  | delUnlinking {ptr : HmPtr} (hat : x.info.At .deleting .potentialSuccess)
      (hqueue : x.queue = [.cas x.info.prevPtr .unlink ptr])
      (hdead : Dead d store chain x.info)
      (hunlink : Unlinks d store (chain x.info.listId) good x.info.prevPtr x.info.currPtr ptr)
      (hnext : x.info.currPtr.nextKeyId = x.info.ownedKey)
  | delUnlinked (hat : x.info.At .deleting .potentialSuccess) (hqueue : x.queue = [])
      (hout : x.info.success = true → OutOfLists d chain x.info.ownedKeyPtr)
      (hdead : x.info.success = false → Dead d store chain x.info)
  | delClean (hat : x.info.At .deleting .clAfterSearch) (hqueue : x.queue = [])
      (hout : OutOfLists d chain x.info.ownedKeyPtr)

end Points

/-! ## What the others do -/

/-- The pointer that a step overwrites. -/
def HmEvent.overwritten : HmEvent → Option Nat
  | .wrote key => some key
  | _ => none

/-- What a step of another session may do to the store. -/
structure HmFrame (d : Deployment) (store store' : HmStore) (chain chain' : Nat → List Nat)
    (wrote : Option Nat) (own : Nat) : Prop where
  later : ∀ p, wrote ≠ some p → (store.ptr p).Later (store'.ptr p)
  /-- only a pointer in no list is overwritten -/
  apart : ∀ p, wrote = some p → p ≠ own ∧ OutOfLists d chain p
  /-- only marked nodes are linked out -/
  mem : ∀ l p, l < d.hmListsNum → p ∈ chain l → (store'.ptr p).marked = false → p ∈ chain' l
  owned : ∀ l, l < d.hmListsNum → own ∈ chain' l → own ∈ chain l
  out : OutOfLists d chain own → store'.ptr own = store.ptr own
  body : ∀ k, d.isHmNode k → store.BodyOk d k → store'.BodyOk d k

namespace HmFrame

variable {store store' : HmStore} {chain chain' : Nat → List Nat} {wrote : Option Nat}
  {own l p : Nat} {good good' : Nat → Prop} {info : HmSessInfo} {v curr ptr : HmPtr}
  {member : Option Nat}

theorem ptrRead (hf : HmFrame d store store' chain chain' wrote own) (hl : l < d.hmListsNum)
    (hgood : ∀ p, good' p → good p ∧ wrote ≠ some p)
    (h : PtrRead d store (chain l) good p v) : PtrRead d store' (chain' l) good' p v where
  myKey := h.myKey
  valid := h.valid
  lt := h.lt
  later hp := (h.later (hgood p hp).1).trans (hf.later p (hgood p hp).2)
  mem hp hunmarked := by
    obtain ⟨hold, hwrote⟩ := hgood p hp
    exact hf.mem l p hl (h.mem hold ((hf.later p hwrote).unmarked hunmarked)) hunmarked

/-- What is still the same was the same before. -/
theorem unchanged (hf : HmFrame d store store' chain chain' wrote own)
    (hgood : ∀ p, good' p → good p ∧ wrote ≠ some p)
    (hread : PtrRead d store (chain l) good p v) (hp : good' p) (hsame : store'.ptr p = v) :
    good p ∧ store.ptr p = v := by
  obtain ⟨hold, hwrote⟩ := hgood p hp
  have hlater := hf.later p hwrote
  rw [hsame] at hlater
  exact ⟨hold, (hread.later hold).antisymm hlater⟩

/-- While a pointer is the same, the one behind it is in the list, and is not overwritten. -/
theorem behind (hf : HmFrame d store store' chain chain' wrote own) (hfits : HmFits d)
    (hlists : HmLists d store chain) (hl : l < d.hmListsNum)
    (hread : PtrRead d store (chain l) good p v) (hunmarked : v.marked = false)
    (hne : v.nextKeyId ≠ 0) (hp : good p) (hsame : store.ptr p = v) :
    d.behind v ∈ chain l ∧ wrote ≠ some (d.behind v) := by
  have hmem : p ∈ chain l := hread.mem hp (by rw [hsame]; exact hunmarked)
  have hnext : d.behind v ∈ chain l := by
    rw [← hsame]
    exact hlists.after_mem hfits hl hmem (by rw [hsame]; exact hne)
  exact ⟨hnext, fun hc => (hf.apart _ hc).2 l hl hnext⟩

theorem currRead (hf : HmFrame d store store' chain chain' wrote own) (hl : l < d.hmListsNum)
    (hgood : ∀ p, good' p → good p ∧ wrote ≠ some p)
    (h : CurrRead d store (chain l) good info) : CurrRead d store' (chain' l) good' info where
  read := hf.ptrRead hl hgood h.read
  unmarked := h.unmarked
  before := h.before

theorem still (hf : HmFrame d store store' chain chain' wrote own) (hfits : HmFits d)
    (hlists : HmLists d store chain) (hl : l < d.hmListsNum)
    (hgood : ∀ p, good' p → good p ∧ wrote ≠ some p)
    (hcurr : CurrRead d store (chain l) good info) (hne : info.currPtr.nextKeyId ≠ 0)
    (h : Unchanged store' good' info) :
    Unchanged store good info ∧ wrote ≠ some (d.behind info.currPtr) := by
  obtain ⟨hgood, hsame⟩ := hf.unchanged hgood hcurr.read h.good h.same
  exact ⟨⟨hgood, hsame⟩, (hf.behind hfits hlists hl hcurr.read hcurr.unmarked hne hgood hsame).2⟩

theorem nextRead (hf : HmFrame d store store' chain chain' wrote info.ownedKeyPtr)
    (hfits : HmFits d) (hlists : HmLists d store chain) (hl : l < d.hmListsNum)
    (hgood : ∀ p, good' p → good p ∧ wrote ≠ some p)
    (hcurr : CurrRead d store (chain l) good info) (hne : info.currPtr.nextKeyId ≠ 0)
    (h : NextRead d store (chain l) good info) : NextRead d store' (chain' l) good' info where
  later hp := (h.later (hgood _ hp).1).trans (hf.later _ (hgood _ hp).2)
  dead := h.dead
  known hsame := by
    obtain ⟨hbefore, hwrote⟩ := hf.still hfits hlists hl hgood hcurr hne hsame
    obtain ⟨hmy, hvalid, hlt, hlater, hlast⟩ := h.known hbefore
    exact ⟨hmy, hvalid, hlt, hlater.trans (hf.later _ hwrote),
      fun hzero hown hc => hlast hzero hown (hf.owned l hl hc)⟩

theorem matched (hf : HmFrame d store store' chain chain' wrote info.ownedKeyPtr)
    (hfits : HmFits d) (hlists : HmLists d store chain) (hl : l < d.hmListsNum)
    (hgood : ∀ p, good' p → good p ∧ wrote ≠ some p)
    (hcurr : CurrRead d store (chain l) good info) (hne : info.currPtr.nextKeyId ≠ 0)
    (h : Matched d store (chain l) good info) : Matched d store' (chain' l) good' info where
  same := h.same
  body := h.body
  read := hf.ptrRead hl hgood h.read
  still hsame := by
    obtain ⟨hbefore, hwrote⟩ := hf.still hfits hlists hl hgood hcurr hne hsame
    exact (h.still hbefore).trans (hf.later _ hwrote)
  last hzero hlt hc := h.last hzero hlt (hf.owned l hl hc)
  gap hle := (h.gap hle).imp_right fun hnot hc => hnot (hf.owned l hl hc)
  out := h.out
  dead := h.dead

theorem unlinks (hf : HmFrame d store store' chain chain' wrote own) (hfits : HmFits d)
    (hlists : HmLists d store chain) (hl : l < d.hmListsNum)
    (hgood : ∀ p, good' p → good p ∧ wrote ≠ some p)
    (h : Unlinks d store (chain l) good p curr ptr) :
    Unlinks d store' (chain' l) good' p curr ptr where
  read := hf.ptrRead hl hgood h.read
  unmarked := h.unmarked
  next := h.next
  counted := h.counted
  marked hp hsame := by
    obtain ⟨hold, hbefore⟩ := hf.unchanged hgood h.read hp hsame
    obtain ⟨hmarked, hnext⟩ := h.marked hold hbefore
    have hwrote := (hf.behind hfits hlists hl h.read h.unmarked h.next hold hbefore).2
    rw [(hf.later _ hwrote).of_marked hmarked]
    exact ⟨hmarked, hnext⟩

theorem outOfLists (hf : HmFrame d store store' chain chain' wrote own)
    (h : OutOfLists d chain own) : OutOfLists d chain' own :=
  fun l hl hc => h l hl (hf.owned l hl hc)

/-- A marked node of a session that lives is not overwritten. -/
theorem ptr_of_marked (hf : HmFrame d store store' chain chain' wrote own)
    (h : (store.ptr own).marked = true) : store'.ptr own = store.ptr own :=
  (hf.later own fun hc => (hf.apart own hc).1 rfl).of_marked h

theorem dead (hf : HmFrame d store store' chain chain' wrote info.ownedKeyPtr)
    (h : Dead d store chain info) : Dead d store' chain' info where
  marked := by
    rw [hf.ptr_of_marked h.marked]
    exact h.marked
  others l hl hne hc := h.others l hl hne (hf.owned l hl hc)

theorem searches (hf : HmFrame d store store' chain chain' wrote info.ownedKeyPtr)
    (hnode : d.isHmNode info.ownedKey) (h : Searches d store chain member info) :
    Searches d store' chain' member info where
  owned := by
    cases h.owned with
    | out hstate hbody hout => exact .out hstate (hf.body _ hnode hbody) (hf.outOfLists hout)
    | linked hstate hmember => exact .linked hstate hmember
    | dead hstate hdead => exact .dead hstate (hf.dead hdead)
  mine := h.mine

/-- **A step of another session** leaves a session at its point. -/
theorem point {x : HmSession} (hf : HmFrame d store store' chain chain' wrote x.info.ownedKeyPtr)
    (hfits : HmFits d) (hlists : HmLists d store chain) (hl : x.info.listId < d.hmListsNum)
    (hnode : d.isHmNode x.info.ownedKey)
    (hgood : ∀ p, good' p → good p ∧ wrote ≠ some p)
    (h : HmPoint d store chain good member x) : HmPoint d store' chain' good' member x := by
  cases h with
  | insInit hat hqueue hout => exact .insInit hat hqueue (hf.outOfLists hout)
  | insWriting hat hqueue hwrites hbody hout hmine hprev =>
    exact .insWriting hat hqueue hwrites (hbody.imp_left (hf.body _ hnode)) (hf.outOfLists hout)
      hmine hprev
  | searchStart hstate hqueue hsearch hprev =>
    exact .searchStart hstate hqueue (hf.searches hnode hsearch) hprev
  | searchHelp hstate hqueue hsearch hprev hunlink =>
    exact .searchHelp hstate hqueue (hf.searches hnode hsearch) hprev
      (hf.unlinks hfits hlists hl hgood hunlink)
  | searchCurr hstate hqueue hsearch hcurr hend =>
    exact .searchCurr hstate hqueue (hf.searches hnode hsearch) (hf.currRead hl hgood hcurr)
      fun hzero hc => hend hzero (hf.owned _ hl hc)
  | searchNext hstate hqueue hsearch hcurr hnext =>
    exact .searchNext hstate hqueue (hf.searches hnode hsearch) (hf.currRead hl hgood hcurr) hnext
  | searchNode hstate hqueue hsearch hcurr hnext hread =>
    exact .searchNode hstate hqueue (hf.searches hnode hsearch) (hf.currRead hl hgood hcurr) hnext
      (hf.nextRead hfits hlists hl hgood hcurr hnext hread)
  | searchAgain hstate hqueue hsearch hcurr hnext hread hbody =>
    exact .searchAgain hstate hqueue (hf.searches hnode hsearch) (hf.currRead hl hgood hcurr) hnext
      (hf.nextRead hfits hlists hl hgood hcurr hnext hread)
      fun hsame => hbody (hf.still hfits hlists hl hgood hcurr hnext hsame).1
  | searched hstate hqueue hsearch hcurr hnext hmatched =>
    exact .searched hstate hqueue (hf.searches hnode hsearch) (hf.currRead hl hgood hcurr) hnext
      fun hequal => hf.matched hfits hlists hl hgood hcurr hnext (hmatched hequal)
  | tryInsert hat hqueue hbody hout hcurr hlt =>
    exact .tryInsert hat hqueue (hf.body _ hnode hbody) (hf.outOfLists hout)
      (hf.currRead hl hgood hcurr) hlt
  | insPointing hat hqueue hbody hout hcurr hlt hfilled =>
    exact .insPointing hat hqueue (hf.body _ hnode hbody) (hf.outOfLists hout)
      (hf.currRead hl hgood hcurr) hlt hfilled
  | insSwapping hat hqueue hbody hout hcurr hlt hfilled hwritten =>
    exact .insSwapping hat hqueue (hf.body _ hnode hbody) (hf.outOfLists hout)
      (hf.currRead hl hgood hcurr) hlt hfilled ((hf.out hout).trans hwritten)
  | insSwapped hat hqueue hmember hfailed hmine =>
    refine .insSwapped hat hqueue hmember (fun hc => ?_) hmine
    obtain ⟨hbody, hout⟩ := hfailed hc
    exact ⟨hf.body _ hnode hbody, hf.outOfLists hout⟩
  | delInit hat hqueue hmember => exact .delInit hat hqueue hmember
  | tryDelete hat hqueue hmember hcurr hnext =>
    exact .tryDelete hat hqueue hmember (hf.currRead hl hgood hcurr) hnext
  | delMarking hat hqueue hreads hmember hcurr hnext hmarks =>
    exact .delMarking hat hqueue hreads hmember (hf.currRead hl hgood hcurr) hnext hmarks
  | delMarked hat hqueue hmember hdead hcurr hnext =>
    refine .delMarked hat hqueue hmember (fun hc => ?_) (hf.currRead hl hgood hcurr) hnext
    obtain ⟨hdead, hptr⟩ := hdead hc
    exact ⟨hf.dead hdead, by rw [hf.ptr_of_marked hdead.marked]; exact hptr⟩
  | delUnlinking hat hqueue hdead hunlink hnext =>
    exact .delUnlinking hat hqueue (hf.dead hdead) (hf.unlinks hfits hlists hl hgood hunlink) hnext
  | delUnlinked hat hqueue hout hdead =>
    exact .delUnlinked hat hqueue (fun hc => hf.outOfLists (hout hc)) fun hc => hf.dead (hdead hc)
  | delClean hat hqueue hout => exact .delClean hat hqueue (hf.outOfLists hout)

end HmFrame

end Odyssey
