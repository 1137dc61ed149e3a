/-
  THE HARRIS-MICHAEL LISTS UNDER EVERY INTERLEAVING, once they are set up.

  `HmInv` adds to the points of the sessions that the lists are in order, and that a node which was
  inserted in a list is in it until it is marked.  Four requests write a pointer: that of a node by
  its owner (`HmInv.overwrite`), and the swaps that insert, mark and link out a node
  (`HmInv.insert`, `HmInv.mark`, `HmInv.unlink`).  Every other step is quiet (`HmInv.quiet`).

  A comparison of pointers does not see that a pointer was overwritten since it was read, as the
  counters begin at 0 again.  The steps keep `HmInv` if no comparison and no swap succeeds on such a
  pointer (`HmEvent.compared`, `fresh`).
-/
import Odyssey.HarrisMichaelReads
import Odyssey.HarrisMichaelWrites

namespace Odyssey

open Lib

variable {d : Deployment}

/-! ## The history -/

abbrev HmTrace := List (Turn × HmEvent)

/-- Whether what session `g` has read of a pointer is good, after one more step. -/
def freshAfter (g key : Nat) (good : Bool) : Turn × HmEvent → Bool
  | (.store g' _, .read key') => if g' = g ∧ key' = key then true else good
  | (_, .wrote key') => if key' = key then false else good
  | _ => good

/-- The pointer was not overwritten since session `g` has read it. -/
def fresh (g key : Nat) (tr : HmTrace) : Bool := tr.foldl (freshAfter g key) true

/-- The list in which a node is, after one more step. -/
def memberAfter (d : Deployment) (k : Nat) (list : Option Nat) : HmEvent → Option Nat
  | .inserted _ l k' => if k' = k then some l else list
  | .marked key => if key = d.hmGetNodePtrKeyId k then none else list
  | _ => list

/-- The list in which a node was inserted, if it was not marked since. -/
def memberOf (d : Deployment) (k : Nat) (tr : HmTrace) : Option Nat :=
  tr.foldl (fun list t => memberAfter d k list t.2) none

/-- The pointer before a node, when a step finds it to be the one that was read. -/
def HmEvent.compared : HmEvent → Option Nat
  | .matched key | .inserted key _ _ | .unlinked key => some key
  | _ => none

/-- An event that moves no node, and overwrites no pointer. -/
structure HmEvent.Quiet (d : Deployment) (e : HmEvent) : Prop where
  member : ∀ k list, memberAfter d k list e = list
  overwritten : e.overwritten = none

theorem fresh_concat (g key : Nat) (tr : HmTrace) (t : Turn × HmEvent) :
    fresh g key (tr ++ [t]) = freshAfter g key (fresh g key tr) t := by
  unfold fresh
  rw [List.foldl_append]
  rfl

theorem memberOf_concat (k : Nat) (tr : HmTrace) (t : Turn × HmEvent) :
    memberOf d k (tr ++ [t]) = memberAfter d k (memberOf d k tr) t.2 := by
  unfold memberOf
  rw [List.foldl_append]
  rfl

/-- What is good after a step, but for the pointer that the session has read. -/
theorem fresh_before {g key : Nat} {tr : HmTrace} {turn : Turn} {e : HmEvent}
    (hread : ∀ spurious, turn = .store g spurious → e ≠ .read key)
    (h : fresh g key (tr ++ [(turn, e)]) = true) :
    fresh g key tr = true ∧ e.overwritten ≠ some key := by
  rw [fresh_concat] at h
  unfold freshAfter at h
  split at h
  · rename_i g' spurious key' heq
    cases heq
    split at h
    · rename_i hsame
      rw [hsame.1, hsame.2] at hread
      exact absurd rfl (hread _ rfl)
    · exact ⟨h, fun hc => by cases hc⟩
  · rename_i key' heq
    cases heq
    split at h
    · cases h
    · rename_i hne
      refine ⟨h, fun hc => hne ?_⟩
      exact Option.some.inj hc
  · rename_i hnot
    refine ⟨h, fun hc => ?_⟩
    cases e with
    | wrote key' => exact hnot _ _ rfl
    | _ => cases hc

/-! ## The invariant -/

/-- The node of a session. -/
def Deployment.hmOwnedKey (d : Deployment) (g : Nat) : Nat :=
  d.hmFreeNodeKeyOffset + g * hmWritesNum

namespace HmFits

variable {g g' : Nat}

theorem owned_isHmNode (_ : HmFits d) (hg : g < d.globalSessionNum) :
    d.isHmNode (d.hmOwnedKey g) := by
  refine ⟨d.hmListsNum + g, ?_, ?_⟩
  · unfold Deployment.hmListsNum
    omega
  · unfold Deployment.hmOwnedKey Deployment.hmFreeNodeKeyOffset
    rw [Nat.mul_add, Nat.mul_comm g]
    omega

theorem owned_inj (hne : g' ≠ g) : d.hmOwnedKey g' ≠ d.hmOwnedKey g := by
  unfold Deployment.hmOwnedKey hmWritesNum
  omega

/-- Two sessions have different pointers. -/
theorem ownedPtr_inj (h : HmFits d) (hg : g < d.globalSessionNum) (hg' : g' < d.globalSessionNum)
    (hne : g' ≠ g) :
    d.hmGetNodePtrKeyId (d.hmOwnedKey g') ≠ d.hmGetNodePtrKeyId (d.hmOwnedKey g) :=
  fun heq => owned_inj hne (h.linkKey_inj (h.owned_isHmNode hg') (h.owned_isHmNode hg) heq)

end HmFits

/-- A session that has not begun is about to insert its node. -/
abbrev HmPhases (d : Deployment) (s : HmSys) : Prop :=
  WaitPhases d (fun info : HmSessInfo => info.At .inserting .init) .readFlag s

/-- A node that was inserted is in its list, and is not marked. -/
def Members (d : Deployment) (store : HmStore) (chain : Nat → List Nat) (tr : HmTrace) : Prop :=
  ∀ k l, d.isHmNode k → memberOf d k tr = some l → l < d.hmListsNum ∧
    d.hmGetNodePtrKeyId k ∈ chain l ∧ (store.ptr (d.hmGetNodePtrKeyId k)).marked = false

/-- **The invariant** of the lists once they are set up. -/
structure HmInv (d : Deployment) (tr : HmTrace) (s : HmSys) (chain : Nat → List Nat) : Prop where
  lists : HmLists d s.store chain
  point : ∀ g, g < d.globalSessionNum → HmPoint d s.store chain (fun p => fresh g p tr = true)
    (memberOf d (d.hmOwnedKey g) tr) (s.session g)
  keys : ∀ g, g < d.globalSessionNum → HmKeys d (d.hmOwnedKey g) (s.session g)
  members : Members d s.store chain tr
  outside : ∀ g, d.globalSessionNum ≤ g → (s.session g).queue = [] ∧ (s.session g).issued = 0
  phases : HmPhases d s
  cntr_lt : ∀ c, 0 < d.hmListsNum → (s.shared c).queueIdCntr < d.hmListsNum
  initDone : s.store.initDone = hmInitDoneFlag
  bound : ∀ key, (s.store.ptr key).counter ≤ Service.served tr

namespace HmInv

variable {tr : HmTrace} {s : HmSys} {chain : Nat → List Nat} {g : Nat}

/-- The node of a session that is inserted is in the list. -/
theorem owned_mem (h : HmInv d tr s chain) (hf : HmFits d) (hg : g < d.globalSessionNum) {l : Nat}
    (hmember : memberOf d (d.hmOwnedKey g) tr = some l) :
    (s.session g).info.ownedKeyPtr ∈ chain l ∧
      (s.store.ptr (s.session g).info.ownedKeyPtr).marked = false := by
  obtain ⟨-, hmem, hunmarked⟩ := h.members _ l (hf.owned_isHmNode hg) hmember
  rw [(h.keys g hg).ownedKeyPtr]
  exact ⟨hmem, hunmarked⟩

theorem owned_ne (h : HmInv d tr s chain) (hf : HmFits d) (hg : g < d.globalSessionNum) {g' : Nat}
    (hg' : g' < d.globalSessionNum) (hne : g' ≠ g) :
    (s.session g').info.ownedKeyPtr ≠ (s.session g).info.ownedKeyPtr := by
  rw [(h.keys g hg).ownedKeyPtr, (h.keys g' hg').ownedKeyPtr]
  exact hf.ownedPtr_inj hg hg' hne

/-- **A step of session `g`**: what is left to say is where that leaves the session and the lists,
    and that the others do not notice. -/
theorem update (h : HmInv d tr s chain) (hf : HmFits d) (hg : g < d.globalSessionNum) {turn : Turn}
    {e : HmEvent} (hturn : ∀ g' spurious, turn = .store g' spurious → g' = g) {store : HmStore}
    {shared : Nat → BenchClient} {x : HmSession} {chain' : Nat → List Nat}
    (hframe : ∀ g', g' < d.globalSessionNum → g' ≠ g →
      HmFrame d s.store store chain chain' e.overwritten (s.session g').info.ownedKeyPtr)
    (hevent : ∀ k list, k ≠ d.hmOwnedKey g → d.isHmNode k → memberAfter d k list e = list)
    (hlists : HmLists d store chain')
    (hpoint : HmPoint d store chain' (fun p => fresh g p (tr ++ [(turn, e)]) = true)
      (memberAfter d (d.hmOwnedKey g) (memberOf d (d.hmOwnedKey g) tr) e) x)
    (hkeys : HmKeys d (d.hmOwnedKey g) x)
    (hmembers : Members d store chain' (tr ++ [(turn, e)]))
    (hphases : HmPhases d ⟨store, shared, Function.update s.session g x⟩)
    (hcntr : ∀ c, 0 < d.hmListsNum → (shared c).queueIdCntr < d.hmListsNum)
    (hinit : store.initDone = s.store.initDone)
    (hbound : ∀ key, (store.ptr key).counter ≤ Service.served (tr ++ [(turn, e)])) :
    HmInv d (tr ++ [(turn, e)]) ⟨store, shared, Function.update s.session g x⟩ chain' where
  lists := hlists
  point g' hg' := by
    show HmPoint d store chain' _ _ (Function.update s.session g x g')
    rw [memberOf_concat]
    by_cases hne : g' = g
    · rw [hne, Function.update_self]
      exact hpoint
    · rw [Function.update_of_ne hne, hevent _ _ (HmFits.owned_inj hne) (hf.owned_isHmNode hg')]
      have hkeys := h.keys g' hg'
      refine (hframe g' hg' hne).point hf h.lists hkeys.list_lt ?_ (fun p hp => ?_) (h.point g' hg')
      · rw [hkeys.ownedKey]
        exact hf.owned_isHmNode hg'
      · refine fresh_before (fun spurious heq => ?_) hp
        exact absurd (hturn g' spurious heq) hne
  keys g' hg' := by
    show HmKeys d _ (Function.update s.session g x g')
    by_cases hne : g' = g
    · rw [hne, Function.update_self]
      exact hkeys
    · rw [Function.update_of_ne hne]
      exact h.keys g' hg'
  members := hmembers
  outside g' hg' := by
    show (Function.update s.session g x g').queue = [] ∧
      (Function.update s.session g x g').issued = 0
    rw [Function.update_of_ne (by omega)]
    exact h.outside g' hg'
  phases := hphases
  cntr_lt := hcntr
  initDone := hinit.trans h.initDone
  bound := hbound

/-- The counters after a step that swaps no pointer. -/
theorem bound_later (h : HmInv d tr s chain) (turn : Turn) (e : HmEvent) (key : Nat) :
    (s.store.ptr key).counter ≤ Service.served (tr ++ [(turn, e)]) := by
  refine Nat.le_trans (h.bound key) ?_
  rw [Service.served, Service.served, List.countP_append]
  omega

end HmInv

/-! ## Requests -/

/-- A request of the loop, and not of the set-up or of the wait for it. -/
def HmReq.InLoop : HmReq → Prop
  | .readFlag | .releaseFlag _ => False
  | _ => True

/-- What a request leaves as it is. -/
structure HmSessInfo.Same (info info' : HmSessInfo) : Prop where
  ownedKey : info.ownedKey = info'.ownedKey
  ownedKeyPtr : info.ownedKeyPtr = info'.ownedKeyPtr
  listId : info.listId = info'.listId
  newNodePtr : info.newNodePtr = info'.newNodePtr
  state : info.state = info'.state
  insOrDelState : info.insOrDelState = info'.insOrDelState
  lastReqId : info.lastReqId = info'.lastReqId

theorem hmServe_same {spurious : Bool} {store store' : HmStore} {info info' : HmSessInfo}
    {r : HmReq} {e : HmEvent} (h : hmServe spurious store info r = (store', info', e)) :
    info'.Same info := by
  cases r with
  | readPtr keyId buffer =>
    cases h
    cases buffer <;> exact ⟨rfl, rfl, rfl, rfl, rfl, rfl, rfl⟩
  | cas keyId swap ptr =>
    unfold hmServe at h
    dsimp only at h
    split at h
    · cases h
      cases swap <;> exact ⟨rfl, rfl, rfl, rfl, rfl, rfl, rfl⟩
    · cases h
      cases swap <;> exact ⟨rfl, rfl, rfl, rfl, rfl, rfl, rfl⟩
  | _ =>
    cases h
    exact ⟨rfl, rfl, rfl, rfl, rfl, rfl, rfl⟩

theorem HmKeys.served {k : Nat} {x : HmSession} (h : HmKeys d k x) {info : HmSessInfo}
    (hsame : info.Same x.info) (queue : List HmReq) : HmKeys d k ⟨info, queue, x.issued⟩ where
  ownedKey := hsame.ownedKey.trans h.ownedKey
  ownedKeyPtr := hsame.ownedKeyPtr.trans h.ownedKeyPtr
  list_lt := by
    show info.listId < _
    rw [hsame.listId]
    exact h.list_lt
  counter := by
    show info.newNodePtr.counter = 0
    rw [hsame.newNodePtr]
    exact h.counter
  lastReq hstate := by
    show info.lastReqId = _
    change info.state ≠ _ at hstate
    rw [hsame.state] at hstate
    rw [hsame.lastReqId]
    exact h.lastReq hstate

namespace HmInv

variable {tr : HmTrace} {s : HmSys} {chain : Nat → List Nat} {g : Nat}

/-- **The store executes a request** of a session that runs. -/
theorem served (h : HmInv d tr s chain) (hf : HmFits d) (hg : g < d.globalSessionNum)
    {spurious : Bool} {r : HmReq} {queue : List HmReq}
    (hqueue : (s.session g).queue = r :: queue) {store : HmStore} {info : HmSessInfo} {e : HmEvent}
    (hserve : hmServe spurious s.store (s.session g).info r = (store, info, e))
    (hloop : r.InLoop) (hrest : queue ≠ [.readFlag])
    {chain' : Nat → List Nat}
    (hframe : ∀ g', g' < d.globalSessionNum → g' ≠ g →
      HmFrame d s.store store chain chain' e.overwritten (s.session g').info.ownedKeyPtr)
    (hevent : ∀ k list, k ≠ d.hmOwnedKey g → d.isHmNode k → memberAfter d k list e = list)
    (hlists : HmLists d store chain')
    (hpoint : HmPoint d store chain'
      (fun p => fresh g p (tr ++ [(.store g spurious, e)]) = true)
      (memberAfter d (d.hmOwnedKey g) (memberOf d (d.hmOwnedKey g) tr) e)
      ⟨info, queue, (s.session g).issued⟩)
    (hmembers : Members d store chain' (tr ++ [(.store g spurious, e)]))
    (hbound : ∀ key, (store.ptr key).counter ≤ Service.served tr + 1) :
    HmInv d (tr ++ [(.store g spurious, e)])
      ⟨store, s.shared,
        Function.update s.session g ⟨info, queue, (s.session g).issued⟩⟩ chain' := by
  have hrunning := h.phases.running_of_queue hg (by rw [hqueue]; exact List.cons_ne_nil _ _)
    (by
      rw [hqueue]
      intro hc
      rw [(List.cons.inj hc).1] at hloop
      exact hloop)
  refine h.update hf hg (fun g' spurious' heq => ?_) hframe hevent hlists hpoint
    ((h.keys g hg).served (hmServe_same hserve) queue) hmembers
    (h.phases.running (fun _ => rfl) hrunning hrest) h.cntr_lt ?_ fun key => ?_
  · cases heq
    rfl
  · cases r with
    | releaseFlag flag => exact hloop.elim
    | cas keyId swap ptr =>
      unfold hmServe at hserve
      dsimp only at hserve
      split at hserve
      · cases hserve
        rfl
      · cases hserve
        rfl
    | _ =>
      cases hserve
      rfl
  · refine Nat.le_trans (hbound key) ?_
    rw [Service.served, Service.served, List.countP_append]
    exact Nat.le_refl _

/-- The lists, when no pointer is written. -/
theorem lists_congr {store store' : HmStore} (hlists : HmLists d store chain)
    (hptr : store'.ptr = store.ptr)
    (hbody : ∀ k, d.isHmNode k → store.BodyOk d k → store'.BodyOk d k) :
    HmLists d store' chain where
  path l hl := by
    refine (hlists.path l hl).congr fun p _ => ?_
    unfold HmStore.after
    rw [hptr]
  sorted := hlists.sorted
  node := hlists.node
  disjoint := hlists.disjoint
  valid l p hl hp := by
    rw [hptr]
    exact hlists.valid l p hl hp
  myKey l p hl hp := by
    rw [hptr]
    exact hlists.myKey l p hl hp
  body l k hl hk hmem := hbody k hk (hlists.body l k hl hk hmem)
  head l hl := by
    rw [hptr]
    exact hlists.head l hl

/-- The sessions that stand by, when no pointer is written. -/
theorem frame_same {store store' : HmStore} (hptr : store'.ptr = store.ptr)
    (hbody : ∀ k, d.isHmNode k → store.BodyOk d k → store'.BodyOk d k) {e : HmEvent}
    (he : e.overwritten = none) (own : Nat) :
    HmFrame d store store' chain chain e.overwritten own where
  later p _ := by
    rw [hptr]
    exact .refl _
  apart p hp := by
    rw [he] at hp
    cases hp
  mem _ _ _ hp _ := hp
  owned _ _ hp := hp
  out _ := by rw [hptr]
  body := hbody

/-- **A request that writes no pointer.** -/
theorem quiet (h : HmInv d tr s chain) (hf : HmFits d) (hg : g < d.globalSessionNum)
    {spurious : Bool} {r : HmReq} {queue : List HmReq}
    (hqueue : (s.session g).queue = r :: queue) {store : HmStore} {info : HmSessInfo} {e : HmEvent}
    (hserve : hmServe spurious s.store (s.session g).info r = (store, info, e))
    (hloop : r.InLoop) (hrest : queue ≠ [.readFlag])
    (he : e.Quiet d) (hptr : store.ptr = s.store.ptr)
    (hbody : ∀ k, d.isHmNode k → s.store.BodyOk d k → store.BodyOk d k)
    (hpoint : HmPoint d store chain (fun p => fresh g p (tr ++ [(.store g spurious, e)]) = true)
      (memberOf d (d.hmOwnedKey g) tr) ⟨info, queue, (s.session g).issued⟩) :
    ∃ chain', HmInv d (tr ++ [(.store g spurious, e)])
      ⟨store, s.shared,
        Function.update s.session g ⟨info, queue, (s.session g).issued⟩⟩ chain' := by
  refine ⟨chain, h.served hf hg hqueue hserve hloop hrest
    (fun g' _ _ => frame_same hptr hbody he.overwritten _) (fun k list _ _ => he.member k list)
    (lists_congr h.lists hptr hbody) ?_ (fun k l hk hmember => ?_) fun key => ?_⟩
  · rw [he.member]
    exact hpoint
  · rw [memberOf_concat, he.member] at hmember
    rw [hptr]
    exact h.members k l hk hmember
  · rw [hptr]
    exact Nat.le_succ_of_le (h.bound key)

/-- **The owner overwrites the pointer of its node.** -/
theorem overwrite (h : HmInv d tr s chain) (hf : HmFits d) (hg : g < d.globalSessionNum)
    {spurious : Bool} {x : HmSession} (hx : s.session g = x)
    (hat : x.info.At .inserting .potentialSuccess)
    (hqueue : x.queue = [.writePtr x.info.ownedKeyPtr x.info.newNodePtr,
      .cas x.info.prevPtr .insert x.info.newCurrPtr])
    (hbody : s.store.BodyOk d x.info.ownedKey) (hout : OutOfLists d chain x.info.ownedKeyPtr)
    (hcurr : CurrRead d s.store (chain x.info.listId) (fun p => fresh g p tr = true) x.info)
    (hlt : x.info.ownedKeyPtr < d.behind x.info.currPtr)
    (hfilled : hmFillNewNodePtrNewCurrPtr x.info = x.info) :
    HmInv d (tr ++ [(.store g spurious, .wrote x.info.ownedKeyPtr)])
      ⟨s.store.write x.info.ownedKeyPtr x.info.newNodePtr, s.shared, Function.update s.session g
        ⟨x.info, [.cas x.info.prevPtr .insert x.info.newCurrPtr], x.issued⟩⟩ chain := by
  subst hx
  have hkeys := h.keys g hg
  refine h.served hf hg hqueue rfl trivial (by simp) (fun g' hg' hne => ?_)
    (fun _ _ _ _ => rfl) (h.lists.overwrite hout) ?_ (fun k l hk hmember => ?_) fun key => ?_
  · exact .overwrite hout (h.owned_ne hf hg hg' hne)
  · have hprev : (s.session g).info.prevPtr ≠ (s.session g).info.ownedKeyPtr :=
      Nat.ne_of_lt hcurr.before
    have hcurr' : CurrRead d
        (s.store.write (s.session g).info.ownedKeyPtr (s.session g).info.newNodePtr)
        (chain (s.session g).info.listId) (fun p => fresh g p (tr ++ [(.store g spurious,
          .wrote (s.session g).info.ownedKeyPtr)]) = true) (s.session g).info :=
      hcurr.congr rfl rfl rfl (HmStore.write_of_ne hprev)
        fun hp => (fresh_before (fun _ _ hc => by cases hc) hp).1
    exact .insSwapping hat rfl hbody hout hcurr' hlt hfilled HmStore.write_self
  · rw [memberOf_concat] at hmember
    obtain ⟨hl, hmem, hunmarked⟩ := h.members k l hk hmember
    refine ⟨hl, hmem, ?_⟩
    rw [HmStore.write_of_ne fun heq => hout l hl (by rw [← heq]; exact hmem)]
    exact hunmarked
  · by_cases hne : key = (s.session g).info.ownedKeyPtr
    · rw [hne, HmStore.write_self, hkeys.counter]
      exact Nat.zero_le _
    · rw [HmStore.write_of_ne hne]
      exact Nat.le_succ_of_le (h.bound key)

/-- A pointer that is counted up is later. -/
theorem later_of_counted {ptr : HmPtr} (h : HmInv d tr s chain)
    (hserved : Service.served tr + 2 < 2 ^ 64) {p : Nat}
    (hunmarked : (s.store.ptr p).marked = false)
    (hcounter : ptr.counter = u64 ((s.store.ptr p).counter + 1)) :
    (s.store.ptr p).Later ptr ∧ ptr.counter ≤ Service.served tr + 1 := by
  have hbound := h.bound p
  rw [u64_of_lt (by omega)] at hcounter
  exact ⟨Or.inr ⟨hunmarked, Or.inr (by omega)⟩, by omega⟩

/-- The counters after a swap. -/
theorem bound_write (h : HmInv d tr s chain) {p : Nat} {ptr : HmPtr}
    (hptr : ptr.counter ≤ Service.served tr + 1) (key : Nat) :
    ((s.store.write p ptr).ptr key).counter ≤ Service.served tr + 1 := by
  by_cases hne : key = p
  · rw [hne, HmStore.write_self]
    exact hptr
  · rw [HmStore.write_of_ne hne]
    exact Nat.le_succ_of_le (h.bound key)

/-- **A node is inserted.** -/
theorem insert (h : HmInv d tr s chain) (hf : HmFits d) (hg : g < d.globalSessionNum)
    (hserved : Service.served tr + 2 < 2 ^ 64) {spurious : Bool} {x : HmSession}
    (hx : s.session g = x) (hat : x.info.At .inserting .potentialSuccess)
    (hqueue : x.queue = [.cas x.info.prevPtr .insert x.info.newCurrPtr])
    (hbody : s.store.BodyOk d x.info.ownedKey) (hout : OutOfLists d chain x.info.ownedKeyPtr)
    (hcurr : CurrRead d s.store (chain x.info.listId) (fun p => fresh g p tr = true) x.info)
    (hlt : x.info.ownedKeyPtr < d.behind x.info.currPtr)
    (hfilled : hmFillNewNodePtrNewCurrPtr x.info = x.info)
    (hwritten : s.store.ptr x.info.ownedKeyPtr = x.info.newNodePtr)
    (hgood : fresh g x.info.prevPtr tr = true) (hsame : s.store.ptr x.info.prevPtr = x.info.currPtr)
    (hserve : hmServe spurious s.store x.info (.cas x.info.prevPtr .insert x.info.newCurrPtr) =
      (s.store.write x.info.prevPtr x.info.newCurrPtr, x.info.swapped x.info.currPtr true .insert,
        .inserted x.info.prevPtr x.info.listId x.info.ownedKey)) :
    ∃ chain', HmInv d
      (tr ++ [(.store g spurious, .inserted x.info.prevPtr x.info.listId x.info.ownedKey)])
      ⟨s.store.write x.info.prevPtr x.info.newCurrPtr, s.shared, Function.update s.session g
        ⟨x.info.swapped x.info.currPtr true .insert, [], x.issued⟩⟩ chain' := by
  subst hx
  have hkeys := h.keys g hg
  have hl := hkeys.list_lt
  have hnode := hf.owned_isHmNode hg
  -- the pointer before is in the list: it is not marked, and was not overwritten
  have hmem : (s.session g).info.prevPtr ∈ chain (s.session g).info.listId :=
    hcurr.read.mem hgood (by rw [hsame]; exact hcurr.unmarked)
  have hnew : (s.session g).info.newNodePtr = _ := (congrArg HmSessInfo.newNodePtr hfilled).symm
  have hnewCurr : (s.session g).info.newCurrPtr = _ :=
    (congrArg HmSessInfo.newCurrPtr hfilled).symm
  have hunmarked : (s.session g).info.newCurrPtr.marked = false := by rw [hnewCurr]; rfl
  have hcounted : (s.session g).info.newCurrPtr.counter
      = u64 ((s.store.ptr (s.session g).info.prevPtr).counter + 1) := by
    rw [hsame, hnewCurr]
    rfl
  obtain ⟨hlater, hbound⟩ :=
    h.later_of_counted hserved (by rw [hsame]; exact hcurr.unmarked) hcounted
  rw [hkeys.ownedKeyPtr] at hout hlt hwritten
  rw [hkeys.ownedKey] at hbody
  have hbefore := hcurr.before
  rw [hkeys.ownedKeyPtr] at hbefore
  obtain ⟨cells, hcells, hlists⟩ := h.lists.insert hf hl hmem hnode hout hbody
    (v := (s.session g).info.newCurrPtr)
    (by rw [hwritten, hnew, ← hkeys.ownedKeyPtr]; rfl) (by rw [hwritten, hnew, hsame]; rfl)
    hbefore (by rw [HmStore.after, hsame]; exact hlt)
    (by rw [hnewCurr, ← hkeys.ownedKey]; rfl)
    (by rw [hnewCurr]; exact hcurr.read.myKey) hunmarked
  have hold : ∀ q, q ≠ d.hmGetNodePtrKeyId (d.hmOwnedKey g) → q ∈ cells →
      q ∈ chain (s.session g).info.listId := fun q hne hq => ((hcells q).mp hq).resolve_left hne
  have hevent : ∀ k list, k ≠ d.hmOwnedKey g → d.isHmNode k → memberAfter d k list
      (.inserted (s.session g).info.prevPtr (s.session g).info.listId (s.session g).info.ownedKey)
        = list := by
    intro k list hne _
    refine if_neg fun heq => hne ?_
    rw [← heq, hkeys.ownedKey]
  have hself : ∀ list, memberAfter d (d.hmOwnedKey g) list
      (.inserted (s.session g).info.prevPtr (s.session g).info.listId (s.session g).info.ownedKey)
        = some (s.session g).info.listId := fun list => if_pos hkeys.ownedKey
  refine ⟨_, h.served hf hg hqueue hserve trivial (by simp) (fun g' hg' hne => ?_) hevent hlists ?_
    (fun k l hk hmember => ?_) (h.bound_write hbound)⟩
  · refine .swap hl hmem hlater (hold _ ?_) fun q hq _ => (hcells q).mpr (Or.inr hq)
    rw [← hkeys.ownedKeyPtr]
    exact h.owned_ne hf hg hg' hne
  · refine .insSwapped ⟨hat.insOrDel, hat.state⟩ rfl (fun _ => hself _) (fun hc => ?_) ?_
    · cases hc
    · show (s.session g).info.newNodePtr.myKeyId = (s.session g).info.ownedKeyPtr
      rw [hnew]
      rfl
  · rw [memberOf_concat] at hmember
    by_cases hne : k = d.hmOwnedKey g
    · subst hne
      rw [hself] at hmember
      cases hmember
      refine ⟨hl, ?_, ?_⟩
      · rw [Function.update_self]
        exact (hcells _).mpr (Or.inl rfl)
      · rw [HmStore.write_of_ne (Nat.ne_of_gt hbefore), hwritten, hnew]
        rfl
    · rw [hevent k _ hne hk] at hmember
      obtain ⟨hl', hin, hlive⟩ := h.members k l hk hmember
      refine ⟨hl', ?_, ?_⟩
      · by_cases hlist : l = (s.session g).info.listId
        · rw [hlist, Function.update_self]
          exact (hcells _).mpr (Or.inr (hlist ▸ hin))
        · rw [Function.update_of_ne hlist]
          exact hin
      · by_cases hptr : d.hmGetNodePtrKeyId k = (s.session g).info.prevPtr
        · rw [hptr, HmStore.write_self]
          exact hunmarked
        · rw [HmStore.write_of_ne hptr]
          exact hlive

/-- **A node is marked.** -/
theorem mark (h : HmInv d tr s chain) (hf : HmFits d) (hg : g < d.globalSessionNum)
    {spurious : Bool} {x : HmSession} (hx : s.session g = x)
    (hat : x.info.At .deleting .markedPotentialSuccess)
    (hqueue : x.queue = [.cas x.info.ownedKeyPtr .mark x.info.newNodePtr])
    (hmember : memberOf d (d.hmOwnedKey g) tr = some x.info.listId)
    (hcurr : CurrRead d s.store (chain x.info.listId) (fun p => fresh g p tr = true) x.info)
    (hnext : x.info.currPtr.nextKeyId = x.info.ownedKey)
    (hmarks : x.info.newNodePtr.marked = true ∧ x.info.newNodePtr.myKeyId = x.info.ownedKeyPtr ∧
      x.info.newNodePtr.nextKeyId = x.info.nextPtr.nextKeyId)
    (hsame : s.store.ptr x.info.ownedKeyPtr = x.info.nextPtr)
    (hserve : hmServe spurious s.store x.info (.cas x.info.ownedKeyPtr .mark x.info.newNodePtr) =
      (s.store.write x.info.ownedKeyPtr x.info.newNodePtr,
        x.info.swapped x.info.nextPtr true .mark, .marked x.info.ownedKeyPtr)) :
    HmInv d (tr ++ [(.store g spurious, .marked x.info.ownedKeyPtr)])
      ⟨s.store.write x.info.ownedKeyPtr x.info.newNodePtr, s.shared, Function.update s.session g
        ⟨x.info.swapped x.info.nextPtr true .mark, [], x.issued⟩⟩ chain := by
  subst hx
  have hkeys := h.keys g hg
  have hl := hkeys.list_lt
  have hnode := hf.owned_isHmNode hg
  obtain ⟨hmarked, hmy, hlinks⟩ := hmarks
  obtain ⟨hmem, hunmarked⟩ := h.owned_mem hf hg hmember
  have hne : (s.session g).info.ownedKeyPtr ≠ (s.session g).info.listId :=
    Nat.ne_of_gt (hkeys.list_lt_owned hf hnode)
  have hstay : Function.update chain (s.session g).info.listId (chain (s.session g).info.listId)
      = chain := Function.update_eq_self ..
  have hlists := h.lists.mark hf hl hmem hne (hlinks.trans (by rw [hsame])) hmy
  rw [hstay] at hlists
  -- no other node has the pointer
  have hother : ∀ k, k ≠ d.hmOwnedKey g → d.isHmNode k →
      d.hmGetNodePtrKeyId k ≠ (s.session g).info.ownedKeyPtr := by
    intro k hne hk heq
    rw [hkeys.ownedKeyPtr] at heq
    exact hne (hf.linkKey_inj hk hnode heq)
  refine h.served hf hg hqueue hserve trivial (by simp) (fun g' hg' hne' => ?_)
    (fun k list hne' hk => if_neg (hother k hne' hk).symm) hlists ?_ (fun k l hk hin => ?_)
    (h.bound_write ?_)
  · have hframe : HmFrame d s.store _ chain _ none (s.session g').info.ownedKeyPtr :=
      .swap hl hmem (v := (s.session g).info.newNodePtr) (Or.inr ⟨hunmarked, Or.inl hmarked⟩)
        (fun hq => hq) fun q hq _ => hq
    rw [hstay] at hframe
    exact hframe
  · refine .delMarked ⟨hat.insOrDel, hat.state⟩ rfl (fun hc => ?_) (fun _ => ⟨⟨?_, ?_⟩, ?_⟩) ?_
      hnext
    · cases hc
    · show ((s.store.write _ _).ptr (s.session g).info.ownedKeyPtr).marked = true
      rw [HmStore.write_self]
      exact hmarked
    · exact fun l hl' hne' hin => hne' (h.lists.disjoint l _ _ hl' hl hin hmem)
    · show ((s.store.write _ _).ptr (s.session g).info.ownedKeyPtr).nextKeyId = _
      rw [HmStore.write_self]
      exact hlinks
    · exact hcurr.congr rfl rfl rfl (HmStore.write_of_ne (Nat.ne_of_lt hcurr.before))
        fun hp => (fresh_before (fun _ _ hc => by cases hc) hp).1
  · rw [memberOf_concat] at hin
    by_cases hown : k = d.hmOwnedKey g
    · rw [hown, memberAfter, if_pos hkeys.ownedKeyPtr] at hin
      cases hin
    · rw [memberAfter, if_neg (hother k hown hk).symm] at hin
      obtain ⟨hl', hmem', hlive⟩ := h.members k l hk hin
      refine ⟨hl', hmem', ?_⟩
      rw [HmStore.write_of_ne (hother k hown hk)]
      exact hlive
  · rw [hkeys.counter]
    exact Nat.zero_le _

/-- **A marked node is linked out** behind `p`. -/
theorem unlink (h : HmInv d tr s chain) (hf : HmFits d) (hserved : Service.served tr + 2 < 2 ^ 64)
    {l p : Nat} {curr ptr : HmPtr} (hl : l < d.hmListsNum)
    (hunlink : Unlinks d s.store (chain l) (fun p => fresh g p tr = true) p curr ptr)
    (hgood : fresh g p tr = true) (hsame : s.store.ptr p = curr) :
    ∃ chain', HmLists d (s.store.write p ptr) chain' ∧
      (∀ own, HmFrame d s.store (s.store.write p ptr) chain chain' none own) ∧
      d.behind curr ∉ chain' l ∧ (∀ l', l' ≠ l → chain' l' = chain l') ∧
      ptr.counter ≤ Service.served tr + 1 ∧ ptr.marked = false := by
  have hmem : p ∈ chain l := hunlink.read.mem hgood (by rw [hsame]; exact hunlink.unmarked)
  have hbehind : s.store.after d p = d.behind curr := by rw [HmStore.after, hsame]
  obtain ⟨hmarked, hnext⟩ := hunlink.marked hgood hsame
  have hunmarked : ptr.marked = false := by
    rw [hunlink.counted]
    exact hunlink.unmarked
  have hmy : ptr.myKeyId = p := by
    rw [hunlink.counted]
    exact hunlink.read.myKey
  have hzero : (s.store.ptr p).nextKeyId ≠ 0 := by
    rw [hsame]
    exact hunlink.next
  have hcounted : ptr.counter = u64 ((s.store.ptr p).counter + 1) := by
    rw [hsame, hunlink.counted]
  obtain ⟨hlater, hbound⟩ :=
    h.later_of_counted hserved (by rw [hsame]; exact hunlink.unmarked) hcounted
  obtain ⟨cells, hcells, hlists⟩ := h.lists.unlink hf hl hmem hzero
    (by rw [hbehind]; exact hnext.symm) hmy hunmarked
  rw [hbehind] at hcells
  refine ⟨_, hlists, fun own => ?_, ?_, fun l' hne => Function.update_of_ne hne .., hbound,
    hunmarked⟩
  · -- the node that leaves is marked, so no session counts on it
    refine .swap hl hmem hlater (fun hq => ((hcells _).mp hq).2) fun q hq hlive =>
      (hcells q).mpr ⟨fun heq => ?_, hq⟩
    have hgt := h.lists.after_gt hf hl hmem
    rw [hbehind] at hgt
    rw [heq, HmStore.write_of_ne (Nat.ne_of_gt hgt), hmarked] at hlive
    cases hlive
  · rw [Function.update_self]
    exact fun hc => ((hcells _).mp hc).1 rfl

/-- The nodes that are in a list, when marked nodes leave it. -/
theorem members_write (h : HmInv d tr s chain) {chain' : Nat → List Nat} {p own : Nat} {ptr : HmPtr}
    (hframe : HmFrame d s.store (s.store.write p ptr) chain chain' none own)
    (hptr : ptr.marked = false) {turn : Turn} {e : HmEvent}
    (he : ∀ k list, memberAfter d k list e = list) :
    Members d (s.store.write p ptr) chain' (tr ++ [(turn, e)]) := by
  intro k l hk hin
  rw [memberOf_concat, he] at hin
  obtain ⟨hl, hmem, hlive⟩ := h.members k l hk hin
  have hstill : ((s.store.write p ptr).ptr (d.hmGetNodePtrKeyId k)).marked = false := by
    by_cases hp : d.hmGetNodePtrKeyId k = p
    · rw [hp, HmStore.write_self]
      exact hptr
    · rw [HmStore.write_of_ne hp]
      exact hlive
  exact ⟨hl, hframe.mem l _ hl hmem hstill, hstill⟩

end HmInv

end Odyssey
