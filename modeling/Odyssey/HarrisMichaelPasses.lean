/-
  THE PASSES OF A SESSION OF THE HARRIS-MICHAEL LISTS.

  A pass of a state machine writes no pointer, so it leaves the lists as they are, and it takes a
  session from one of its points to another one (`HmPoint.pass`).  What a search has found is
  settled here: an insert has the two neighbours of its node in hand, a delete the pointer to its
  node, and after a clean-up the node is in no list.
-/
import Odyssey.HarrisMichaelPoints

namespace Odyssey

open Lib

variable {d : Deployment} {store : HmStore} {chain : Nat → List Nat} {good : Nat → Prop}
  {member : Option Nat}

/-! ## What every pass needs -/

/-- What no pass changes: `k` is the node of the session. -/
structure Keyed (d : Deployment) (k : Nat) (info : HmSessInfo) : Prop where
  ownedKey : info.ownedKey = k
  ownedKeyPtr : info.ownedKeyPtr = d.hmGetNodePtrKeyId k
  list_lt : info.listId < d.hmListsNum
  counter : info.newNodePtr.counter = 0

/-- What holds of a session at every point. -/
structure HmKeys (d : Deployment) (k : Nat) (x : HmSession) : Prop extends Keyed d k x.info where
  lastReq : x.info.state ≠ .init → x.info.lastReqId = u32 x.issued

theorem behind_of_ne {ptr : HmPtr} (h : ptr.nextKeyId ≠ 0) :
    d.behind ptr = d.hmGetNodePtrKeyId ptr.nextKeyId := if_neg h

theorem behind_of_zero {ptr : HmPtr} (h : ptr.nextKeyId = 0) : d.behind ptr = d.lastHmNodePtr :=
  if_pos h

theorem HmKeys.queue_of_poll {k : Nat} {x : HmSession} (h : HmKeys d k x)
    (hle : x.queue.length ≤ x.issued) (hfew : x.issued < 2 ^ 32) (hstate : x.info.state ≠ .init)
    (hpoll : pollAReqBlocking x x.info.lastReqId = .ok ()) : x.queue = [] := by
  rw [h.lastReq hstate] at hpoll
  have hempty := executed_of_poll hle hfew (Nat.le_refl _) hpoll
  exact List.eq_nil_of_length_eq_zero (by omega)

/-! ## Points that differ in what does not matter -/

section Congr

variable {info info' : HmSessInfo}

theorem Dead.congr (h : Dead d store chain info) (hkeyPtr : info'.ownedKeyPtr = info.ownedKeyPtr)
    (hlist : info'.listId = info.listId) : Dead d store chain info' where
  marked := by
    rw [hkeyPtr]
    exact h.marked
  others := by
    rw [hkeyPtr, hlist]
    exact h.others

theorem Owned.congr (h : Owned d store chain member info)
    (hstate : info'.insOrDelState = info.insOrDelState) (hkey : info'.ownedKey = info.ownedKey)
    (hkeyPtr : info'.ownedKeyPtr = info.ownedKeyPtr) (hlist : info'.listId = info.listId) :
    Owned d store chain member info' := by
  cases h with
  | out hp hbody hout =>
    exact .out (hstate.trans hp) (by rw [hkey]; exact hbody) (by rw [hkeyPtr]; exact hout)
  | linked hp hmember => exact .linked (hstate.trans hp) (by rw [hlist]; exact hmember)
  | dead hp hdead => exact .dead (hstate.trans hp) (hdead.congr hkeyPtr hlist)

theorem CurrRead.congr {l : List Nat} {store' : HmStore} {good' : Nat → Prop}
    (h : CurrRead d store l good info) (hprev : info'.prevPtr = info.prevPtr)
    (hcurr : info'.currPtr = info.currPtr) (hkeyPtr : info'.ownedKeyPtr = info.ownedKeyPtr)
    (hptr : store'.ptr info.prevPtr = store.ptr info.prevPtr)
    (hgood : good' info.prevPtr → good info.prevPtr) : CurrRead d store' l good' info' where
  read := by
    rw [hprev, hcurr]
    refine ⟨h.read.myKey, h.read.valid, h.read.lt, fun hp => ?_, fun hp => ?_⟩
    · rw [hptr]
      exact h.read.later (hgood hp)
    · rw [hptr]
      exact h.read.mem (hgood hp)
  unmarked := by
    rw [hcurr]
    exact h.unmarked
  before := by
    rw [hprev, hkeyPtr]
    exact h.before

theorem Searches.congr (h : Searches d store chain member info)
    (hstate : info'.insOrDelState = info.insOrDelState) (hkey : info'.ownedKey = info.ownedKey)
    (hkeyPtr : info'.ownedKeyPtr = info.ownedKeyPtr) (hlist : info'.listId = info.listId)
    (hmine : info'.newNodePtr = info.newNodePtr) : Searches d store chain member info' where
  owned := h.owned.congr hstate hkey hkeyPtr hlist
  mine := by
    rw [hmine, hkeyPtr]
    exact h.mine

end Congr

/-! ## Searches -/

/-- **A search begins**, with `info` in a pass that has not issued anything. -/
theorem HmPoint.transition {x : HmSession} {info : HmSessInfo} (hqueue : x.queue = [])
    (howned : Owned d store chain member
      { info with insOrDelState := info.insOrDelState.searching })
    (hmine : info.newNodePtr.myKeyId = info.ownedKeyPtr) :
    HmPoint d store chain good member ⟨(hmTransitionToSearching x info []).1,
      x.queue ++ (hmTransitionToSearching x info []).2,
      x.issued + (hmTransitionToSearching x info []).2.length⟩ := by
  refine .searchStart rfl ?_ ⟨howned.congr rfl rfl rfl rfl, hmine⟩ rfl
  rw [hqueue]
  rfl

/-- A search goes on in the state it is in. -/
theorem searching_of_owned {info : HmSessInfo} (h : Owned d store chain member info) :
    info.insOrDelState.searching = info.insOrDelState := by
  cases h with
  | out hstate => rw [hstate]; rfl
  | linked hstate => rw [hstate]; rfl
  | dead hstate => rw [hstate]; rfl

/-- A search begins again. -/
theorem HmPoint.restart {x : HmSession} {info : HmSessInfo} (hqueue : x.queue = [])
    (h : Searches d store chain member info) :
    HmPoint d store chain good member ⟨(hmTransitionToSearching x info []).1,
      x.queue ++ (hmTransitionToSearching x info []).2,
      x.issued + (hmTransitionToSearching x info []).2.length⟩ :=
  .transition hqueue (h.owned.congr (searching_of_owned h.owned) rfl rfl rfl) h.mine

/-- **What a search finds**: the pointer before the place of its node, and nothing there, or its
    node. -/
theorem HmPoint.found {x : HmSession} (hqueue : x.queue = [])
    (hsearch : Searches d store chain member x.info)
    (hcurr : CurrRead d store (chain x.info.listId) good x.info)
    (hin : member = some x.info.listId → x.info.ownedKeyPtr ∈ chain x.info.listId)
    (hins : x.info.insOrDelState = .searchingIns → x.info.ownedKeyPtr < d.behind x.info.currPtr)
    (hdel : x.info.ownedKeyPtr ∈ chain x.info.listId →
      x.info.currPtr.nextKeyId = x.info.ownedKey)
    (hcl : x.info.insOrDelState = .searchingCl →
      x.info.ownedKeyPtr ∉ chain x.info.listId) {issued : Nat} :
    HmPoint d store chain good member ⟨resetInfoStateAfterSearching x.info, x.queue, issued⟩ := by
  unfold resetInfoStateAfterSearching
  cases hsearch.owned with
  | out hstate hbody hout =>
    rw [hstate]
    exact .tryInsert ⟨rfl, rfl⟩ hqueue hbody hout ⟨hcurr.read, hcurr.unmarked, hcurr.before⟩
      (hins hstate)
  | linked hstate hmember =>
    rw [hstate]
    exact .tryDelete ⟨rfl, rfl⟩ hqueue hmember ⟨hcurr.read, hcurr.unmarked, hcurr.before⟩
      (hdel (hin hmember))
  | dead hstate hdead =>
    rw [hstate]
    refine .delClean ⟨rfl, rfl⟩ hqueue fun l hl => ?_
    by_cases hlist : l = x.info.listId
    · rw [hlist]
      exact hcl hstate
    · exact hdead.others l hl hlist

/-- The session has read the pointer before its place, and goes on to the next one. -/
theorem HmPoint.innerLoop {x : HmSession} (hf : HmFits d) {k : Nat} (hnode : d.isHmNode k)
    (hkeys : HmKeys d k x) (hqueue : x.queue = [])
    (hsearch : Searches d store chain member x.info)
    (hcurr : CurrRead d store (chain x.info.listId) good x.info)
    (hend : x.info.currPtr.nextKeyId = 0 → x.info.ownedKeyPtr ∉ chain x.info.listId)
    (hin : member = some x.info.listId → x.info.ownedKeyPtr ∈ chain x.info.listId) :
    HmPoint d store chain good member ⟨(d.hmSearchInnerLoop x).1,
      x.queue ++ (d.hmSearchInnerLoop x).2, x.issued + (d.hmSearchInnerLoop x).2.length⟩ := by
  unfold Deployment.hmSearchInnerLoop
  by_cases hzero : x.info.currPtr.nextKeyId = 0
  · rw [if_pos hzero]
    dsimp only
    rw [List.append_nil]
    refine .found hqueue hsearch hcurr hin (fun _ => ?_) (fun hc => absurd hc (hend hzero))
      fun _ => hend hzero
    rw [behind_of_zero hzero, hkeys.ownedKeyPtr]
    exact (hf.linkKey_range hnode).2
  · rw [if_neg hzero]
    refine .searchNext rfl ?_ (hsearch.congr rfl rfl rfl rfl rfl)
      ⟨hcurr.read, hcurr.unmarked, hcurr.before⟩ hzero
    rw [hqueue, List.nil_append, ← behind_of_ne hzero]

/-- A marked node behind a pointer that is the same may be linked out. -/
theorem Matched.unlinks {info : HmSessInfo} {l : List Nat} (h : Matched d store l good info)
    (hcurr : CurrRead d store l good info) (hnext : info.currPtr.nextKeyId ≠ 0)
    (hmarked : info.nextPtr.marked = true) :
    Unlinks d store l good info.prevPtr info.currPtr { info.newCurrPtr with
      counter := u64 (info.newCurrPtr.counter + 1), nextKeyId := info.nextPtr.nextKeyId } where
  read := hcurr.read
  unmarked := hcurr.unmarked
  next := hnext
  counted := by
    rw [h.same]
  marked hgood hsame := by
    rw [(h.still ⟨hgood, hsame⟩).of_marked hmarked]
    exact ⟨hmarked, rfl⟩

/-- **The session has read `curr_ptr` again.** -/
theorem HmPoint.again {x : HmSession} (hf : HmFits d) {k : Nat} (hnode : d.isHmNode k)
    (hkeys : HmKeys d k x) (hqueue : x.queue = [])
    (hsearch : Searches d store chain member x.info)
    (hcurr : CurrRead d store (chain x.info.listId) good x.info)
    (hnext : x.info.currPtr.nextKeyId ≠ 0)
    (hmatched : hmPtrsAreEqual x.info.currPtr x.info.newCurrPtr = true →
      Matched d store (chain x.info.listId) good x.info)
    (hin : member = some x.info.listId → x.info.ownedKeyPtr ∈ chain x.info.listId) :
    HmPoint d store chain good member ⟨(hmReadCurrPtrAgain x).1,
      x.queue ++ (hmReadCurrPtrAgain x).2, x.issued + (hmReadCurrPtrAgain x).2.length⟩ := by
  unfold hmReadCurrPtrAgain
  dsimp only
  split
  · exact .restart hqueue hsearch
  rename_i hequal
  have hm := hmatched (by rw [← Bool.not_eq_false]; exact hequal)
  split
  · rename_i hmarked
    split
    · -- the node behind is linked out
      refine .searchHelp rfl ?_ (hsearch.congr (searching_of_owned hsearch.owned :) rfl rfl rfl rfl)
        rfl (hm.unlinks hcurr hnext hmarked)
      rw [hqueue]
      rfl
    · exact .restart hqueue (hsearch.congr rfl rfl rfl rfl rfl)
  · rename_i hunmarked
    rw [Bool.not_eq_true] at hunmarked
    split
    · rename_i hle
      rw [hm.body, hsearch.mine] at hle
      rw [List.append_nil]
      refine .found hqueue hsearch hcurr hin (fun hstate => ?_) (fun hmem => ?_) fun hstate => ?_
      · exact Nat.lt_of_le_of_ne hle (hm.out hstate).symm
      · have heq := (hm.gap hle).resolve_right fun hc => hc hmem
        rw [behind_of_ne hnext, hkeys.ownedKeyPtr] at heq
        rw [hkeys.ownedKey]
        exact hf.linkKey_inj (hcurr.read.valid hnext) hnode heq
      · refine (hm.gap hle).resolve_left fun heq => ?_
        rw [hm.dead hstate heq] at hunmarked
        cases hunmarked
    · rename_i hgt
      rw [hm.body, hsearch.mine] at hgt
      rw [List.append_nil]
      have hlt := Nat.lt_of_not_le hgt
      refine .searchCurr (Or.inr rfl) hqueue (hsearch.congr rfl rfl rfl rfl rfl) ?_
        fun hzero => hm.last hzero hlt
      refine ⟨?_, hunmarked, ?_⟩
      · show PtrRead d store _ good x.info.nextPtr.myKeyId x.info.nextPtr
        rw [hm.read.myKey]
        exact hm.read
      · show x.info.nextPtr.myKeyId < _
        rw [hm.read.myKey]
        exact hlt

/-! ## The state machines -/

section Machines

variable {x : HmSession} {k cntr cntr' : Nat} {noConflict : Bool} {info : HmSessInfo}
  {requests : List HmReq}

/-- A pass of a session that searches. -/
theorem hmSearch_of_pass (h : d.hmLoopPass noConflict cntr x = .ok (cntr', info, requests))
    (hp : x.info.insOrDelState = .searchingIns ∨ x.info.insOrDelState = .searchingDel ∨
      x.info.insOrDelState = .searchingCl) : d.hmSearch x = .ok (info, requests) := by
  unfold Deployment.hmLoopPass at h
  rcases hp with hp | hp | hp
  all_goals
    rw [hp] at h
    obtain ⟨⟨info', requests'⟩, hsearch, h⟩ := bind_eq_ok.mp h
    cases h
    exact hsearch

theorem Owned.searching (h : Owned d store chain member info) :
    info.insOrDelState = .searchingIns ∨ info.insOrDelState = .searchingDel ∨
      info.insOrDelState = .searchingCl := by
  cases h with
  | out hstate => exact Or.inl hstate
  | linked hstate => exact Or.inr (Or.inl hstate)
  | dead hstate => exact Or.inr (Or.inr hstate)

theorem hmInsert_of_pass (h : d.hmLoopPass noConflict cntr x = .ok (cntr', info, requests))
    (hp : x.info.insOrDelState = .inserting) : hmInsert x = .ok (info, requests) := by
  unfold Deployment.hmLoopPass at h
  rw [hp] at h
  obtain ⟨⟨info', requests'⟩, hinsert, h⟩ := bind_eq_ok.mp h
  cases h
  exact hinsert

theorem hmDelete_of_pass (h : d.hmLoopPass noConflict cntr x = .ok (cntr', info, requests))
    (hp : x.info.insOrDelState = .deleting) :
    d.hmDelete noConflict cntr x = .ok (cntr', info, requests) := by
  unfold Deployment.hmLoopPass at h
  rw [hp] at h
  exact h

theorem searchInnerLoop_of_pass (h : d.hmSearch x = .ok (info, requests))
    (hstate : x.info.state = .searchInnerLoop) :
    pollAReqBlocking x x.info.lastReqId = .ok () ∧ d.hmSearchInnerLoop x = (info, requests) := by
  unfold Deployment.hmSearch at h
  rw [hstate] at h
  obtain ⟨⟨⟩, hpoll, h⟩ := bind_eq_ok.mp h
  exact ⟨hpoll, Except.ok.inj h⟩

theorem readCurrPtrAgain_of_pass (h : d.hmSearch x = .ok (info, requests))
    (hstate : x.info.state = .readCurrPtrAgain) :
    pollAReqBlocking x x.info.lastReqId = .ok () ∧ hmReadCurrPtrAgain x = (info, requests) := by
  unfold Deployment.hmSearch at h
  rw [hstate] at h
  obtain ⟨⟨⟩, hpoll, h⟩ := bind_eq_ok.mp h
  exact ⟨hpoll, Except.ok.inj h⟩

/-- The insert goes by the result of its swap. -/
theorem swapped_of_insert (h : hmInsert x = .ok (info, requests))
    (hstate : x.info.state = .potentialSuccess) :
    pollAReqBlocking x x.info.lastReqId = .ok () ∧
      ((x.info.success = true ∧
          ({ x.info with state := .init, insOrDelState := .deleting }, []) = (info, requests)) ∨
        (x.info.success = false ∧ hmTransitionToSearching x x.info [] = (info, requests))) := by
  unfold hmInsert at h
  rw [hstate] at h
  obtain ⟨⟨⟩, hpoll, h⟩ := bind_eq_ok.mp h
  refine ⟨hpoll, ?_⟩
  split at h
  · rename_i hsuccess
    exact Or.inl ⟨hsuccess, Except.ok.inj h⟩
  · rename_i hfailure
    exact Or.inr ⟨Bool.eq_false_iff.mpr hfailure, Except.ok.inj h⟩

/-- The delete goes by the result of the swap that marks its node. -/
theorem marked_of_delete (h : d.hmDelete noConflict cntr x = .ok (cntr', info, requests))
    (hstate : x.info.state = .markedPotentialSuccess) :
    pollAReqBlocking x x.info.lastReqId = .ok () ∧
      ((x.info.success = true ∧ hmLinkOut x = (info, requests)) ∨
        (x.info.success = false ∧ hmSearchOwned x x.info [] = (info, requests))) := by
  unfold Deployment.hmDelete at h
  rw [hstate] at h
  obtain ⟨⟨⟩, hpoll, h⟩ := bind_eq_ok.mp h
  refine ⟨hpoll, ?_⟩
  split at h
  · rename_i hsuccess
    exact Or.inl ⟨hsuccess, congrArg Prod.snd (Except.ok.inj h)⟩
  · rename_i hfailure
    exact Or.inr ⟨Bool.eq_false_iff.mpr hfailure, congrArg Prod.snd (Except.ok.inj h)⟩

/-- The delete goes by the result of the swap that links its node out. -/
theorem unlinked_of_delete (h : d.hmDelete noConflict cntr x = .ok (cntr', info, requests))
    (hstate : x.info.state = .potentialSuccess) :
    pollAReqBlocking x x.info.lastReqId = .ok () ∧
      ((x.info.success = true ∧ ((d.hmDeleted noConflict cntr x.info).2, []) = (info, requests)) ∨
        (x.info.success = false ∧ hmCleanUp x = (info, requests))) := by
  unfold Deployment.hmDelete at h
  rw [hstate] at h
  obtain ⟨⟨⟩, hpoll, h⟩ := bind_eq_ok.mp h
  refine ⟨hpoll, ?_⟩
  split at h
  · rename_i hsuccess
    exact Or.inl ⟨hsuccess, congrArg Prod.snd (Except.ok.inj h)⟩
  · rename_i hfailure
    exact Or.inr ⟨Bool.eq_false_iff.mpr hfailure, congrArg Prod.snd (Except.ok.inj h)⟩

/-- A session that waits for its requests makes no pass. -/
theorem HmKeys.not_waiting (hkeys : HmKeys d k x) (hle : x.queue.length ≤ x.issued)
    (hfew : x.issued < 2 ^ 32) (hpoll : pollAReqBlocking x x.info.lastReqId = .ok ())
    {state : HmState} (hstate : x.info.state = state) (hinit : state ≠ .init)
    (queue : List HmReq) {r : HmReq} (hqueue : x.queue = queue ++ [r]) : False := by
  have hempty := hkeys.queue_of_poll hle hfew (by rw [hstate]; exact hinit) hpoll
  rw [hempty] at hqueue
  exact absurd hqueue.symm (List.append_ne_nil_of_right_ne_nil _ (List.cons_ne_nil _ _))

/-- The keys when a search begins. -/
theorem Keyed.transition (h : Keyed d k info) (queue : List HmReq) :
    HmKeys d k ⟨(hmTransitionToSearching x info requests).1, queue,
      x.issued + (hmTransitionToSearching x info requests).2.length⟩ where
  ownedKey := h.ownedKey
  ownedKeyPtr := h.ownedKeyPtr
  list_lt := h.list_lt
  counter := h.counter
  lastReq _ := by
    show lastReqIdAfter x (requests.length + 1) = u32 (x.issued + (requests ++ [_]).length)
    rw [List.length_append]
    rfl

/-- The keys when the session searches for its own node. -/
theorem Keyed.searchOwned (h : Keyed d k info) (queue : List HmReq) :
    HmKeys d k ⟨(hmSearchOwned x info requests).1, queue,
      x.issued + (hmSearchOwned x info requests).2.length⟩ :=
  ⟨⟨h.ownedKey, h.ownedKeyPtr, h.list_lt, h.counter⟩, (h.transition (x := x) queue).lastReq⟩

/-- The keys after a search. -/
theorem HmKeys.reset (h : HmKeys d k x) (hstate : x.info.state ≠ .init) (queue : List HmReq) :
    HmKeys d k ⟨resetInfoStateAfterSearching x.info, queue, x.issued + 0⟩ := by
  unfold resetInfoStateAfterSearching
  split
  · exact ⟨⟨h.ownedKey, h.ownedKeyPtr, h.list_lt, h.counter⟩, fun _ => h.lastReq hstate⟩
  · exact ⟨⟨h.ownedKey, h.ownedKeyPtr, h.list_lt, h.counter⟩, fun _ => h.lastReq hstate⟩
  · exact ⟨⟨h.ownedKey, h.ownedKeyPtr, h.list_lt, h.counter⟩, fun _ => h.lastReq hstate⟩

theorem HmKeys.innerLoop (h : HmKeys d k x) (hstate : x.info.state ≠ .init) (queue : List HmReq) :
    HmKeys d k ⟨(d.hmSearchInnerLoop x).1, queue, x.issued + (d.hmSearchInnerLoop x).2.length⟩ := by
  unfold Deployment.hmSearchInnerLoop
  split
  · exact h.reset hstate queue
  · exact ⟨⟨h.ownedKey, h.ownedKeyPtr, h.list_lt, h.counter⟩, fun _ => rfl⟩

theorem HmKeys.again (h : HmKeys d k x) (hstate : x.info.state ≠ .init) (queue : List HmReq) :
    HmKeys d k ⟨(hmReadCurrPtrAgain x).1, queue, x.issued + (hmReadCurrPtrAgain x).2.length⟩ := by
  unfold hmReadCurrPtrAgain
  dsimp only
  split
  · exact h.toKeyed.transition queue
  split
  · split
    · refine Keyed.transition ?_ queue
      exact ⟨h.ownedKey, h.ownedKeyPtr, h.list_lt, h.counter⟩
    · refine Keyed.transition ?_ queue
      exact ⟨h.ownedKey, h.ownedKeyPtr, h.list_lt, h.counter⟩
  · split
    · exact h.reset hstate queue
    · exact ⟨⟨h.ownedKey, h.ownedKeyPtr, h.list_lt, h.counter⟩, fun _ => h.lastReq hstate⟩

/-- The session issues nothing, and keeps the number of its last request. -/
theorem HmKeys.quiet (h : HmKeys d k x) {info : HmSessInfo} (hinfo : Keyed d k info)
    (hlast : info.state ≠ .init → x.info.state ≠ .init ∧ info.lastReqId = x.info.lastReqId)
    (queue : List HmReq) : HmKeys d k ⟨info, queue, x.issued + 0⟩ :=
  ⟨hinfo, fun hstate => (hlast hstate).2.trans (h.lastReq (hlast hstate).1)⟩

theorem HmKeys.searchPass (h : HmKeys d k x) (hpass : d.hmSearch x = .ok (info, requests))
    (queue : List HmReq) : HmKeys d k ⟨info, queue, x.issued + requests.length⟩ := by
  unfold Deployment.hmSearch at hpass
  split at hpass
  · obtain ⟨⟨⟩, -, hpass⟩ := bind_eq_ok.mp hpass
    cases hpass
    exact h.toKeyed.transition queue
  · rename_i hstate
    obtain ⟨⟨⟩, -, hpass⟩ := bind_eq_ok.mp hpass
    have hkeys := h.innerLoop (by rw [hstate]; decide) queue
    rw [Except.ok.inj hpass] at hkeys
    exact hkeys
  · rename_i hstate
    have hkeys := h.innerLoop (by rw [hstate]; decide) queue
    rw [Except.ok.inj hpass] at hkeys
    exact hkeys
  · rename_i hstate
    obtain ⟨⟨⟩, -, hpass⟩ := bind_eq_ok.mp hpass
    have hkeys := h.again (by rw [hstate]; decide) queue
    rw [Except.ok.inj hpass] at hkeys
    exact hkeys
  · cases hpass
    exact h.quiet h.toKeyed (fun hstate => ⟨hstate, rfl⟩) queue

theorem HmKeys.insertPass (h : HmKeys d k x) (hpass : hmInsert x = .ok (info, requests))
    (queue : List HmReq) : HmKeys d k ⟨info, queue, x.issued + requests.length⟩ := by
  unfold hmInsert at hpass
  split at hpass
  · have hkeys : HmKeys d k ⟨(hmInsertInit x).1, queue, x.issued + (hmInsertInit x).2.length⟩ := by
      refine Keyed.searchOwned ?_ queue
      exact ⟨h.ownedKey, h.ownedKeyPtr, h.list_lt, h.counter⟩
    rw [Except.ok.inj hpass] at hkeys
    exact hkeys
  · cases hpass
    exact ⟨⟨h.ownedKey, h.ownedKeyPtr, h.list_lt, rfl⟩, fun _ => rfl⟩
  · obtain ⟨⟨⟩, -, hpass⟩ := bind_eq_ok.mp hpass
    split at hpass
    · cases hpass
      refine h.quiet ?_ ?_ queue
      · exact ⟨h.ownedKey, h.ownedKeyPtr, h.list_lt, h.counter⟩
      · exact fun hstate => absurd rfl hstate
    · cases hpass
      exact h.toKeyed.transition queue
  · cases hpass
    exact h.quiet h.toKeyed (fun hstate => ⟨hstate, rfl⟩) queue

/-- The end of a delete. -/
theorem HmKeys.deleted (h : HmKeys d k x) (hcntr : cntr < d.hmListsNum) (queue : List HmReq) :
    (d.hmDeleted noConflict cntr x.info).1 < d.hmListsNum ∧
      HmKeys d k ⟨(d.hmDeleted noConflict cntr x.info).2, queue, x.issued + 0⟩ := by
  unfold Deployment.hmDeleted
  dsimp only
  split
  · exact ⟨hcntr, ⟨h.ownedKey, h.ownedKeyPtr, h.list_lt, h.counter⟩, fun hc => absurd rfl hc⟩
  · exact ⟨d.incrQueueId_lt hcntr, ⟨h.ownedKey, h.ownedKeyPtr, hcntr, h.counter⟩,
      fun hc => absurd rfl hc⟩

theorem HmKeys.deletePass (h : HmKeys d k x) (hcntr : cntr < d.hmListsNum)
    (hpass : d.hmDelete noConflict cntr x = .ok (cntr', info, requests)) (queue : List HmReq) :
    cntr' < d.hmListsNum ∧ HmKeys d k ⟨info, queue, x.issued + requests.length⟩ := by
  have hdeleted : (d.hmDeleted noConflict cntr x.info).1 < d.hmListsNum ∧
      HmKeys d k ⟨(d.hmDeleted noConflict cntr x.info).2, queue, x.issued + 0⟩ :=
    h.deleted hcntr queue
  have howned : HmKeys d k ⟨(hmSearchOwned x x.info []).1, queue,
      x.issued + (hmSearchOwned x x.info []).2.length⟩ := h.toKeyed.searchOwned queue
  have hclean : HmKeys d k ⟨(hmCleanUp x).1, queue, x.issued + (hmCleanUp x).2.length⟩ := by
    refine Keyed.searchOwned ?_ queue
    exact ⟨h.ownedKey, h.ownedKeyPtr, h.list_lt, h.counter⟩
  unfold Deployment.hmDelete at hpass
  split at hpass
  · cases hpass
    exact ⟨hcntr, howned⟩
  · cases hpass
    exact ⟨hcntr, ⟨h.ownedKey, h.ownedKeyPtr, h.list_lt, h.counter⟩, fun _ => rfl⟩
  · obtain ⟨⟨⟩, -, hpass⟩ := bind_eq_ok.mp hpass
    split at hpass
    · cases hpass
      exact ⟨hcntr, ⟨h.ownedKey, h.ownedKeyPtr, h.list_lt, h.counter⟩, fun _ => rfl⟩
    · cases hpass
      exact ⟨hcntr, howned⟩
  · obtain ⟨⟨⟩, -, hpass⟩ := bind_eq_ok.mp hpass
    split at hpass
    · cases hpass
      exact hdeleted
    · cases hpass
      exact ⟨hcntr, hclean⟩
  · obtain ⟨⟨⟩, -, hpass⟩ := bind_eq_ok.mp hpass
    cases hpass
    exact hdeleted
  · cases hpass
    exact ⟨hcntr, h.quiet h.toKeyed (fun hstate => ⟨hstate, rfl⟩) queue⟩

/-- **A pass keeps the keys of a session.** -/
theorem HmKeys.pass (h : HmKeys d k x) (hcntr : cntr < d.hmListsNum)
    (hpass : d.hmLoopPass noConflict cntr x = .ok (cntr', info, requests)) (queue : List HmReq) :
    cntr' < d.hmListsNum ∧ HmKeys d k ⟨info, queue, x.issued + requests.length⟩ := by
  have hsearch := hmSearch_of_pass hpass
  unfold Deployment.hmLoopPass at hpass
  cases hp : x.info.insOrDelState with
  | searchingIns | searchingDel | searchingCl =>
    rw [hp] at hpass
    obtain ⟨⟨info', requests'⟩, hsearch, hpass⟩ := bind_eq_ok.mp hpass
    cases hpass
    exact ⟨hcntr, h.searchPass hsearch queue⟩
  | inserting =>
    rw [hp] at hpass
    obtain ⟨⟨info', requests'⟩, hinsert, hpass⟩ := bind_eq_ok.mp hpass
    cases hpass
    exact ⟨hcntr, h.insertPass hinsert queue⟩
  | deleting =>
    rw [hp] at hpass
    exact h.deletePass hcntr hpass queue
  | cleanUp =>
    rw [hp] at hpass
    cases hpass
    exact ⟨hcntr, h.quiet h.toKeyed (fun hstate => ⟨hstate, rfl⟩) queue⟩

/-- The search for a session's own node begins. -/
theorem HmPoint.searchOwned (hqueue : x.queue = []) (howned : Owned d store chain member
      { info with insOrDelState := info.insOrDelState.searching }) :
    HmPoint d store chain good member ⟨(hmSearchOwned x info []).1,
      x.queue ++ (hmSearchOwned x info []).2, x.issued + (hmSearchOwned x info []).2.length⟩ := by
  refine .searchStart rfl ?_ ⟨howned.congr rfl rfl rfl rfl, rfl⟩ rfl
  rw [hqueue]
  rfl

/-- The keys behind that of a node are of no node. -/
theorem HmFits.not_isHmNode (hf : HmFits d) (hnode : d.isHmNode k) {i : Nat} (hpos : 0 < i)
    (hi : i < hmWritesNum) : ¬ d.isHmNode (u32 (k + i)) := by
  have hlt := hf.isHmNode_lt hnode
  obtain ⟨j, -, rfl⟩ := hnode
  rw [u32_of_lt (by omega)]
  rintro ⟨j', -, heq⟩
  unfold hmWritesNum at hi heq
  omega

/-- **An insert begins**: it writes the body of its node, and searches. -/
theorem HmPoint.insertInit (hf : HmFits d) (hnode : d.isHmNode k) (hkeys : HmKeys d k x)
    (hqueue : x.queue = []) (hat : x.info.At .inserting .init)
    (hout : OutOfLists d chain x.info.ownedKeyPtr) :
    HmPoint d store chain good member ⟨(hmInsertInit x).1, x.queue ++ (hmInsertInit x).2,
      x.issued + (hmInsertInit x).2.length⟩ := by
  have hkey : u32 (x.info.ownedKey + 0) = x.info.ownedKey := by
    rw [hkeys.ownedKey]
    exact u32_of_lt (Nat.lt_of_lt_of_le (hf.isHmNode_lt hnode) (Nat.sub_le ..))
  have hbody : ∃ node, HmReq.writeNode x.info.ownedKey node ∈ (List.range hmWritesNum).map fun i =>
      HmReq.writeNode (u32 (x.info.ownedKey + i))
        (Function.update x.info.newNode 0 ⟨x.info.ownedKey, x.info.ownedKeyPtr⟩ i) := by
    refine ⟨⟨x.info.ownedKey, x.info.ownedKeyPtr⟩,
      List.mem_map.mpr ⟨0, List.mem_range.mpr (by decide), ?_⟩⟩
    rw [hkey, Function.update_self]
  refine .insWriting ⟨?_, rfl⟩ ?_ (fun r hr => ?_) (Or.inr hbody) hout rfl rfl
  · show x.info.insOrDelState.searching = _
    rw [hat.insOrDel]
    rfl
  · rw [hqueue]
    rfl
  · obtain ⟨i, hi, rfl⟩ := List.mem_map.mp hr
    rcases Nat.eq_zero_or_pos i with rfl | hpos
    · rw [hkey, Function.update_self]
      exact .own rfl
    · refine .rest ?_
      rw [hkeys.ownedKey]
      exact hf.not_isHmNode hnode hpos (List.mem_range.mp hi)

/-- The end of a delete. -/
theorem HmPoint.deleted (hqueue : x.queue = []) (hout : OutOfLists d chain x.info.ownedKeyPtr) :
    HmPoint d store chain good member
      ⟨(d.hmDeleted noConflict cntr x.info).2, x.queue ++ [], x.issued + 0⟩ := by
  rw [List.append_nil]
  unfold Deployment.hmDeleted
  dsimp only
  split
  · exact .insInit ⟨rfl, rfl⟩ (Or.inl hqueue) hout
  · exact .insInit ⟨rfl, rfl⟩ (Or.inl hqueue) hout

/-- The session marks its node. -/
theorem HmPoint.tryDeletePass (hkeys : HmKeys d k x) (hqueue : x.queue = [])
    (hmember : member = some x.info.listId)
    (hat : x.info.At .deleting .tryDelete)
    (hcurr : CurrRead d store (chain x.info.listId) good x.info)
    (hnext : x.info.currPtr.nextKeyId = x.info.ownedKey) :
    HmPoint d store chain good member ⟨(d.hmTryDelete x).1, x.queue ++ (d.hmTryDelete x).2,
      x.issued + (d.hmTryDelete x).2.length⟩ := by
  have hkey : d.hmGetNodePtrKeyId x.info.currPtr.nextKeyId = x.info.ownedKeyPtr := by
    rw [hnext, hkeys.ownedKeyPtr, hkeys.ownedKey]
  have hrequests : (d.hmTryDelete x).2 = ((List.range hmWritesNum).map fun i =>
      .readNewNode (u32 (x.info.currPtr.nextKeyId + i))) ++
        [.cas x.info.ownedKeyPtr .mark (d.hmTryDelete x).1.newNodePtr] := by
    rw [← hkey]
    rfl
  refine .delMarking ⟨hat.insOrDel, rfl⟩ (by rw [hqueue]; exact hrequests) (fun r hr => ?_) hmember
    ⟨hcurr.read, hcurr.unmarked, hcurr.before⟩ hnext ⟨rfl, hkey, rfl⟩
  · obtain ⟨i, -, rfl⟩ := List.mem_map.mp hr
    exact ⟨_, rfl⟩

/-- The session links its node out. -/
theorem HmPoint.linkOut (hf : HmFits d) (hnode : d.isHmNode k) (hkeys : HmKeys d k x)
    (hqueue : x.queue = []) (hat : x.info.At .deleting .markedPotentialSuccess)
    (hdead : Dead d store chain x.info)
    (hptr : (store.ptr x.info.ownedKeyPtr).nextKeyId = x.info.nextPtr.nextKeyId)
    (hcurr : CurrRead d store (chain x.info.listId) good x.info)
    (hnext : x.info.currPtr.nextKeyId = x.info.ownedKey) :
    HmPoint d store chain good member ⟨(hmLinkOut x).1, x.queue ++ (hmLinkOut x).2,
      x.issued + (hmLinkOut x).2.length⟩ := by
  have hne : x.info.currPtr.nextKeyId ≠ 0 := by
    rw [hnext, hkeys.ownedKey]
    exact hf.isHmNode_ne_zero hnode
  refine .delUnlinking ⟨hat.insOrDel, rfl⟩ (by rw [hqueue]; rfl) (hdead.congr rfl rfl)
    ⟨hcurr.read, hcurr.unmarked, hne, rfl, fun _ _ => ?_⟩ hnext
  · have hbehind : d.behind x.info.currPtr = x.info.ownedKeyPtr := by
      rw [behind_of_ne hne, hnext, hkeys.ownedKeyPtr, hkeys.ownedKey]
    show (store.ptr (d.behind x.info.currPtr)).marked = true ∧
      (store.ptr (d.behind x.info.currPtr)).nextKeyId = x.info.nextPtr.nextKeyId
    rw [hbehind]
    exact ⟨hdead.marked, hptr⟩

/-- **A pass takes a session to its next point.** -/
theorem HmPoint.pass (hf : HmFits d) (hnode : d.isHmNode k) (hkeys : HmKeys d k x)
    (hle : x.queue.length ≤ x.issued) (hfew : x.issued < 2 ^ 32) (hask : x.queue ≠ [.readFlag])
    (hin : member = some x.info.listId → x.info.ownedKeyPtr ∈ chain x.info.listId)
    (h : HmPoint d store chain good member x)
    (hpass : d.hmLoopPass noConflict cntr x = .ok (cntr', info, requests)) :
    HmPoint d store chain good member
      ⟨info, x.queue ++ requests, x.issued + requests.length⟩ := by
  have hsearching := hmSearch_of_pass hpass
  cases h with
  | insInit hat hqueue hout =>
    have hinsert := hmInsert_of_pass hpass hat.insOrDel
    unfold hmInsert at hinsert
    rw [hat.state] at hinsert
    have hpoint : HmPoint d store chain good member _ :=
      .insertInit hf hnode hkeys (hqueue.resolve_right hask) hat hout
    rw [Except.ok.inj hinsert] at hpoint
    exact hpoint
  | insWriting hat hqueue =>
    obtain ⟨hpoll, -⟩ := searchInnerLoop_of_pass (hsearching (Or.inl hat.insOrDel)) hat.state
    exact (hkeys.not_waiting hle hfew hpoll hat.state (by decide) _ hqueue).elim
  | searchStart hstate hqueue hsearch =>
    obtain ⟨hpoll, -⟩ := searchInnerLoop_of_pass (hsearching hsearch.owned.searching) hstate
    exact (hkeys.not_waiting hle hfew hpoll hstate (by decide) [] hqueue).elim
  | searchHelp hstate hqueue hsearch =>
    obtain ⟨hpoll, -⟩ := searchInnerLoop_of_pass (hsearching hsearch.owned.searching) hstate
    exact (hkeys.not_waiting hle hfew hpoll hstate (by decide) [_] hqueue).elim
  | searchCurr hstate hqueue hsearch hcurr hend =>
    have hpoint := HmPoint.innerLoop hf hnode hkeys hqueue hsearch hcurr hend hin
    have hsearching := hsearching hsearch.owned.searching
    unfold Deployment.hmSearch at hsearching
    rcases hstate with hstate | hstate
    · rw [hstate] at hsearching
      obtain ⟨⟨⟩, -, hsearching⟩ := bind_eq_ok.mp hsearching
      rw [Except.ok.inj hsearching] at hpoint
      exact hpoint
    · rw [hstate] at hsearching
      rw [Except.ok.inj hsearching] at hpoint
      exact hpoint
  | searchNext hstate hqueue hsearch =>
    obtain ⟨hpoll, -⟩ := readCurrPtrAgain_of_pass (hsearching hsearch.owned.searching) hstate
    exact (hkeys.not_waiting hle hfew hpoll hstate (by decide) [_, _] hqueue).elim
  | searchNode hstate hqueue hsearch =>
    obtain ⟨hpoll, -⟩ := readCurrPtrAgain_of_pass (hsearching hsearch.owned.searching) hstate
    exact (hkeys.not_waiting hle hfew hpoll hstate (by decide) [_] hqueue).elim
  | searchAgain hstate hqueue hsearch =>
    obtain ⟨hpoll, -⟩ := readCurrPtrAgain_of_pass (hsearching hsearch.owned.searching) hstate
    exact (hkeys.not_waiting hle hfew hpoll hstate (by decide) [] hqueue).elim
  | searched hstate hqueue hsearch hcurr hnext hmatched =>
    have hpoint := HmPoint.again hf hnode hkeys hqueue hsearch hcurr hnext hmatched hin
    obtain ⟨-, heq⟩ := readCurrPtrAgain_of_pass (hsearching hsearch.owned.searching) hstate
    rw [heq] at hpoint
    exact hpoint
  | tryInsert hat hqueue hbody hout hcurr hlt =>
    have hinsert := hmInsert_of_pass hpass hat.insOrDel
    unfold hmInsert at hinsert
    rw [hat.state] at hinsert
    cases hinsert
    refine .insPointing ⟨hat.insOrDel, rfl⟩ ?_ hbody hout
      ⟨hcurr.read, hcurr.unmarked, hcurr.before⟩ hlt rfl
    rw [hqueue]
    rfl
  | insPointing hat hqueue =>
    obtain ⟨hpoll, -⟩ := swapped_of_insert (hmInsert_of_pass hpass hat.insOrDel) hat.state
    exact (hkeys.not_waiting hle hfew hpoll hat.state (by decide) [_] hqueue).elim
  | insSwapping hat hqueue =>
    obtain ⟨hpoll, -⟩ := swapped_of_insert (hmInsert_of_pass hpass hat.insOrDel) hat.state
    exact (hkeys.not_waiting hle hfew hpoll hat.state (by decide) [] hqueue).elim
  | insSwapped hat hqueue hmember hfailed hmine =>
    obtain ⟨-, ⟨hsuccess, heq⟩ | ⟨hfailure, heq⟩⟩ :=
      swapped_of_insert (hmInsert_of_pass hpass hat.insOrDel) hat.state
    · cases heq
      rw [List.append_nil]
      exact .delInit ⟨rfl, rfl⟩ hqueue (hmember hsuccess)
    · obtain ⟨hbody, hout⟩ := hfailed hfailure
      have hpoint : HmPoint d store chain good member _ :=
        .transition (x := x) hqueue (.out (by rw [hat.insOrDel]; rfl) hbody hout) hmine
      rw [heq] at hpoint
      exact hpoint
  | delInit hat hqueue hmember =>
    have hdelete := hmDelete_of_pass hpass hat.insOrDel
    unfold Deployment.hmDelete at hdelete
    rw [hat.state] at hdelete
    cases hdelete
    exact .searchOwned hqueue (.linked (by rw [hat.insOrDel]; rfl) hmember)
  | tryDelete hat hqueue hmember hcurr hnext =>
    have hdelete := hmDelete_of_pass hpass hat.insOrDel
    unfold Deployment.hmDelete at hdelete
    rw [hat.state] at hdelete
    cases hdelete
    exact .tryDeletePass hkeys hqueue hmember hat hcurr hnext
  | delMarking hat hqueue =>
    obtain ⟨hpoll, -⟩ := marked_of_delete (hmDelete_of_pass hpass hat.insOrDel) hat.state
    exact (hkeys.not_waiting hle hfew hpoll hat.state (by decide) _ hqueue).elim
  | delMarked hat hqueue hmember hdead hcurr hnext =>
    obtain ⟨-, ⟨hsuccess, heq⟩ | ⟨hfailure, heq⟩⟩ :=
      marked_of_delete (hmDelete_of_pass hpass hat.insOrDel) hat.state
    · obtain ⟨hdead, hptr⟩ := hdead hsuccess
      have hpoint : HmPoint d store chain good member _ :=
        .linkOut hf hnode hkeys hqueue hat hdead hptr hcurr hnext
      rw [heq] at hpoint
      exact hpoint
    · have hpoint : HmPoint d store chain good member _ :=
        .searchOwned (x := x) hqueue (.linked (by rw [hat.insOrDel]; rfl) (hmember hfailure))
      rw [heq] at hpoint
      exact hpoint
  | delUnlinking hat hqueue =>
    obtain ⟨hpoll, -⟩ := unlinked_of_delete (hmDelete_of_pass hpass hat.insOrDel) hat.state
    exact (hkeys.not_waiting hle hfew hpoll hat.state (by decide) [] hqueue).elim
  | delUnlinked hat hqueue hout hdead =>
    obtain ⟨-, ⟨hsuccess, heq⟩ | ⟨hfailure, heq⟩⟩ :=
      unlinked_of_delete (hmDelete_of_pass hpass hat.insOrDel) hat.state
    · cases heq
      exact .deleted hqueue (hout hsuccess)
    · have hpoint : HmPoint d store chain good member ⟨(hmCleanUp x).1, x.queue ++ (hmCleanUp x).2,
          x.issued + (hmCleanUp x).2.length⟩ :=
        .searchOwned hqueue (.dead rfl ((hdead hfailure).congr rfl rfl))
      rw [heq] at hpoint
      exact hpoint
  | delClean hat hqueue hout =>
    have hdelete := hmDelete_of_pass hpass hat.insOrDel
    unfold Deployment.hmDelete at hdelete
    rw [hat.state] at hdelete
    obtain ⟨⟨⟩, -, hdelete⟩ := bind_eq_ok.mp hdelete
    cases hdelete
    exact .deleted hqueue hout

end Machines

end Odyssey
