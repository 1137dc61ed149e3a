/-
  WHAT A SESSION OF THE HARRIS-MICHAEL LISTS READS.

  The four reads of a search, in order: of the head, of the pointer and the body of the node behind,
  and again of the pointer before.  None of them writes anything, and each takes a session to its
  next point.  What was read of the node behind becomes good when the pointer before it was the same
  (`HmPoint.readAgain`): then that pointer was in the list all the time, and so was the node.

  This is also where the comparison of a search could go wrong: it does not see whether the pointer
  before was overwritten, so that it was not is a hypothesis here.
-/
import Odyssey.HarrisMichaelPasses

namespace Odyssey

open Lib

variable {d : Deployment} {store : HmStore} {chain : Nat → List Nat} {good good' : Nat → Prop}
  {member : Option Nat} {x : HmSession} {k : Nat}

/-! ## Reading a pointer of a list -/

/-- A pointer of the list, as it is. -/
theorem HmLists.ptrRead (hlists : HmLists d store chain) (hf : HmFits d) {l p : Nat}
    (hl : l < d.hmListsNum) (hp : p ∈ chain l) :
    PtrRead d store (chain l) good p (store.ptr p) where
  myKey := hlists.myKey l p hl hp
  valid := hlists.valid l p hl hp
  lt := hlists.after_gt hf hl hp
  later _ := .refl _
  mem _ _ := hp

theorem PtrRead.mono {l : List Nat} {p : Nat} {v : HmPtr} (h : PtrRead d store l good p v)
    (hgood : good' p → good p) : PtrRead d store l good' p v where
  myKey := h.myKey
  valid := h.valid
  lt := h.lt
  later hp := h.later (hgood hp)
  mem hp := h.mem (hgood hp)

/-- While the pointer before is the same, the pointer behind is in the list. -/
theorem CurrRead.next_mem {l : Nat} {info : HmSessInfo}
    (hcurr : CurrRead d store (chain l) good info) (hlists : HmLists d store chain)
    (hf : HmFits d) (hl : l < d.hmListsNum)
    (hne : info.currPtr.nextKeyId ≠ 0) (h : Unchanged store good info) :
    info.prevPtr ∈ chain l ∧ d.behind info.currPtr ∈ chain l := by
  have hmem : info.prevPtr ∈ chain l :=
    hcurr.read.mem h.good (by rw [h.same]; exact hcurr.unmarked)
  refine ⟨hmem, ?_⟩
  rw [← h.same]
  exact hlists.after_mem hf hl hmem (by rw [h.same]; exact hne)

theorem HmKeys.list_lt_owned (hkeys : HmKeys d k x) (hf : HmFits d) (hnode : d.isHmNode k) :
    x.info.listId < x.info.ownedKeyPtr := by
  rw [hkeys.ownedKeyPtr]
  exact Nat.lt_of_lt_of_le hkeys.list_lt (hf.linkKey_range hnode).1

/-- **The head is read.** -/
theorem HmPoint.readHead (hlists : HmLists d store chain) (hf : HmFits d) (hnode : d.isHmNode k)
    (hkeys : HmKeys d k x) (hstate : x.info.state = .searchInnerLoop)
    (hsearch : Searches d store chain member x.info) (hprev : x.info.prevPtr = x.info.listId) :
    HmPoint d store chain good member
      ⟨x.info.fill (store.ptr x.info.listId) .currPtr, [], x.issued⟩ := by
  have hl := hkeys.list_lt
  have hlt := hkeys.list_lt_owned hf hnode
  have hhead := hlists.head_mem hl
  refine .searchCurr (Or.inl hstate) rfl (hsearch.congr rfl rfl rfl rfl rfl) ⟨?_, ?_, ?_⟩
    fun hzero => hlists.not_mem_of_last hf hl hhead hzero hlt
  · show PtrRead d store _ good x.info.prevPtr (store.ptr x.info.listId)
    rw [hprev]
    exact hlists.ptrRead hf hl hhead
  · exact hlists.head _ hl
  · show x.info.prevPtr < x.info.ownedKeyPtr
    rw [hprev]
    exact hlt

/-- **The pointer behind is read.** -/
theorem HmPoint.readNext (hlists : HmLists d store chain) (hf : HmFits d) (hkeys : HmKeys d k x)
    (hgood : ∀ p, p ≠ d.behind x.info.currPtr → good' p → good p)
    (hstate : x.info.state = .readCurrPtrAgain) (hsearch : Searches d store chain member x.info)
    (hcurr : CurrRead d store (chain x.info.listId) good x.info)
    (hne : x.info.currPtr.nextKeyId ≠ 0) :
    HmPoint d store chain good' member
      ⟨x.info.fill (store.ptr (d.behind x.info.currPtr)) .nextPtr,
        [.readNextNode x.info.currPtr.nextKeyId, .readPtr x.info.prevPtr .newCurrPtr],
        x.issued⟩ := by
  have hl := hkeys.list_lt
  have hprev := hgood x.info.prevPtr (Nat.ne_of_lt hcurr.read.lt)
  refine .searchNode hstate rfl (hsearch.congr rfl rfl rfl rfl rfl)
    ⟨hcurr.read.mono hprev, hcurr.unmarked, hcurr.before⟩ hne ⟨fun _ => .refl _, ?_, ?_⟩
  · intro hcl hown
    change x.info.insOrDelState = .searchingCl at hcl
    change d.behind x.info.currPtr = x.info.ownedKeyPtr at hown
    show (store.ptr (d.behind x.info.currPtr)).marked = true
    rw [hown]
    cases hsearch.owned with
    | out hp => exact absurd (hp.symm.trans hcl) (by decide)
    | linked hp => exact absurd (hp.symm.trans hcl) (by decide)
    | dead _ hdead => exact hdead.marked
  · rintro ⟨hbefore, hsame⟩
    obtain ⟨-, hmem⟩ := hcurr.next_mem hlists hf hl hne ⟨hprev hbefore, hsame⟩
    exact ⟨hlists.myKey _ _ hl hmem, hlists.valid _ _ hl hmem, hlists.after_gt hf hl hmem, .refl _,
      fun hzero hlt => hlists.not_mem_of_last hf hl hmem hzero hlt⟩

/-- **The body behind is read.** -/
theorem HmPoint.readNode (hlists : HmLists d store chain) (hf : HmFits d) (hkeys : HmKeys d k x)
    (hstate : x.info.state = .readCurrPtrAgain) (hsearch : Searches d store chain member x.info)
    (hcurr : CurrRead d store (chain x.info.listId) good x.info)
    (hne : x.info.currPtr.nextKeyId ≠ 0)
    (hread : NextRead d store (chain x.info.listId) good x.info) :
    HmPoint d store chain good member
      ⟨{ x.info with nextNode := store.node x.info.currPtr.nextKeyId },
        [.readPtr x.info.prevPtr .newCurrPtr], x.issued⟩ := by
  refine .searchAgain hstate rfl (hsearch.congr rfl rfl rfl rfl rfl)
    ⟨hcurr.read, hcurr.unmarked, hcurr.before⟩ hne
    ⟨hread.later, hread.dead, fun h => hread.known ⟨h.good, h.same⟩⟩ fun h => ?_
  have hmem := (hcurr.next_mem hlists hf hkeys.list_lt hne ⟨h.good, h.same⟩).2
  have hbehind := behind_of_ne (d := d) hne
  rw [hbehind] at hmem
  exact (hlists.body _ _ hkeys.list_lt (hcurr.read.valid hne) hmem).trans hbehind.symm

/-- **The pointer before is read again.**  If it is equal, it is the same, unless it was
    overwritten. -/
theorem HmPoint.readAgain (hlists : HmLists d store chain) (hf : HmFits d) (hkeys : HmKeys d k x)
    (hgood : hmPtrsAreEqual x.info.currPtr (store.ptr x.info.prevPtr) = true → good x.info.prevPtr)
    (hstate : x.info.state = .readCurrPtrAgain) (hsearch : Searches d store chain member x.info)
    (hcurr : CurrRead d store (chain x.info.listId) good x.info)
    (hne : x.info.currPtr.nextKeyId ≠ 0)
    (hread : NextRead d store (chain x.info.listId) good x.info)
    (hbody : Unchanged store good x.info →
      x.info.nextNode.nodePtrKeyId = d.behind x.info.currPtr) :
    HmPoint d store chain good member
      ⟨x.info.fill (store.ptr x.info.prevPtr) .newCurrPtr, [], x.issued⟩ := by
  have hl := hkeys.list_lt
  refine .searched hstate rfl (hsearch.congr rfl rfl rfl rfl rfl)
    ⟨hcurr.read, hcurr.unmarked, hcurr.before⟩ hne fun hequal => ?_
  have hsame : store.ptr x.info.prevPtr = x.info.currPtr :=
    (hcurr.read.later (hgood hequal)).eq_of_equal hcurr.unmarked hequal
  have hunchanged : Unchanged store good x.info := ⟨hgood hequal, hsame⟩
  obtain ⟨hmem, hnext⟩ := hcurr.next_mem hlists hf hl hne hunchanged
  obtain ⟨hmy, hvalid, hlt, hlater, hlast⟩ := hread.known hunchanged
  constructor
  case same => exact hsame
  case body => exact hbody hunchanged
  case read => exact ⟨hmy, hvalid, hlt, hread.later, fun _ _ => hnext⟩
  case still => exact fun _ => hlater
  case last => exact hlast
  case gap =>
    intro hle
    by_cases hown : x.info.ownedKeyPtr ∈ chain x.info.listId
    · have hafter := (hlists.after_le hl hmem hown hcurr.before).2
      rw [HmStore.after, hsame] at hafter
      exact Or.inl (Nat.le_antisymm hafter hle)
    · exact Or.inr hown
  case out =>
    intro hins heq
    change x.info.insOrDelState = .searchingIns at hins
    cases hsearch.owned with
    | out _ _ hout => exact hout _ hl (heq ▸ hnext)
    | linked hp => exact absurd (hp.symm.trans hins) (by decide)
    | dead hp => exact absurd (hp.symm.trans hins) (by decide)
  case dead => exact hread.dead

end Odyssey
