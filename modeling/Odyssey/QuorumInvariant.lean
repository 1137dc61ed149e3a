/-
  THE FOUR COPIES OF THE MEMBERSHIP AGREE.

  Which remote machines are up is one set.  `Agrees cl up q` says that `q` stores the set `up` in
  all of its four forms: the active ids are the remote machines in `up`, in order; the missing ids
  are the others, in order; the bit of a remote id is set when its machine is in `up`; and the two
  boundaries are the ends of the active list.

  Both rebuilds run over the remote machines in increasing order, one by machine id and one by
  remote id, and sort each machine into one of the two lists (`Splits`); that these are the same
  order is `remotes_eq_map`.  So after a set-up all machines are up, after a timeout those with
  enough credits, after a revival one more than before: `ctxSetUpQInfo_agrees`,
  `updateQInfo_agrees`, `reviveMachine_agrees`.

  `checkBcastCredits` is one of these or none, whatever the credits (`checkBcastCredits_agrees`),
  so the copies agree in every reachable state; `WellFormed` reads off each of them what it says.
-/
import Odyssey.Quorum
import Odyssey.Lib.Runs
import Mathlib.Order.Bounds.Basic

namespace Odyssey

open Lib

/-! ## Sorting machines into two lists -/

/-- The lists of `q` split the machines `l`, in order, into those in `up` and the others. -/
structure Splits (up : Nat → Bool) (l : List Nat) (q : QuorumInfo) : Prop where
  active : q.active = l.filter up
  missing : q.missing = l.filter (fun m => !up m)

namespace Splits

variable {up : Nat → Bool} {l : List Nat} {q : QuorumInfo} {m : Nat}

theorem clear (q : QuorumInfo) : Splits up [] q.clear := ⟨rfl, rfl⟩

/-- The bits are not part of the lists. -/
theorem setSendVector (h : Splits up l q) (rm : Nat) (b : Bool) :
    Splits up l (q.setSendVector rm b) := ⟨h.active, h.missing⟩

theorem activeNum_le (h : Splits up l q) : q.activeNum ≤ l.length := by
  have hlen := congrArg List.length h.active
  rw [QuorumInfo.active, length_filled] at hlen
  rw [hlen]
  exact List.length_filter_le ..

theorem missingNum_le (h : Splits up l q) : q.missingNum ≤ l.length := by
  have hlen := congrArg List.length h.missing
  rw [QuorumInfo.missing, length_filled] at hlen
  rw [hlen]
  exact List.length_filter_le ..

theorem pushActive (h : Splits up l q) (hl : l.length < 255) (hm : up m = true) :
    Splits up (l ++ [m]) (q.pushActive m) := by
  have hnum : u8 (q.activeNum + 1) = q.activeNum + 1 := by
    have hle := h.activeNum_le
    exact u8_of_lt (by omega)
  constructor
  · show filled (Function.update q.activeIds q.activeNum m) (u8 (q.activeNum + 1)) = _
    rw [hnum, filled_push, List.filter_append, ← h.active]
    simp [QuorumInfo.active, hm]
  · show q.missing = _
    rw [List.filter_append, ← h.missing]
    simp [hm]

theorem pushMissing (h : Splits up l q) (hl : l.length < 255) (hm : up m = false) :
    Splits up (l ++ [m]) (q.pushMissing m) := by
  have hnum : u8 (q.missingNum + 1) = q.missingNum + 1 := by
    have hle := h.missingNum_le
    exact u8_of_lt (by omega)
  constructor
  · show q.active = _
    rw [List.filter_append, ← h.active]
    simp [hm]
  · show filled (Function.update q.missingIds q.missingNum m) (u8 (q.missingNum + 1)) = _
    rw [hnum, filled_push, List.filter_append, ← h.missing]
    simp [QuorumInfo.missing, hm]

end Splits

/-! ## What the q_info stores -/

/-- The pointers to the credits and the work requests, which no reconfiguration changes. -/
def QuorumInfo.pointers (q : QuorumInfo) :=
  (q.numOfSendWrs, q.sendWrsPtrs, q.numOfCreditTargets, q.creditPtrs, q.targets)

/-- `q` stores the set `up` of remote machines, in its four forms. -/
structure Agrees (cl : Cluster) (up : Nat → Bool) (q : QuorumInfo) : Prop where
  splits : Splits up cl.remotes q
  sendVector : ∀ rm, rm < cl.remMachNum → q.sendVector rm = up (cl.rmidToMid rm)
  first : 0 < q.activeNum → q.firstActiveRmId = cl.midToRmid (q.activeIds 0)
  last : 0 < q.activeNum → q.lastActiveRmId = cl.midToRmid (q.activeIds (q.activeNum - 1))

variable {cl : Cluster}

/-- The loops over remote ids visit the remote machines in order. -/
theorem remotes_take (hfit : cl.remMachNum < 2 ^ 8) {i : Nat} (hi : i < cl.remMachNum) :
    (List.range (i + 1)).map cl.rmidToMid = (List.range i).map cl.rmidToMid ++ [cl.rmidToMid i] ∧
      ((List.range i).map cl.rmidToMid).length < 255 := by
  constructor
  · rw [List.range_succ, List.map_append]
    rfl
  · rw [List.length_map, List.length_range]
    omega

/-- **Set-up**: every machine is up. -/
theorem ctxSetUpQInfo_agrees {bcasts : List (Nat × UInt16)} {q : QuorumInfo}
    (h : ctxSetUpQInfo cl bcasts = .ok q) :
    cl.remMachNum < 2 ^ 8 ∧ Agrees cl (fun _ => true) q := by
  obtain ⟨q', hloop, h⟩ := bind_eq_ok.mp h
  have hfit := (forPure_eq_ok.mp hloop).1
  refine ⟨hfit, ?_⟩
  have hpos := cl.remMachNum_pos
  have hnum : u8 cl.remMachNum = cl.remMachNum := u8_of_lt hfit
  have hlast : u8 (cl.remMachNum - 1) = cl.remMachNum - 1 := u8_of_lt (by omega)
  -- one round lists one machine and sets its bit
  have hrounds : ∀ i, i < cl.remMachNum →
      q'.activeIds i = cl.rmidToMid i ∧ q'.sendVector i = true := by
    refine forPure_rule (fun n (q : QuorumInfo) => ∀ i, i < n →
      q.activeIds i = cl.rmidToMid i ∧ q.sendVector i = true) hloop ?_ ?_
    · intro i hi
      nomatch hi
    · intro n q hn ih i hi
      by_cases hin : i = n
      · subst hin
        exact ⟨Function.update_self .., Function.update_self ..⟩
      · obtain ⟨hid, hbit⟩ := ih i (by omega)
        constructor
        · rw [← hid]
          exact Function.update_of_ne hin ..
        · rw [← hbit]
          exact Function.update_of_ne hin ..
  have hframe : q'.missingNum = 0 ∧ q'.activeNum = cl.remMachNum ∧ q'.firstActiveRmId = 0 ∧
      q'.lastActiveRmId = cl.remMachNum - 1 := by
    refine forPure_rule (fun _ (q : QuorumInfo) => q.missingNum = 0 ∧
      q.activeNum = cl.remMachNum ∧ q.firstActiveRmId = 0 ∧
      q.lastActiveRmId = cl.remMachNum - 1) hloop ?_ (fun _ _ _ ih => ih)
    exact ⟨rfl, hnum, rfl, hlast⟩
  have hagrees : Agrees cl (fun _ => true) q' := by
    obtain ⟨hmiss, hact, hfirst, hlst⟩ := hframe
    refine ⟨⟨?_, ?_⟩, fun rm hrm => (hrounds rm hrm).2, fun _ => ?_, fun _ => ?_⟩
    · rw [QuorumInfo.active, hact, Cluster.remotes_eq_map hfit, List.filter_true]
      exact List.map_congr_left fun i hi => (hrounds i (List.mem_range.mp hi)).1
    · rw [QuorumInfo.missing, hmiss]
      simp
    · rw [hfirst, (hrounds 0 hpos).1, Cluster.midToRmid_rmidToMid hfit hpos]
    · rw [hlst, hact, (hrounds _ (by omega)).1, Cluster.midToRmid_rmidToMid hfit (by omega)]
  split at h
  · cases h
    exact hagrees
  · split at h
    · nomatch h
    · cases h
      exact ⟨⟨hagrees.splits.active, hagrees.splits.missing⟩, hagrees.sendVector, hagrees.first,
        hagrees.last⟩

/-- **Timeout**: the machines with enough credits are up. -/
theorem updateQInfo_agrees {q q' : QuorumInfo} {credits : Nat → UInt16} {minCredits : UInt16}
    (h : updateQInfo cl q credits minCredits = .ok q') :
    Agrees cl (fun m => !decide (credits m < minCredits)) q' ∧ q'.pointers = q.pointers := by
  obtain ⟨q₁, hloop, h⟩ := bind_eq_ok.mp h
  have hnum := (forPure_eq_ok.mp hloop).1
  have hfit : cl.remMachNum < 2 ^ 8 := by
    unfold Cluster.remMachNum
    omega
  let up : Nat → Bool := fun m => !decide (credits m < minCredits)
  let sofar : Nat → List Nat := fun i => (List.range i).filter (· ≠ cl.machineId)
  have hinv : Splits up (sofar cl.machineNum) q₁ ∧
      (∀ m, m < cl.machineNum → m ≠ cl.machineId → q₁.sendVector (cl.midToRmid m) = up m) ∧
      q₁.pointers = q.pointers := by
    refine forPure_rule (fun i q' => Splits up (sofar i) q' ∧
      (∀ m, m < i → m ≠ cl.machineId → q'.sendVector (cl.midToRmid m) = up m) ∧
      q'.pointers = q.pointers) hloop ⟨Splits.clear q, ?_, rfl⟩ ?_
    · intro m hm
      nomatch hm
    · rintro i t hi ⟨hsplit, hbits, hptr⟩
      have hlen : (sofar i).length < 255 := by
        have hle : (sofar i).length ≤ (List.range i).length := List.length_filter_le ..
        rw [List.length_range] at hle
        omega
      have hnext : sofar (i + 1) = sofar i ++ [i].filter (· ≠ cl.machineId) := by
        show (List.range (i + 1)).filter _ = _
        rw [List.range_succ, List.filter_append]
      -- the bits of different machines are different bits
      have hbit : ∀ (s : QuorumInfo) (b : Bool), s.sendVector = t.sendVector → i ≠ cl.machineId →
          b = up i → ∀ m, m < i + 1 → m ≠ cl.machineId →
          (s.setSendVector (cl.midToRmid i) b).sendVector (cl.midToRmid m) = up m := by
        intro s b hs hid hb m hm hne
        show Function.update s.sendVector (cl.midToRmid i) b (cl.midToRmid m) = up m
        by_cases hmi : m = i
        · subst hmi
          rw [Function.update_self, hb]
        · rw [hs, Function.update_of_ne ?_, hbits m (by omega) hne]
          intro heq
          obtain ⟨_, -, hm', hrm⟩ := Cluster.exists_rmid hfit (cl.mem_remotes.mpr ⟨by omega, hne⟩)
          obtain ⟨_, -, hi', hri⟩ := Cluster.exists_rmid hfit (cl.mem_remotes.mpr ⟨hi, hid⟩)
          exact hmi (by rw [← hm', ← hi', ← hrm, ← hri, heq])
      by_cases hid : i = cl.machineId
      · simp only [if_pos hid]
        refine ⟨by rw [hnext]; simpa [hid] using hsplit, ?_, hptr⟩
        intro m hm hne
        exact hbits m (by omega) hne
      · rw [if_neg hid, hnext, show [i].filter (· ≠ cl.machineId) = [i] by simp [hid]]
        by_cases hcr : credits i < minCredits
        · rw [if_pos hcr]
          have hup : up i = false := by simp [up, hcr]
          exact ⟨(hsplit.pushMissing hlen hup).setSendVector .., hbit _ _ rfl hid hup.symm, hptr⟩
        · rw [if_neg hcr]
          have hup : up i = true := by simp [up, hcr]
          exact ⟨(hsplit.pushActive hlen hup).setSendVector .., hbit _ _ rfl hid hup.symm, hptr⟩
  obtain ⟨hsplit, hbits, hptr⟩ := hinv
  have hvec : ∀ rm, rm < cl.remMachNum → q₁.sendVector rm = up (cl.rmidToMid rm) := by
    intro rm hrm
    obtain ⟨hlt, hne⟩ := cl.mem_remotes.mp (Cluster.rmidToMid_mem hfit hrm)
    have hb := hbits _ hlt hne
    rwa [Cluster.midToRmid_rmidToMid hfit hrm] at hb
  cases h
  by_cases hact : 0 < q₁.activeNum
  · simp only [if_pos hact]
    exact ⟨⟨⟨hsplit.active, hsplit.missing⟩, hvec, fun _ => rfl, fun _ => rfl⟩, hptr⟩
  · simp only [if_neg hact]
    exact ⟨⟨⟨hsplit.active, hsplit.missing⟩, hvec, fun _ => rfl, fun h => absurd h hact⟩, hptr⟩

/-- The lists that `revive_machine` rebuilds from the bit vector. -/
theorem reviveLists_splits {q q₁ : QuorumInfo} {up : Nat → Bool} {m : Nat}
    (hfit : cl.remMachNum < 2 ^ 8) (ha : Agrees cl up q) (hm : m ∈ cl.remotes)
    (hloop : forPure 8 cl.remMachNum (fun q i =>
      if q.sendVector i then q.pushActive (cl.rmidToMid i) else q.pushMissing (cl.rmidToMid i))
      (q.setSendVector (cl.midToRmid m) true).clear = .ok q₁) :
    Splits (Function.update up m true) cl.remotes q₁ ∧
      (∀ rm, rm < cl.remMachNum → q₁.sendVector rm = Function.update up m true (cl.rmidToMid rm)) ∧
      q₁.pointers = q.pointers := by
  let up' := Function.update up m true
  obtain ⟨rm', hrm', hmid, hrmid⟩ := Cluster.exists_rmid hfit hm
  -- the bit vector is right before the lists are rebuilt from it
  have hvec : ∀ rm, rm < cl.remMachNum →
      (q.setSendVector (cl.midToRmid m) true).sendVector rm = up' (cl.rmidToMid rm) := by
    intro rm hrm
    show Function.update q.sendVector (cl.midToRmid m) true rm = up' (cl.rmidToMid rm)
    by_cases heq : rm = rm'
    · rw [heq, hrmid, Function.update_self, hmid]
      show true = Function.update up m true m
      rw [Function.update_self]
    · have hne : cl.rmidToMid rm ≠ m := by
        intro hc
        exact heq (by rw [← hrmid, ← hc, Cluster.midToRmid_rmidToMid hfit hrm])
      rw [hrmid, Function.update_of_ne heq, ha.sendVector rm hrm]
      exact (Function.update_of_ne hne ..).symm
  have hinv : Splits up' ((List.range cl.remMachNum).map cl.rmidToMid) q₁ ∧
      q₁.sendVector = (q.setSendVector (cl.midToRmid m) true).sendVector ∧
      q₁.pointers = q.pointers := by
    refine forPure_rule (fun i t => Splits up' ((List.range i).map cl.rmidToMid) t ∧
      t.sendVector = (q.setSendVector (cl.midToRmid m) true).sendVector ∧
      t.pointers = q.pointers) hloop ⟨Splits.clear _, rfl, rfl⟩ ?_
    rintro i t hi ⟨hsplit, hbits, hptr⟩
    obtain ⟨hnext, hlen⟩ := remotes_take hfit hi
    have hbit : t.sendVector i = up' (cl.rmidToMid i) := by rw [hbits, hvec i hi]
    rw [hnext]
    by_cases hb : t.sendVector i = true
    · rw [if_pos hb]
      exact ⟨hsplit.pushActive hlen (by rw [← hbit, hb]), hbits, hptr⟩
    · rw [if_neg hb]
      exact ⟨hsplit.pushMissing hlen (by rw [← hbit]; simpa using hb), hbits, hptr⟩
  obtain ⟨hsplit, hbits, hptr⟩ := hinv
  rw [← Cluster.remotes_eq_map hfit] at hsplit
  refine ⟨hsplit, fun rm hrm => ?_, hptr⟩
  rw [hbits, hvec rm hrm]

/-- **Revival**: one more machine is up. -/
theorem reviveMachine_agrees {q q' : QuorumInfo} {up : Nat → Bool} {m : Nat}
    (hfit : cl.remMachNum < 2 ^ 8) (ha : Agrees cl up q) (hm : m ∈ cl.remotes)
    (h : reviveMachine cl q m = .ok q') :
    Agrees cl (Function.update up m true) q' ∧ q'.pointers = q.pointers := by
  obtain ⟨q₁, hloop, h⟩ := bind_eq_ok.mp h
  obtain ⟨hsplit, hvec, hptr⟩ := reviveLists_splits hfit ha hm hloop
  split at h
  · nomatch h
  · cases h
    exact ⟨⟨⟨hsplit.active, hsplit.missing⟩, hvec, fun _ => rfl, fun _ => rfl⟩, hptr⟩

/-- The machine that is revived is active, so there is one. -/
theorem reviveMachine_returns {q : QuorumInfo} {up : Nat → Bool} {m : Nat}
    (hfit : cl.remMachNum < 2 ^ 8) (ha : Agrees cl up q) (hm : m ∈ cl.remotes) :
    ∃ q', reviveMachine cl q m = .ok q' := by
  obtain ⟨q₁, hloop⟩ : ∃ q₁, forPure 8 cl.remMachNum (fun (q : QuorumInfo) i =>
      if q.sendVector i then q.pushActive (cl.rmidToMid i) else q.pushMissing (cl.rmidToMid i))
      (q.setSendVector (cl.midToRmid m) true).clear = .ok q₁ := ⟨_, if_pos hfit⟩
  obtain ⟨hsplit, -, -⟩ := reviveLists_splits hfit ha hm hloop
  have hmem : m ∈ q₁.active := by
    rw [hsplit.active]
    exact List.mem_filter.mpr ⟨hm, Function.update_self ..⟩
  have hactive : q₁.activeNum ≠ 0 := by
    intro hzero
    rw [QuorumInfo.active, hzero] at hmem
    exact nomatch hmem
  unfold reviveMachine
  dsimp only
  rw [hloop, ok_bind, if_neg hactive]
  exact ⟨_, rfl⟩

/-! ## check_bcast_credits -/

/-- Linking the work requests touches the queues only. -/
theorem relink_eq {r r' : Reconf} (h : r.relink cl = .ok r') :
    r'.qInfo = r.qInfo ∧ r'.timeOutCnt = r.timeOutCnt := by
  refine foldlM_range_rule (P := fun _ (t : Reconf) =>
    t.qInfo = r.qInfo ∧ t.timeOutCnt = r.timeOutCnt) _ ⟨rfl, rfl⟩ ?_ h
  rintro i t t' - hinv hbody
  obtain ⟨s, -, hs⟩ := bind_eq_ok.mp hbody
  cases hs
  exact hinv

/-- What one call of `check_bcast_credits` does: it counts a broadcast without credits, or times
    it out, or it revives machines and answers. -/
theorem checkBcastCredits_cases {creditsOf : Nat → Nat → UInt16} {credits : Nat → UInt16}
    {minCredits : UInt16} {r r' : Reconf} {answer : Option UInt16}
    (h : checkBcastCredits cl creditsOf credits minCredits r = .ok (r', answer)) :
    (∃ cnt, r' = { r with timeOutCnt := cnt } ∧ answer = none) ∨
    (∃ q r₁, updateQInfo cl r.qInfo credits minCredits = .ok q ∧
      ({ r with qInfo := q, timeOutCnt := creditTimeout } : Reconf).relink cl = .ok r₁ ∧
      r' = { r₁ with timeOutCnt := 0 } ∧ answer = none) ∨
    ((∀ m ∈ r.qInfo.active, minCredits ≤ credits m) ∧
      (List.range (2 ^ 8)).foldlM (Reconf.reviveRound cl creditsOf) { r with timeOutCnt := 0 }
        = .ok r' ∧
      ((r'.qInfo.activeNum < cl.remoteQuorum ∧ answer = none) ∨
       (cl.remoteQuorum ≤ r'.qInfo.activeNum ∧ answer = some (r'.qInfo.active.foldl
          (fun avail m => if credits m < avail then credits m else avail) k64_)))) := by
  unfold checkBcastCredits at h
  split at h
  · dsimp only at h
    split at h
    · rename_i hcnt
      obtain ⟨q, hq, h⟩ := bind_eq_ok.mp h
      obtain ⟨r₁, hr₁, h⟩ := bind_eq_ok.mp h
      cases h
      rw [hcnt] at hr₁
      exact Or.inr (Or.inl ⟨q, r₁, hq, hr₁, rfl, rfl⟩)
    · cases h
      exact Or.inl ⟨_, rfl, rfl⟩
  · rename_i henough
    obtain ⟨r₁, hloop, h⟩ := bind_eq_ok.mp h
    have hcred : ∀ m ∈ r.qInfo.active, minCredits ≤ credits m := by
      intro m hm
      by_contra hlt
      exact henough (List.any_eq_true.mpr ⟨m, hm, by simpa using hlt⟩)
    right; right
    split at h
    · rename_i hquorum
      cases h
      exact ⟨hcred, hloop, Or.inl ⟨hquorum, rfl⟩⟩
    · rename_i hquorum
      cases h
      exact ⟨hcred, hloop, Or.inr ⟨by omega, rfl⟩⟩

/-- All targets of a missing machine are reached. -/
def TargetsReached (creditsOf : Nat → Nat → UInt16) (q : QuorumInfo) (m : Nat) : Prop :=
  ∀ t, t < q.numOfCreditTargets → creditsOf (q.creditPtrs t) m = q.targets t

/-- One round of the revival loop leaves everything, or revives a missing machine whose targets
    are reached. -/
theorem reviveRound_cases {creditsOf : Nat → Nat → UInt16} {r r' : Reconf} {i : Nat}
    (h : Reconf.reviveRound cl creditsOf r i = .ok r') :
    r' = r ∨ ∃ m q, m ∈ r.qInfo.missing ∧ TargetsReached creditsOf r.qInfo m ∧
      reviveMachine cl r.qInfo m = .ok q ∧ ({ r with qInfo := q } : Reconf).relink cl = .ok r' := by
  unfold Reconf.reviveRound at h
  split at h
  · rename_i htest
    obtain ⟨q, hq, h⟩ := bind_eq_ok.mp h
    rw [Bool.and_eq_true, decide_eq_true_eq] at htest
    refine Or.inr ⟨_, q, mem_filled.mpr ⟨i, htest.1, rfl⟩, ?_, hq, h⟩
    intro t ht
    have hall := List.all_eq_true.mp htest.2 t (List.mem_range.mpr ht)
    exact eq_of_beq hall
  · cases h
    exact Or.inl rfl

/-- The missing machines of a `q_info` are remote machines. -/
theorem Agrees.missing_remote {up : Nat → Bool} {q : QuorumInfo} (ha : Agrees cl up q) {m : Nat}
    (hm : m ∈ q.missing) : m ∈ cl.remotes := by
  rw [ha.splits.missing] at hm
  exact (List.mem_filter.mp hm).1

theorem Agrees.mem_active {up : Nat → Bool} {q : QuorumInfo} (ha : Agrees cl up q) {m : Nat} :
    m ∈ q.active ↔ m ∈ cl.remotes ∧ up m = true := by
  rw [ha.splits.active, List.mem_filter]

/-- The revival loop: it only adds machines whose targets are reached. -/
theorem reviveLoop_agrees {creditsOf : Nat → Nat → UInt16} {r r' : Reconf} {up : Nat → Bool}
    (hfit : cl.remMachNum < 2 ^ 8) (ha : Agrees cl up r.qInfo)
    (h : (List.range (2 ^ 8)).foldlM (Reconf.reviveRound cl creditsOf) r = .ok r') :
    ∃ up', Agrees cl up' r'.qInfo ∧ r'.qInfo.pointers = r.qInfo.pointers ∧
      ∀ m ∈ r'.qInfo.active, m ∈ r.qInfo.active ∨ TargetsReached creditsOf r.qInfo m := by
  refine foldlM_range_rule (P := fun _ (t : Reconf) => ∃ up', Agrees cl up' t.qInfo ∧
    t.qInfo.pointers = r.qInfo.pointers ∧
    ∀ m ∈ t.qInfo.active, m ∈ r.qInfo.active ∨ TargetsReached creditsOf r.qInfo m) _
    ⟨up, ha, rfl, fun m hm => Or.inl hm⟩ ?_ h
  rintro i t t' - ⟨up', ha', hptr, hadd⟩ hround
  rcases reviveRound_cases hround with rfl | ⟨m, q, hmiss, htar, hrev, hlink⟩
  · exact ⟨up', ha', hptr, hadd⟩
  · obtain ⟨hq, -⟩ := relink_eq hlink
    obtain ⟨ha'', hptr'⟩ := reviveMachine_agrees hfit ha' (ha'.missing_remote hmiss) hrev
    rw [hq]
    refine ⟨_, ha'', hptr'.trans hptr, fun m' hm' => ?_⟩
    obtain ⟨hrem, hup⟩ := ha''.mem_active.mp hm'
    by_cases heq : m' = m
    · subst heq
      right
      simp only [QuorumInfo.pointers, Prod.mk.injEq] at hptr
      obtain ⟨-, -, hnum, hcred, htgt⟩ := hptr
      intro k hk
      have hk' := htar k (by rw [hnum]; exact hk)
      rwa [hcred, htgt] at hk'
    · rw [Function.update_of_ne heq] at hup
      exact hadd m' (ha'.mem_active.mpr ⟨hrem, hup⟩)

/-- **Every call keeps the four copies together.** -/
theorem checkBcastCredits_agrees {creditsOf : Nat → Nat → UInt16} {credits : Nat → UInt16}
    {minCredits : UInt16} {r r' : Reconf} {answer : Option UInt16} {up : Nat → Bool}
    (hfit : cl.remMachNum < 2 ^ 8) (ha : Agrees cl up r.qInfo)
    (h : checkBcastCredits cl creditsOf credits minCredits r = .ok (r', answer)) :
    ∃ up', Agrees cl up' r'.qInfo ∧ r'.qInfo.pointers = r.qInfo.pointers := by
  rcases checkBcastCredits_cases h with ⟨cnt, rfl, -⟩ | ⟨q, r₁, hq, hlink, rfl, -⟩ | ⟨-, hloop, -⟩
  · exact ⟨up, ha, rfl⟩
  · obtain ⟨ha', hptr⟩ := updateQInfo_agrees hq
    obtain ⟨hr₁, -⟩ := relink_eq hlink
    refine ⟨fun m => !decide (credits m < minCredits), ?_, ?_⟩
    · show Agrees cl _ r₁.qInfo
      rw [hr₁]
      exact ha'
    · show r₁.qInfo.pointers = _
      rw [hr₁]
      exact hptr
  · obtain ⟨up', ha', hptr, -⟩ :=
      reviveLoop_agrees (r := { r with timeOutCnt := 0 }) hfit ha hloop
    exact ⟨up', ha', hptr⟩

/-! ## The active remote ids -/

/-- The remote ids a broadcast goes to, in order. -/
def QuorumInfo.activeRmIds (cl : Cluster) (q : QuorumInfo) : List Nat :=
  (List.range cl.remMachNum).filter q.sendVector

theorem QuorumInfo.activeRmIds_sorted (q : QuorumInfo) : (q.activeRmIds cl).Pairwise (· < ·) :=
  List.Pairwise.filter _ List.pairwise_lt_range

theorem QuorumInfo.mem_activeRmIds {q : QuorumInfo} {rm : Nat} :
    rm ∈ q.activeRmIds cl ↔ rm < cl.remMachNum ∧ q.sendVector rm = true := by
  rw [QuorumInfo.activeRmIds, List.mem_filter, List.mem_range]

namespace Agrees

variable {up : Nat → Bool} {q : QuorumInfo} (hfit : cl.remMachNum < 2 ^ 8) (ha : Agrees cl up q)

include hfit ha

/-- The active machines are those of the active remote ids, in the same order. -/
theorem active_eq_map : q.active = (q.activeRmIds cl).map cl.rmidToMid := by
  rw [ha.splits.active, Cluster.remotes_eq_map hfit, List.filter_map, QuorumInfo.activeRmIds]
  congr 1
  apply List.filter_congr
  intro rm hrm
  exact (ha.sendVector rm (List.mem_range.mp hrm)).symm

theorem activeNum_eq : q.activeNum = (q.activeRmIds cl).length := by
  have hlen := congrArg List.length (ha.active_eq_map hfit)
  rwa [QuorumInfo.active, length_filled, List.length_map] at hlen

/-- Converting an entry of the active list gives the remote id. -/
theorem midToRmid_activeIds {i : Nat} (hi : i < (q.activeRmIds cl).length) :
    cl.midToRmid (q.activeIds i) = (q.activeRmIds cl)[i] := by
  have hlen : i < q.active.length := by
    rw [ha.active_eq_map hfit, List.length_map]
    exact hi
  have hid : q.activeIds i = cl.rmidToMid (q.activeRmIds cl)[i] := by
    have hget : q.active[i] = q.activeIds i := getElem_filled hlen
    rw [← hget]
    simp only [ha.active_eq_map hfit, List.getElem_map]
  have hmem := List.getElem_mem hi
  rw [hid, Cluster.midToRmid_rmidToMid hfit (QuorumInfo.mem_activeRmIds.mp hmem).1]

theorem first_eq (hpos : 0 < (q.activeRmIds cl).length) :
    q.firstActiveRmId = (q.activeRmIds cl)[0] := by
  rw [ha.first (by rw [ha.activeNum_eq hfit]; exact hpos), ha.midToRmid_activeIds hfit hpos]

theorem last_eq (hpos : 0 < (q.activeRmIds cl).length) :
    q.lastActiveRmId = (q.activeRmIds cl)[(q.activeRmIds cl).length - 1] := by
  have hnum := ha.activeNum_eq hfit
  rw [ha.last (by rw [hnum]; exact hpos)]
  simp only [hnum]
  exact ha.midToRmid_activeIds hfit (by omega)

end Agrees

/-! ## What a reader of the q_info relies on -/

/-- The membership, read from each of its four forms. -/
structure QuorumInfo.WellFormed (cl : Cluster) (q : QuorumInfo) : Prop where
  active_sorted : q.active.Pairwise (· < ·)
  missing_sorted : q.missing.Pairwise (· < ·)
  disjoint : ∀ m ∈ q.active, m ∉ q.missing
  /-- together the lists hold every machine but the own one -/
  covers : ∀ m, m ∈ q.active ∨ m ∈ q.missing ↔ m < cl.machineNum ∧ m ≠ cl.machineId
  sendVector : ∀ rm, rm < cl.remMachNum →
    (q.sendVector rm = true ↔ cl.rmidToMid rm ∈ q.active)
  first : 0 < q.activeNum →
    IsLeast {rm | rm < cl.remMachNum ∧ q.sendVector rm = true} q.firstActiveRmId
  last : 0 < q.activeNum →
    IsGreatest {rm | rm < cl.remMachNum ∧ q.sendVector rm = true} q.lastActiveRmId

theorem Agrees.wellFormed {up : Nat → Bool} {q : QuorumInfo} (hfit : cl.remMachNum < 2 ^ 8)
    (ha : Agrees cl up q) : q.WellFormed cl := by
  have hmem : ∀ m, m ∈ q.active ↔ m ∈ cl.remotes ∧ up m = true := fun m => ha.mem_active
  have hmiss : ∀ m, m ∈ q.missing ↔ m ∈ cl.remotes ∧ up m = false := by
    intro m
    rw [ha.splits.missing, List.mem_filter]
    simp
  have hsorted : (q.activeRmIds cl).Pairwise (· < ·) := q.activeRmIds_sorted
  rw [List.pairwise_iff_getElem] at hsorted
  refine ⟨?_, ?_, ?_, ?_, ?_, ?_, ?_⟩
  · rw [ha.splits.active]
    exact List.Pairwise.filter _ cl.remotes_pairwise
  · rw [ha.splits.missing]
    exact List.Pairwise.filter _ cl.remotes_pairwise
  · intro m hact hm
    have hup := ((hmem m).mp hact).2
    have hdown := ((hmiss m).mp hm).2
    rw [hup] at hdown
    nomatch hdown
  · intro m
    rw [hmem, hmiss, ← cl.mem_remotes]
    cases up m <;> simp
  · intro rm hrm
    rw [hmem, ha.sendVector rm hrm]
    simp [Cluster.rmidToMid_mem hfit hrm]
  · intro hpos
    rw [ha.activeNum_eq hfit] at hpos
    rw [ha.first_eq hfit hpos]
    constructor
    · exact QuorumInfo.mem_activeRmIds.mp (List.getElem_mem hpos)
    · intro rm hrm
      obtain ⟨i, hi, rfl⟩ := List.getElem_of_mem (QuorumInfo.mem_activeRmIds.mpr hrm)
      rcases Nat.eq_zero_or_pos i with rfl | hi0
      · exact Nat.le_refl _
      · exact Nat.le_of_lt (hsorted 0 i hpos hi hi0)
  · intro hpos
    rw [ha.activeNum_eq hfit] at hpos
    rw [ha.last_eq hfit hpos]
    constructor
    · exact QuorumInfo.mem_activeRmIds.mp (List.getElem_mem _)
    · intro rm hrm
      obtain ⟨i, hi, rfl⟩ := List.getElem_of_mem (QuorumInfo.mem_activeRmIds.mpr hrm)
      by_cases hlast : i = (q.activeRmIds cl).length - 1
      · subst hlast
        exact Nat.le_refl _
      · exact Nat.le_of_lt (hsorted i _ hi (by omega) (by omega))

/-- One round of counting credits takes the smaller of two. -/
theorem smaller_spec (avail c : UInt16) :
    (if c < avail then c else avail) ≤ avail ∧ (if c < avail then c else avail) ≤ c ∧
      ((if c < avail then c else avail) = avail ∨ (if c < avail then c else avail) = c) := by
  by_cases h : c < avail
  · rw [if_pos h]
    exact ⟨UInt16.le_of_lt h, UInt16.le_refl c, Or.inr rfl⟩
  · rw [if_neg h]
    exact ⟨UInt16.le_refl avail, UInt16.not_lt.mp h, Or.inl rfl⟩

/-- Counting credits gives a lower bound, which is the start or one of the credits. -/
theorem availCred_fold (credits : Nat → UInt16) (l : List Nat) (a : UInt16) :
    ∃ avail, l.foldl (fun avail m => if credits m < avail then credits m else avail) a = avail ∧
      avail ≤ a ∧ (∀ m ∈ l, avail ≤ credits m) ∧ (avail = a ∨ ∃ m ∈ l, credits m = avail) := by
  induction l generalizing a with
  | nil => exact ⟨a, rfl, UInt16.le_refl a, fun _ h => (nomatch h), Or.inl rfl⟩
  | cons m l ih =>
    obtain ⟨hle, hlec, heq⟩ := smaller_spec a (credits m)
    obtain ⟨avail, hfold, hav, hall, hex⟩ := ih (if credits m < a then credits m else a)
    refine ⟨avail, hfold, UInt16.le_trans hav hle, ?_, ?_⟩
    · intro m' hm'
      rcases List.mem_cons.mp hm' with rfl | hm'
      · exact UInt16.le_trans hav hlec
      · exact hall m' hm'
    · rcases hex with rfl | ⟨m', hm', hc⟩
      · rcases heq with h | h
        · exact Or.inl h
        · exact Or.inr ⟨m, List.mem_cons_self, h.symm⟩
      · exact Or.inr ⟨m', List.mem_cons_of_mem _ hm', hc⟩

/-- The credits that are counted are the least of the active machines. -/
theorem availCred_isLeast {l : List Nat} (credits : Nat → UInt16) (hne : l ≠ []) :
    IsLeast {c | ∃ m ∈ l, credits m = c}
      (l.foldl (fun avail m => if credits m < avail then credits m else avail) k64_) := by
  obtain ⟨avail, hfold, -, hall, hex⟩ := availCred_fold credits l k64_
  rw [hfold]
  constructor
  · rcases hex with rfl | hex
    · -- the start is the largest `uint16_t`
      obtain ⟨m, hm⟩ := List.exists_mem_of_ne_nil l hne
      refine ⟨m, hm, UInt16.le_antisymm ?_ (hall m hm)⟩
      have hlt := (credits m).toNat_lt
      rw [UInt16.le_iff_toNat_le]
      show (credits m).toNat ≤ 65535
      omega
    · exact hex
  · rintro c ⟨m, hm, rfl⟩
    exact hall m hm

/-! ## Runs -/

/-- The arguments of a call of `check_bcast_credits`: what the credit pointers point to, the
    credits and the timeout counter of the broadcast at hand, and how many credits it needs. -/
structure CreditCheck where
  creditsOf : Nat → Nat → UInt16
  credits : Nat → UInt16
  timeOutCnt : Nat
  minCredits : UInt16

def creditCheckStep (cl : Cluster) (r : Reconf) (k : CreditCheck) :
    Outcome (Reconf × Option UInt16) :=
  checkBcastCredits cl k.creditsOf k.credits k.minCredits { r with timeOutCnt := k.timeOutCnt }

/-- The invariant of a run. -/
theorem creditCheck_run {bcasts : List (Nat × UInt16)} {q : QuorumInfo} {queue : Nat → SendQueue}
    {tr : List (CreditCheck × Option UInt16)} {r : Reconf} (hset : ctxSetUpQInfo cl bcasts = .ok q)
    (hrun : Run (creditCheckStep cl) ⟨q, queue, 0⟩ tr r) :
    ∃ up, Agrees cl up r.qInfo ∧ r.qInfo.pointers = q.pointers := by
  obtain ⟨hfit, ha⟩ := ctxSetUpQInfo_agrees hset
  refine hrun.invariant (fun _ (r : Reconf) =>
    ∃ up, Agrees cl up r.qInfo ∧ r.qInfo.pointers = q.pointers) ⟨_, ha, rfl⟩ ?_
  rintro - r k r' e - ⟨up, ha', hptr⟩ hstep
  obtain ⟨up', ha'', hptr'⟩ :=
    checkBcastCredits_agrees (r := { r with timeOutCnt := k.timeOutCnt }) hfit ha' hstep
  exact ⟨up', ha'', hptr'.trans hptr⟩

/-- What `true` means: a quorum is active, and the broadcast has `available_credits` credits for
    each active machine, and no more for some. -/
theorem checkBcastCredits_true {creditsOf : Nat → Nat → UInt16} {credits : Nat → UInt16}
    {minCredits n : UInt16} {r r' : Reconf} {up : Nat → Bool} (hfit : cl.remMachNum < 2 ^ 8)
    (ha : Agrees cl up r.qInfo)
    (h : checkBcastCredits cl creditsOf credits minCredits r = .ok (r', some n)) :
    cl.remoteQuorum ≤ r'.qInfo.activeNum ∧
    IsLeast {c | ∃ m ∈ r'.qInfo.active, credits m = c} n ∧
    ((∃ t, t < r.qInfo.numOfCreditTargets ∧ credits = creditsOf (r.qInfo.creditPtrs t)) →
      (∀ t, t < r.qInfo.numOfCreditTargets → minCredits ≤ r.qInfo.targets t) →
      minCredits ≤ n) := by
  rcases checkBcastCredits_cases h with ⟨_, -, hn⟩ | ⟨_, _, -, -, -, hn⟩ | ⟨henough, hloop, hans⟩
  · nomatch hn
  · nomatch hn
  · rcases hans with ⟨-, hn⟩ | ⟨hquorum, hn⟩
    · nomatch hn
    · obtain ⟨up', ha', -, hadd⟩ :=
        reviveLoop_agrees (r := { r with timeOutCnt := 0 }) hfit ha hloop
      have hne : r'.qInfo.active ≠ [] := by
        intro hnil
        have hlen := congrArg List.length hnil
        have hpos := cl.remoteQuorum_pos
        rw [QuorumInfo.active, length_filled] at hlen
        simp only [List.length_nil] at hlen
        omega
      have hleast := availCred_isLeast credits hne
      rw [← Option.some.inj hn] at hleast
      refine ⟨hquorum, hleast, ?_⟩
      rintro ⟨t, ht, hcred⟩ htargets
      obtain ⟨⟨m, hm, hmn⟩, -⟩ := hleast
      rw [← hmn]
      rcases hadd m hm with hold | hnew
      · exact henough m hold
      · -- a revived machine has all its credits back
        rw [hcred, hnew t ht]
        exact htargets t ht

/-- **The q_info is well formed in every reachable state, and `check_bcast_credits` answers
    right**, in any cluster, for any broadcast QPs and any sequence of calls. -/
theorem creditCheck_wellFormed {bcasts : List (Nat × UInt16)} {q : QuorumInfo}
    {queue : Nat → SendQueue} {tr : List (CreditCheck × Option UInt16)} {r : Reconf}
    (hset : ctxSetUpQInfo cl bcasts = .ok q)
    (hrun : Run (creditCheckStep cl) ⟨q, queue, 0⟩ tr r) :
    r.qInfo.WellFormed cl ∧
    ∀ k r' n, creditCheckStep cl r k = .ok (r', some n) →
      cl.remoteQuorum ≤ r'.qInfo.activeNum ∧
      IsLeast {c | ∃ m ∈ r'.qInfo.active, k.credits m = c} n ∧
      ((∃ t, t < q.numOfCreditTargets ∧ k.credits = k.creditsOf (q.creditPtrs t)) →
        (∀ t, t < q.numOfCreditTargets → k.minCredits ≤ q.targets t) → k.minCredits ≤ n) := by
  obtain ⟨hfit, -⟩ := ctxSetUpQInfo_agrees hset
  obtain ⟨up, ha, hptr⟩ := creditCheck_run hset hrun
  refine ⟨ha.wellFormed hfit, fun k r' n hstep => ?_⟩
  have h := checkBcastCredits_true (r := { r with timeOutCnt := k.timeOutCnt }) hfit ha hstep
  simp only [QuorumInfo.pointers, Prod.mk.injEq] at hptr
  obtain ⟨-, -, hnum, hcred, htgt⟩ := hptr
  rwa [hnum, hcred, htgt] at h

/-- The worker of machine 0 of three finds no credits of machine 1 for the last time. -/
def lastShort : CreditCheck :=
  ⟨fun _ m => if m = 1 then 0 else 5, fun m => if m = 1 then 0 else 5, creditTimeout - 1, 1⟩

/-- It finds all credits of machine 1, and 3 of machine 2. -/
def creditsBack : CreditCheck :=
  ⟨fun _ m => if m = 1 then 5 else 3, fun m => if m = 1 then 5 else 3, 0, 1⟩

/-- Three machines and one broadcast QP with 5 credits for each of the others.  A broadcast times
    out on machine 1, and the next finds machine 1 with all its credits, and revives it. -/
theorem creditCheck_wellFormed_three :
    ∃ q r r', ctxSetUpQInfo .three [(0, 5)] = .ok q ∧
      creditCheckStep .three ⟨q, fun _ => .blank, 0⟩ lastShort = .ok (r, none) ∧
      r.qInfo.missing = [1] ∧ r.qInfo.WellFormed .three ∧
      creditCheckStep .three r creditsBack = .ok (r', some 3) ∧
      r'.qInfo.missing = [] ∧ r'.qInfo.WellFormed .three ∧
      Cluster.three.remoteQuorum ≤ r'.qInfo.activeNum ∧
      IsLeast {c | ∃ m ∈ r'.qInfo.active, creditsBack.credits m = c} 3 := by
  have hcalls : (do
      let q ← ctxSetUpQInfo .three [(0, 5)]
      let r ← creditCheckStep .three ⟨q, fun _ => .blank, 0⟩ lastShort
      let r' ← creditCheckStep .three r.1 creditsBack
      return ([r.1.qInfo.missing, r'.1.qInfo.missing], [r.2, r'.2]) :
      Outcome (List (List Nat) × List (Option UInt16))) = .ok ([[1], []], [none, some 3]) := by
    decide +kernel
  obtain ⟨q, hq, hcalls⟩ := bind_eq_ok.mp hcalls
  obtain ⟨⟨r, e⟩, hr, hcalls⟩ := bind_eq_ok.mp hcalls
  obtain ⟨⟨r', e'⟩, hr', hcalls⟩ := bind_eq_ok.mp hcalls
  simp only [pure, Except.pure, Except.ok.injEq, Prod.mk.injEq, List.cons.injEq, and_true]
    at hcalls
  obtain ⟨⟨hmissing, hmissing'⟩, rfl, rfl⟩ := hcalls
  have hone := creditCheck_wellFormed hq (.single hr)
  obtain ⟨hquorum, hleast, -⟩ := hone.2 _ _ _ hr'
  exact ⟨q, r, r', hq, hr, hmissing, hone.1, hr', hmissing',
    (creditCheck_wellFormed hq ((Run.single hr).snoc hr')).1, hquorum, hleast⟩

end Odyssey
