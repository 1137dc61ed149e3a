/-
  WHICH MACHINES A BROADCAST REVIVES.

  A call of `check_bcast_credits` that finds enough credits looks at every missing machine and
  revives those that have all their credits back.  It walks `missing_ids` by index, and
  `revive_machine` rebuilds that array: the ids behind the revived one move one place forward, and
  the walk goes on behind the first of them.  So the list left is `eraseWalk` of the list found
  (`reviveLoop_walk`), whatever the credits.

  A machine that is not ready is never revived.  All that are ready are revived if and only if no
  two of them are neighbours in `missing_ids` (`revives_ready`).
-/
import Odyssey.QuorumInvariant
import Odyssey.Lib.EraseWalk

namespace Odyssey

open Lib

variable {cl : Cluster}

/-! ## The revival loop -/

/-- `all_q_info_targets_are_reached`, for a machine. -/
def targetsReached (creditsOf : Nat → Nat → UInt16) (q : QuorumInfo) (m : Nat) : Bool :=
  (List.range q.numOfCreditTargets).all fun tarI => creditsOf (q.creditPtrs tarI) m == q.targets tarI

theorem targetsReached_iff {creditsOf : Nat → Nat → UInt16} {q : QuorumInfo} {m : Nat} :
    targetsReached creditsOf q m = true ↔ TargetsReached creditsOf q m := by
  unfold targetsReached TargetsReached
  simp only [List.all_eq_true, List.mem_range, beq_iff_eq]

theorem targetsReached_congr {creditsOf : Nat → Nat → UInt16} {q q' : QuorumInfo}
    (h : q'.pointers = q.pointers) : targetsReached creditsOf q' = targetsReached creditsOf q := by
  simp only [QuorumInfo.pointers, Prod.mk.injEq] at h
  obtain ⟨-, -, hnum, hcred, htgt⟩ := h
  funext m
  unfold targetsReached
  rw [hnum, hcred, htgt]

/-- One machine up more is one missing less. -/
theorem Agrees.missing_update {up : Nat → Bool} {q q' : QuorumInfo} {m : Nat}
    (ha : Agrees cl up q) (ha' : Agrees cl (Function.update up m true) q') :
    q'.missing = q.missing.filter (fun a => a != m) := by
  rw [ha.splits.missing, ha'.splits.missing, List.filter_filter]
  refine List.filter_congr fun a _ => ?_
  by_cases ham : a = m
  · subst ham
    simp
  · simp [ham]

theorem Agrees.missing_nodup {up : Nat → Bool} {q : QuorumInfo} (ha : Agrees cl up q) :
    q.missing.Nodup := by
  rw [ha.splits.missing]
  exact cl.remotes_nodup.filter _

theorem Agrees.missing_length {up : Nat → Bool} {q : QuorumInfo} (ha : Agrees cl up q) :
    q.missing.length ≤ cl.remMachNum := by
  have hremotes : cl.remotes.length ≤ cl.remMachNum := by
    have hmem : cl.machineId ∈ List.range cl.machineNum := List.mem_range.mpr cl.id_lt
    have hsplit := List.length_eq_length_filter_add (l := List.range cl.machineNum)
      (fun m => decide (m ≠ cl.machineId))
    have hown : 0 < ((List.range cl.machineNum).filter fun m => !decide (m ≠ cl.machineId)).length :=
      List.length_pos_of_mem (List.mem_filter.mpr ⟨hmem, by simp⟩)
    rw [List.length_range] at hsplit
    unfold Cluster.remotes Cluster.remMachNum
    omega
  rw [ha.splits.missing]
  exact Nat.le_trans (List.length_filter_le ..) hremotes

/-- What the loop has done after `i` rounds: it has kept `done`, and will walk `rest`. -/
def Walked (cl : Cluster) (ready : Nat → Bool) (q : QuorumInfo) (i : Nat) (t : QuorumInfo) : Prop :=
  (∃ up, Agrees cl up t) ∧ t.pointers = q.pointers ∧
    ∃ done rest, t.missing = done ++ rest ∧ (done.length = i ∨ rest = [] ∧ done.length ≤ i) ∧
      done ++ eraseWalk ready rest = eraseWalk ready q.missing

/-- The round looks at the first machine of `rest`. -/
theorem missingIds_eq {q : QuorumInfo} {done rest : List Nat} {m : Nat}
    (h : q.missing = done ++ m :: rest) :
    done.length < q.missingNum ∧ q.missingIds done.length = m := by
  have hlen := congrArg List.length h
  rw [QuorumInfo.missing, length_filled, List.length_append, List.length_cons] at hlen
  have hlt : done.length < q.missingNum := by omega
  refine ⟨hlt, ?_⟩
  have hget : (filled q.missingIds q.missingNum)[done.length]? = some m := by
    have h' : filled q.missingIds q.missingNum = done ++ m :: rest := h
    rw [h', List.getElem?_append_right (Nat.le_refl _), Nat.sub_self]
    rfl
  rw [List.getElem?_eq_getElem (by rw [length_filled]; exact hlt), getElem_filled] at hget
  exact Option.some.inj hget

theorem reviveRound_walked {creditsOf : Nat → Nat → UInt16} {q : QuorumInfo} {t t' : Reconf}
    {i : Nat} (hfit : cl.remMachNum < 2 ^ 8)
    (h : Walked cl (targetsReached creditsOf q) q i t.qInfo)
    (hround : Reconf.reviveRound cl creditsOf t i = .ok t') :
    Walked cl (targetsReached creditsOf q) q (i + 1) t'.qInfo := by
  obtain ⟨⟨up, ha⟩, hptr, done, rest, hmissing, hat, hwalk⟩ := h
  have hready : targetsReached creditsOf t.qInfo = targetsReached creditsOf q :=
    targetsReached_congr hptr
  unfold Reconf.reviveRound at hround
  cases rest with
  | nil =>
    -- the walk is over
    have hnum : t.qInfo.missingNum = done.length := by
      have hlen := congrArg List.length hmissing
      rwa [QuorumInfo.missing, length_filled, List.append_nil] at hlen
    have hend : ¬ i < t.qInfo.missingNum := by omega
    rw [decide_eq_false hend, Bool.false_and, if_neg Bool.false_ne_true] at hround
    cases hround
    exact ⟨⟨up, ha⟩, hptr, done, [], hmissing, Or.inr ⟨rfl, by omega⟩, hwalk⟩
  | cons m rest =>
    have hlen : done.length = i := hat.resolve_right fun h => by cases h.1
    subst hlen
    obtain ⟨hlt, hid⟩ := missingIds_eq hmissing
    have htest : allQInfoTargetsAreReached creditsOf t.qInfo done.length
        = targetsReached creditsOf q m := by
      rw [← hready, ← hid]
      rfl
    rw [decide_eq_true hlt, Bool.true_and, htest, hid] at hround
    cases hm : targetsReached creditsOf q m with
    | false =>
      -- it stays
      rw [hm, if_neg Bool.false_ne_true] at hround
      cases hround
      refine ⟨⟨up, ha⟩, hptr, done ++ [m], rest, ?_, Or.inl (by simp), ?_⟩
      · rw [hmissing, List.append_assoc, List.singleton_append]
      · rw [← hwalk, eraseWalk_cons_of_not hm, List.append_assoc, List.singleton_append]
    | true =>
      -- it is revived, and the one behind it takes its place
      rw [hm, if_pos rfl] at hround
      obtain ⟨q', hrev, hlink⟩ := bind_eq_ok.mp hround
      have hmem : m ∈ t.qInfo.missing := by
        rw [hmissing]
        simp
      obtain ⟨hq, -⟩ := relink_eq hlink
      obtain ⟨ha', hptr'⟩ := reviveMachine_agrees hfit ha (ha.missing_remote hmem) hrev
      have hnodup := ha.missing_nodup
      rw [hmissing, List.nodup_append, List.nodup_cons] at hnodup
      obtain ⟨-, ⟨hmrest, -⟩, hdisjoint⟩ := hnodup
      have hmissing' : t'.qInfo.missing = done ++ rest := by
        have hkeep : ∀ l : List Nat, m ∉ l → l.filter (fun a => a != m) = l := by
          intro l hl
          refine List.filter_eq_self.mpr fun a hal => ?_
          rw [bne_iff_ne]
          rintro rfl
          exact hl hal
        have hmdone : m ∉ done := fun hmd => hdisjoint m hmd m List.mem_cons_self rfl
        rw [hq, ha.missing_update ha', hmissing, List.filter_append, List.filter_cons,
          if_neg (by simp), hkeep done hmdone, hkeep rest hmrest]
      refine ⟨⟨_, by rw [hq]; exact ha'⟩, ?_, ?_⟩
      · rw [hq]
        exact hptr'.trans hptr
      · cases rest with
        | nil =>
          rw [eraseWalk_single hm] at hwalk
          exact ⟨done, [], hmissing', Or.inr ⟨rfl, Nat.le_succ _⟩, hwalk⟩
        | cons y rest =>
          rw [eraseWalk_cons_cons hm] at hwalk
          refine ⟨done ++ [y], rest, ?_, Or.inl (by simp), ?_⟩
          · rw [hmissing', List.append_assoc, List.singleton_append]
          · rw [← hwalk, List.append_assoc, List.singleton_append]

/-- **The revival loop** leaves the walk of the missing machines. -/
theorem reviveLoop_walk {creditsOf : Nat → Nat → UInt16} {r r' : Reconf} {up : Nat → Bool}
    (hfit : cl.remMachNum < 2 ^ 8) (ha : Agrees cl up r.qInfo)
    (h : (List.range (2 ^ 8)).foldlM (Reconf.reviveRound cl creditsOf) r = .ok r') :
    (∃ up', Agrees cl up' r'.qInfo) ∧
      r'.qInfo.missing = eraseWalk (targetsReached creditsOf r.qInfo) r.qInfo.missing := by
  have hwalked : Walked cl (targetsReached creditsOf r.qInfo) r.qInfo (2 ^ 8) r'.qInfo := by
    refine foldlM_range_rule (P := fun i (t : Reconf) =>
      Walked cl (targetsReached creditsOf r.qInfo) r.qInfo i t.qInfo) _ ?_ ?_ h
    · exact ⟨⟨up, ha⟩, rfl, [], r.qInfo.missing, rfl, Or.inl rfl, rfl⟩
    · intro i t t' _ hinv hround
      exact reviveRound_walked hfit hinv hround
  obtain ⟨⟨up', ha'⟩, -, done, rest, hmissing, hat, hwalk⟩ := hwalked
  refine ⟨⟨up', ha'⟩, ?_⟩
  have hlen := ha'.missing_length
  rw [hmissing, List.length_append] at hlen
  have hrest : rest = [] := by
    rcases hat with hdone | ⟨hnil, -⟩
    · omega
    · exact hnil
  subst hrest
  rw [hmissing, ← hwalk]
  rfl

/-! ## The call returns -/

theorem relink_returns (hfit : cl.remMachNum < 2 ^ 8) (r : Reconf) :
    ∃ r', r.relink cl = .ok r' := by
  have hfold : ∃ r', r.relink cl = .ok r' ∧ True := by
    unfold Reconf.relink
    refine foldlM_range_total (P := fun _ _ => True) _ trivial ?_
    intro wrI t _ _
    obtain ⟨s, hs⟩ : ∃ s, updateBcastWrLinks cl t.qInfo (t.queue (t.qInfo.sendWrsPtrs wrI))
        = .ok s := by
      unfold updateBcastWrLinks forPure
      rw [if_pos hfit]
      exact ⟨_, rfl⟩
    dsimp only
    rw [hs]
    exact ⟨_, rfl, trivial⟩
  obtain ⟨r', hr', -⟩ := hfold
  exact ⟨r', hr'⟩

/-- The revival loop returns. -/
theorem reviveLoop_returns {creditsOf : Nat → Nat → UInt16} {r : Reconf} {up : Nat → Bool}
    (hfit : cl.remMachNum < 2 ^ 8) (ha : Agrees cl up r.qInfo) :
    ∃ r', (List.range (2 ^ 8)).foldlM (Reconf.reviveRound cl creditsOf) r = .ok r' := by
  obtain ⟨r', hr', -⟩ : ∃ r', (List.range (2 ^ 8)).foldlM (Reconf.reviveRound cl creditsOf) r
      = .ok r' ∧ ∃ up', Agrees cl up' r'.qInfo := by
    refine foldlM_range_total (P := fun _ (t : Reconf) => ∃ up', Agrees cl up' t.qInfo) _
      ⟨up, ha⟩ ?_
    rintro i t - ⟨up', ha'⟩
    unfold Reconf.reviveRound
    split
    · rename_i htest
      rw [Bool.and_eq_true, decide_eq_true_eq] at htest
      have hmem : t.qInfo.missingIds i ∈ t.qInfo.missing := mem_filled.mpr ⟨i, htest.1, rfl⟩
      obtain ⟨q', hq'⟩ := reviveMachine_returns hfit ha' (ha'.missing_remote hmem)
      obtain ⟨ha'', -⟩ := reviveMachine_agrees hfit ha' (ha'.missing_remote hmem) hq'
      obtain ⟨t', ht'⟩ := relink_returns hfit ({ t with qInfo := q' } : Reconf)
      rw [hq', ok_bind]
      exact ⟨t', ht', _, by rw [(relink_eq ht').1]; exact ha''⟩
    · exact ⟨t, rfl, up', ha'⟩
  exact ⟨r', hr'⟩

/-! ## The result -/

/-- A call revives the missing machines that are ready, and no others. -/
structure RevivesReady (creditsOf : Nat → Nat → UInt16) (q q' : QuorumInfo) : Prop where
  ready : ∀ m ∈ q.missing, TargetsReached creditsOf q m → m ∈ q'.active
  others : ∀ m ∈ q.missing, ¬ TargetsReached creditsOf q m → m ∈ q'.missing

/-- What a call that finds enough credits leaves missing. -/
theorem creditCheck_walk {r : Reconf} {up : Nat → Bool} (hfit : cl.remMachNum < 2 ^ 8)
    (ha : Agrees cl up r.qInfo) {k : CreditCheck}
    (henough : ∀ m ∈ r.qInfo.active, k.minCredits ≤ k.credits m) :
    ∃ r' answer, creditCheckStep cl r k = .ok (r', answer) ∧ (∃ up', Agrees cl up' r'.qInfo) ∧
      r'.qInfo.missing = eraseWalk (targetsReached k.creditsOf r.qInfo) r.qInfo.missing := by
  have hreturns : ∃ r', (List.range (2 ^ 8)).foldlM (Reconf.reviveRound cl k.creditsOf)
      { r with timeOutCnt := 0 } = .ok r' := reviveLoop_returns hfit ha
  obtain ⟨r', hloop⟩ := hreturns
  obtain ⟨hagrees, hmissing⟩ := reviveLoop_walk (r := { r with timeOutCnt := 0 }) hfit ha hloop
  have hfast : r.qInfo.active.any (fun m => decide (k.credits m < k.minCredits)) = false := by
    rw [List.any_eq_false]
    intro m hm
    have hle := henough m hm
    simpa using hle
  unfold creditCheckStep checkBcastCredits
  dsimp only
  rw [hfast, if_neg Bool.false_ne_true, hloop, ok_bind]
  split
  · exact ⟨r', _, rfl, hagrees, hmissing⟩
  · exact ⟨r', _, rfl, hagrees, hmissing⟩

/-- The missing machines that are ready are revived, if and only if none of them is left over. -/
theorem revivesReady_iff {creditsOf : Nat → Nat → UInt16} {q q' : QuorumInfo} {up up' : Nat → Bool}
    (ha : Agrees cl up q) (ha' : Agrees cl up' q')
    (hmissing : q'.missing = eraseWalk (targetsReached creditsOf q) q.missing) :
    RevivesReady creditsOf q q' ↔
      q.missing.IsChain fun a b => ¬ (TargetsReached creditsOf q a ∧ TargetsReached creditsOf q b) := by
  have hsides : ∀ m ∈ cl.remotes, (m ∈ q'.active ↔ m ∉ q'.missing) := by
    intro m hm
    rw [ha'.mem_active, ha'.splits.missing, List.mem_filter]
    cases hup : up' m with
    | true => simp [hm]
    | false => simp [hm]
  have hwalk : q.missing.IsChain (fun a b =>
        ¬ (TargetsReached creditsOf q a ∧ TargetsReached creditsOf q b)) ↔
      ∀ m ∈ q'.missing, ¬ TargetsReached creditsOf q m := by
    rw [hmissing]
    simp only [← targetsReached_iff]
    rw [← eraseWalk_all_iff]
    simp only [Bool.not_eq_true]
  rw [hwalk]
  constructor
  · intro h m hm htar
    have hold : m ∈ q.missing := by
      rw [hmissing] at hm
      exact mem_of_mem_eraseWalk hm
    exact (hsides m (ha.missing_remote hold)).mp (h.ready m hold htar) hm
  · intro hnone
    constructor
    · intro m hm htar
      exact (hsides m (ha.missing_remote hm)).mpr fun hleft => hnone m hleft htar
    · intro m hm htar
      rw [hmissing]
      refine mem_eraseWalk_of_not ?_ hm
      rw [← targetsReached_iff] at htar
      simpa using htar

/-- **A call that finds enough credits revives the missing machines that are ready, and no others**,
    in every reachable state, if and only if no two neighbours in `missing_ids` are ready. -/
theorem revives_ready {bcasts : List (Nat × UInt16)} {q : QuorumInfo} {queue : Nat → SendQueue}
    {tr : List (CreditCheck × Option UInt16)} {r : Reconf} (hset : ctxSetUpQInfo cl bcasts = .ok q)
    (hrun : Run (creditCheckStep cl) ⟨q, queue, 0⟩ tr r) {k : CreditCheck}
    (henough : ∀ m ∈ r.qInfo.active, k.minCredits ≤ k.credits m) :
    (∃ r' answer, creditCheckStep cl r k = .ok (r', answer) ∧
      RevivesReady k.creditsOf r.qInfo r'.qInfo) ↔
    r.qInfo.missing.IsChain fun a b =>
      ¬ (TargetsReached k.creditsOf r.qInfo a ∧ TargetsReached k.creditsOf r.qInfo b) := by
  obtain ⟨hfit, -⟩ := ctxSetUpQInfo_agrees hset
  obtain ⟨up, ha, -⟩ := creditCheck_run hset hrun
  obtain ⟨r', answer, hstep, ⟨up', ha'⟩, hmissing⟩ := creditCheck_walk hfit ha henough
  constructor
  · rintro ⟨r'', answer'', hstep', hrev⟩
    rw [hstep] at hstep'
    obtain ⟨rfl, -⟩ := Prod.mk.inj (Except.ok.inj hstep')
    exact (revivesReady_iff ha ha' hmissing).mp hrev
  · intro hchain
    exact ⟨r', answer, hstep, (revivesReady_iff ha ha' hmissing).mpr hchain⟩

/-- The call that times out on the machines of `down`. -/
def timingOut (down : List Nat) : CreditCheck :=
  ⟨fun _ _ => 5, fun m => if m ∈ down then 0 else 5, creditTimeout - 1, 1⟩

/-- A call that finds all credits of the machines of `back`, and all but one of the others. -/
def foundBack (back : List Nat) : CreditCheck :=
  ⟨fun _ m => if m ∈ back then 5 else 4, fun m => if m ∈ back then 5 else 4, 0, 1⟩

theorem foundBack_enough (back : List Nat) (m : Nat) :
    (foundBack back).minCredits ≤ (foundBack back).credits m := by
  show (1 : UInt16) ≤ if m ∈ back then 5 else 4
  split
  · decide
  · decide

/-- Machine 0 of four machines. -/
def Cluster.four : Cluster := ⟨4, 0, by decide, by decide⟩

/-- Machines 1 and 2 are missing, and machine 2 has its credits back. -/
theorem revives_ready_two : ∃ q r r' answer, ctxSetUpQInfo .four [(0, 5)] = .ok q ∧
    creditCheckStep .four ⟨q, fun _ => .blank, 0⟩ (timingOut [1, 2]) = .ok (r, none) ∧
    creditCheckStep .four r (foundBack [2, 3]) = .ok (r', answer) ∧
    RevivesReady (foundBack [2, 3]).creditsOf r.qInfo r'.qInfo := by
  obtain ⟨q, hq⟩ : ∃ q, ctxSetUpQInfo .four [(0, 5)] = .ok q := ⟨_, rfl⟩
  obtain ⟨r, hr, hmissing, hone⟩ : ∃ r,
      creditCheckStep .four ⟨q, fun _ => .blank, 0⟩ (timingOut [1, 2]) = .ok (r, none) ∧
      r.qInfo.missing = [1, 2] ∧
      targetsReached (foundBack [2, 3]).creditsOf r.qInfo 1 = false := by
    cases hq
    exact ⟨_, rfl, rfl, rfl⟩
  obtain ⟨r', answer, hstep, hrev⟩ :=
    (revives_ready hq (.single hr) fun m _ => foundBack_enough [2, 3] m).mpr (by
      rw [hmissing, List.isChain_cons_cons, ← targetsReached_iff, hone]
      exact ⟨(fun h => nomatch h.1), List.isChain_singleton _⟩)
  exact ⟨q, r, r', answer, hq, hr, hstep, hrev⟩

/-- Machines 1 and 2 are missing and both have their credits back: one is left over. -/
theorem revives_one : ∃ q r, ctxSetUpQInfo .four [(0, 5)] = .ok q ∧
    creditCheckStep .four ⟨q, fun _ => .blank, 0⟩ (timingOut [1, 2]) = .ok (r, none) ∧
    (∀ m ∈ r.qInfo.active, (foundBack [1, 2, 3]).minCredits ≤ (foundBack [1, 2, 3]).credits m) ∧
    ¬ ∃ r' answer, creditCheckStep .four r (foundBack [1, 2, 3]) = .ok (r', answer) ∧
      RevivesReady (foundBack [1, 2, 3]).creditsOf r.qInfo r'.qInfo := by
  obtain ⟨q, hq⟩ : ∃ q, ctxSetUpQInfo .four [(0, 5)] = .ok q := ⟨_, rfl⟩
  obtain ⟨hfit, -⟩ := ctxSetUpQInfo_agrees hq
  obtain ⟨r, hr, hmissing, hone, htwo⟩ : ∃ r,
      creditCheckStep .four ⟨q, fun _ => .blank, 0⟩ (timingOut [1, 2]) = .ok (r, none) ∧
      r.qInfo.missing = [1, 2] ∧
      targetsReached (foundBack [1, 2, 3]).creditsOf r.qInfo 1 = true ∧
      targetsReached (foundBack [1, 2, 3]).creditsOf r.qInfo 2 = true := by
    cases hq
    exact ⟨_, rfl, rfl, rfl, rfl⟩
  obtain ⟨up, ha, -⟩ := creditCheck_run hq (.single hr)
  refine ⟨q, r, hq, hr, fun m _ => foundBack_enough _ m, ?_⟩
  rintro ⟨r', answer, hstep, hrev⟩
  obtain ⟨r'', answer'', hstep', ⟨up', ha'⟩, hleft⟩ :=
    creditCheck_walk hfit ha fun m _ => foundBack_enough [1, 2, 3] m
  rw [hstep] at hstep'
  obtain ⟨rfl, -⟩ := Prod.mk.inj (Except.ok.inj hstep')
  have hchain := (revivesReady_iff ha ha' hleft).mp hrev
  rw [hmissing, List.isChain_cons_cons] at hchain
  exact hchain.1 ⟨targetsReached_iff.mp hone, targetsReached_iff.mp htwo⟩

end Odyssey
