/-
  THE PASSES OF THE CIRCULAR TESTS.

  A client that goes on changes nothing that the store or the others could see: its plan stays what
  it was (`Fits.machineStep_goes`).  And what it asserts holds (`Fits.machineStep_undefined`): what
  it has read is what the machine before has written, if that fits in a byte; and the numbers of its
  requests are positive, while they fit in an `int`.
-/
import Odyssey.CircularRequests
import Odyssey.RingInvariants

namespace Odyssey

open Lib

namespace CircularTest

variable {t : CircularTest}

/-! ## Waiting -/

/-- After its wait, a client finds all executed. -/
theorem Waits.queue_nil {x : Issuer CircularLocal CircularReq} (h : Waits x)
    (hcount : x.queue.length ≤ x.issued) (hfew : x.issued < 2 ^ 64)
    (hpoll : pollAReqBlocking x x.info.target = .ok ()) : x.queue = [] := by
  rcases h with hnone | htarget
  · exact hnone
  · unfold pollAReqBlocking Issuer.executed at hpoll
    split at hpoll
    · rename_i hle
      rw [u64_of_lt (by omega), htarget] at hle
      exact List.eq_nil_of_length_eq_zero (by omega)
    · cases hpoll

theorem plain_cons {r : CircularReq} {l : List CircularReq} :
    t.Plain (r :: l) ↔ (isAcquire r = false ∧ keyOf r < t.conf.kvsNumKeys) ∧ t.Plain l :=
  List.forall_mem_cons

theorem plain_append {l l' : List CircularReq} : t.Plain (l ++ l') ↔ t.Plain l ∧ t.Plain l' :=
  List.forall_mem_append

theorem plain_nil : t.Plain [] := fun _ hr => by cases hr

/-- A round has keys of the store, and does not acquire. -/
theorem Fits.plain_round (h : t.Fits) {m : Nat} (hm : m < t.machineNum) : t.Plain (t.round m) := by
  have hpos : 0 < t.machineNum := by omega
  have hkey : ∀ i < 5, t.key i < t.conf.kvsNumKeys := fun i hi => (h.key_lt hi hpos).2
  intro r hr
  simp only [round, List.mem_append, reads, writes, List.mem_map, List.mem_range, relaxedWrites,
    List.mem_cons, List.not_mem_nil, or_false] at hr
  rcases hr with (⟨i, hi, rfl⟩ | ⟨i, hi, rfl⟩) | rfl | rfl
  · exact ⟨rfl, hkey i hi⟩
  · exact ⟨rfl, hkey i hi⟩
  · exact ⟨rfl, (h.keyFlag_lt (h.prev_eq hm).2).2⟩
  · exact ⟨rfl, (h.keyFlag_lt hm).2⟩

theorem Fits.plain_kickOff (h : t.Fits) {m : Nat} (hm : m < t.machineNum) :
    t.Plain (t.kickOff m) := by
  have hpos : 0 < t.machineNum := by omega
  unfold kickOff
  split
  · intro r hr
    simp only [List.mem_append, writes, List.mem_map, List.mem_range, relaxedWrites,
      List.mem_cons, List.not_mem_nil, or_false] at hr
    rcases hr with ⟨i, hi, rfl⟩ | rfl
    · exact ⟨rfl, (h.key_lt hi hpos).2⟩
    · exact ⟨rfl, (h.keyFlag_lt hm).2⟩
  · exact plain_nil

/-! ## A machine goes on -/

/-- The number of a request, as long as an `int` holds it. -/
theorem ret_of_lt {n : Nat} (h : n + 1 < 2 ^ 31) : toInt (u64 (n + 1)) = (n + 1 : Nat) := by
  unfold toInt
  rw [u64_of_lt (by omega), Nat.mod_eq_of_lt (by omega), if_pos h]

theorem ofInt_of_lt {n : Nat} (h : n + 1 < 2 ^ 31) : ofInt (toInt (u64 (n + 1))) = n + 1 := by
  unfold ofInt
  rw [ret_of_lt h, if_pos (by omega)]
  rfl

/-- **The assertion on what a call returns** holds: for an acquire always, and for the others as
    long as an `int` holds the number. -/
theorem Fits.asserts_returned (hf : t.Fits) {r : CircularReq} (hr : keyOf r < t.conf.kvsNumKeys)
    (kick : Bool) {n : Nat} (hnum : t.blocking = false → isAcquire r = true ∨ n + 1 < 2 ^ 31) :
    t.asserts kick r (t.returned r n) = true := by
  rw [hf.returned_eq hr]
  cases hblocking : t.blocking with
  | true => cases r <;> simp [asserts, hblocking]
  | false =>
    cases r with
    | read keyId buffer => rfl
    | acquire keyId buffer => simp [asserts, isAcquire, hblocking]
    | write keyId value =>
      rcases hnum hblocking with hacquire | hlt
      · cases hacquire
      · rw [if_neg (by simp [isAcquire]), ret_of_lt hlt]
        simp [asserts]
    | release keyId value =>
      rcases hnum hblocking with hacquire | hlt
      · cases hacquire
      · rw [if_neg (by simp [isAcquire]), ret_of_lt hlt]
        simp [asserts]

/-- **The assertion behind an acquire** holds too. -/
theorem Fits.acquired_asserts (hf : t.Fits) {m : Nat} (hm : m < t.machineNum) (n : Nat) :
    t.asserts false (.acquire (t.keyFlag (t.prevMachineId m)) 0)
      (t.returned (.acquire (t.keyFlag (t.prevMachineId m)) 0) n) = true := by
  have hkey : keyOf (.acquire (t.keyFlag (t.prevMachineId m)) 0) < t.conf.kvsNumKeys :=
    (hf.keyFlag_lt (hf.prev_eq hm).2).2
  exact hf.asserts_returned hkey false fun _ => Or.inl rfl

/-- **What the others see of a machine that goes on**: nothing. -/
structure Goes (t : CircularTest) (m : Nat) (x y : Issuer CircularLocal CircularReq) : Prop where
  view : y.info.view = x.info.view
  plan : t.pendingOf m y = t.pendingOf m x
  loc : t.LocOk m y

section Step

variable {m : Nat} {x : Issuer CircularLocal CircularReq} {info : CircularLocal}
  {requests : List CircularReq}

/-- A session after its client went on. -/
def goneOn (x : Issuer CircularLocal CircularReq) (info : CircularLocal)
    (requests : List CircularReq) : Issuer CircularLocal CircularReq :=
  ⟨info, x.queue ++ requests, x.issued + requests.length⟩

/-- The plan of a client that asks for nothing to acquire. -/
theorem pendingOf_goneOn {todo : List CircularReq} (hplain : t.Plain requests)
    (hbefore : t.todoOf m x = requests ++ todo)
    (hafter : t.todoOf m (goneOn x info requests) = todo) :
    t.pendingOf m (goneOn x info requests) = t.pendingOf m x := by
  unfold pendingOf
  rw [hbefore, hafter]
  show (x.queue ++ requests).filter _ ++ todo = _
  rw [List.filter_append, filter_plain hplain, List.append_assoc]

/-- **The round goes on** by a request. -/
theorem InRound.next {r : CircularReq} {todo : List CircularReq} {j j' : Nat}
    (h : t.InRound m x (r :: todo) j j') (hvalue : info.value = x.info.value)
    (hlast : (∀ k b, r ≠ .read k b) → info.lastIssuedReq = x.info.lastIssuedReq)
    (hread : (∃ k b, r = .read k b) → x.issued + 1 < 2 ^ 31 → info.lastIssuedReq = x.issued + 1) :
    t.InRound m (goneOn x info [r]) todo j (j' + 1) := by
  have hlt : j' < 12 := by
    by_contra hc
    have hnone : (t.round m).drop j' = [] := List.drop_eq_nil_of_le (show 12 ≤ j' by omega)
    rw [h.issued] at hnone
    cases hnone
  have hle := h.le
  refine ⟨⟨by omega, hlt⟩, ?_, ?_, ?_, fun hfive hfew => ?_⟩
  · rw [h.executed]
    show _ = (x.queue ++ [r]) ++ todo
    rw [List.append_assoc]
    rfl
  · rw [← List.tail_drop, h.issued, List.tail_cons]
  · show ∀ i < 5, i < j → info.value i = _
    rw [hvalue]
    exact h.values
  · have hnum : (goneOn x info [r]).issued = x.issued + 1 := rfl
    rw [hnum] at hfew ⊢
    show info.lastIssuedReq + _ = _
    by_cases hisread : ∃ k b, r = .read k b
    · rw [hread hisread hfew]
      obtain ⟨k, b, rfl⟩ := hisread
      have hj := (drop_round_read h.issued).1
      omega
    · have hnot : ∀ k b, r ≠ .read k b := fun k b hc => hisread ⟨k, b, hc⟩
      have hj := drop_round_other h.issued hnot
      have hbefore := h.last hj (by omega)
      rw [hlast hnot]
      omega

/-- **A request of the round is issued.** -/
theorem Goes.issue (hf : t.Fits) {kick : Bool} {r : CircularReq} {todo : List CircularReq}
    (h : t.LocOk m x) (hat : x.info.loc = .issuing kick (r :: todo))
    (hqueue : t.blocking = true → x.queue = [])
    (hreads : t.blocking = true → ∀ k b, r = .read k b → ∃ i < 5, k = t.key i ∧ b = t.buffer i)
    (hstep : t.machineStep m x.info x.issued = .ok (info, requests)) :
    requests = [r] ∧ Goes t m x (goneOn x info requests) := by
  unfold LocOk at h
  rw [hat] at h
  obtain ⟨hplain, htodo, hwait, hin⟩ := h
  obtain ⟨hr, hrest⟩ := plain_cons.mp htodo
  have hone : t.Plain [r] := plain_cons.mpr ⟨hr, plain_nil⟩
  have hmore : t.Plain (x.queue ++ [r]) := plain_append.mpr ⟨hplain, hone⟩
  have hbefore : t.todoOf m x = [r] ++ todo := by
    unfold todoOf
    rw [hat]
    rfl
  have hcome : t.blocking = true → ∀ info : CircularLocal, info.target = x.issued + 1 →
      Waits (goneOn x info [r]) := fun _ info htarget => Or.inr htarget
  unfold machineStep at hstep
  rw [hat] at hstep
  dsimp only at hstep
  split at hstep
  · cases r with
    | read k b =>
      dsimp only at hstep
      cases hstep
      refine ⟨rfl, rfl, ?_, ?_⟩
      · refine pendingOf_goneOn hone hbefore ?_
        unfold todoOf goneOn
        dsimp only
        cases t.blocking <;> rfl
      · unfold LocOk goneOn
        dsimp only
        cases hblocking : t.blocking with
        | true =>
          obtain ⟨i, hi, hk, hb⟩ := hreads hblocking k b rfl
          have hzero : b = 0 := by
            rw [hb, buffer, hblocking]
            rfl
          refine ⟨rfl, hmore, hrest, hcome hblocking _ rfl, i, hi, hk, Or.inl ?_⟩
          rw [hqueue hblocking, hzero]
          rfl
        | false =>
          refine ⟨hmore, hrest, (fun hc => by cases hc), fun _ hkick => ?_⟩
          obtain ⟨j, j', hround⟩ := hin hblocking hkick
          refine ⟨j, j' + 1, hround.next rfl (fun hnot => absurd rfl (hnot k b)) fun _ hfew => ?_⟩
          show ofInt (t.returned (.read k b) x.issued) = _
          rw [hf.returned_eq hr.2, if_neg (by simp [isAcquire, hblocking])]
          exact ofInt_of_lt hfew
    | acquire k b => cases hr.1
    | write k v =>
      dsimp only at hstep
      cases hstep
      refine ⟨rfl, rfl, pendingOf_goneOn hone hbefore rfl, hmore, hrest, fun hblocking => ?_,
        fun hblocking hkick => ?_⟩
      · refine hcome hblocking _ ?_
        show (if t.blocking = true then _ else _) = _
        rw [if_pos hblocking]
      · obtain ⟨j, j', hround⟩ := hin hblocking hkick
        refine ⟨j, j' + 1, hround.next rfl (fun _ => rfl) ?_⟩
        rintro ⟨k', b', hc⟩
        cases hc
    | release k v =>
      dsimp only at hstep
      cases hstep
      refine ⟨rfl, rfl, pendingOf_goneOn hone hbefore rfl, hmore, hrest, fun hblocking => ?_,
        fun hblocking hkick => ?_⟩
      · refine hcome hblocking _ ?_
        show (if t.blocking = true then _ else _) = _
        rw [if_pos hblocking]
      · obtain ⟨j, j', hround⟩ := hin hblocking hkick
        refine ⟨j, j' + 1, hround.next rfl (fun _ => rfl) ?_⟩
        rintro ⟨k', b', hc⟩
        cases hc
  · cases hstep

/-- **A client goes on.** -/
theorem Fits.machineStep_goes (hf : t.Fits) (hm : m < t.machineNum) (h : t.LocOk m x)
    (hcount : x.queue.length ≤ x.issued) (hfew : x.issued < 2 ^ 64)
    (hpoll : pollAReqBlocking x x.info.target = .ok ())
    (hreads : ∀ k b rest, t.pendingOf m x = .read k b :: rest →
      ∃ i < 5, k = t.key i ∧ b = t.buffer i)
    (hstep : t.machineStep m x.info x.issued = .ok (info, requests)) :
    (∀ r ∈ requests, keyOf r < t.conf.kvsNumKeys) ∧ Goes t m x (goneOn x info requests) := by
  have hsame : ∀ {todo : List CircularReq} {info : CircularLocal}, t.todoOf m x = todo →
      t.todoOf m (goneOn x info []) = todo → t.pendingOf m (goneOn x info []) = t.pendingOf m x :=
    fun hbefore hafter => pendingOf_goneOn plain_nil hbefore hafter
  have hqueue : x.queue ++ [] = x.queue := List.append_nil _
  have hloc := h
  unfold LocOk at h
  cases hat : x.info.loc with
  | issuing kick todo =>
    rw [hat] at h
    obtain ⟨hplain, htodo, hwait, hin⟩ := h
    cases todo with
    | nil =>
      have hbefore : t.todoOf m x = [] := by
        unfold todoOf
        rw [hat]
      unfold machineStep at hstep
      rw [hat] at hstep
      dsimp only at hstep
      split at hstep
      · cases hstep
        refine ⟨(fun r hr => by cases hr), rfl, hsame hbefore rfl, ?_⟩
        show t.Plain (x.queue ++ [])
        rw [hqueue]
        exact hplain
      · rename_i hcond
        cases hstep
        refine ⟨(fun r hr => by cases hr), rfl, hsame hbefore rfl, ?_⟩
        rw [Bool.or_eq_true, not_or, Bool.not_eq_true, Bool.not_eq_true] at hcond
        obtain ⟨j, j', hround⟩ := hin hcond.2 hcond.1
        have hend : j' = 12 := by
          have hlen := congrArg List.length hround.issued
          rw [List.length_drop] at hlen
          have hle := hround.le
          have htwelve : (t.round m).length = 12 := rfl
          rw [htwelve, List.length_nil] at hlen
          omega
        rw [hend] at hround
        refine ⟨hcond.2, ?_, rfl, j, hround.le, ?_, hround.issued, hround.values, hround.last⟩
        · show t.Plain (x.queue ++ [])
          rw [hqueue]
          exact hplain
        · show _ = (x.queue ++ []) ++ []
          rw [hqueue]
          exact hround.executed
    | cons r todo =>
      have hempty : t.blocking = true → x.queue = [] := fun hblocking =>
        (hwait hblocking).queue_nil hcount hfew hpoll
      obtain ⟨rfl, hgoes⟩ := Goes.issue hf hloc hat hempty (by
        rintro hblocking k b rfl
        refine hreads k b todo ?_
        unfold pendingOf todoOf
        rw [hempty hblocking, hat]
        rfl) hstep
      refine ⟨fun r' hr' => ?_, hgoes⟩
      rw [List.mem_singleton.mp hr']
      exact (plain_cons.mp htodo).1.2
  | reading keyId todo =>
    rw [hat] at h
    obtain ⟨hblocking, -, htodo, hwait, -⟩ := h
    have hempty := hwait.queue_nil hcount hfew hpoll
    unfold machineStep at hstep
    rw [hat] at hstep
    dsimp only at hstep
    split at hstep
    · cases hstep
      refine ⟨(fun r hr => by cases hr), rfl, ?_, ?_, htodo, fun _ => Or.inl ?_, fun hc => ?_⟩
      · refine hsame ?_ rfl
        unfold todoOf
        rw [hat]
        rfl
      · show t.Plain (x.queue ++ [])
        rw [hempty]
        exact plain_nil
      · show x.queue ++ [] = []
        rw [hempty]
        rfl
      · rw [hblocking] at hc
        cases hc
    · cases hstep
  | acquiring =>
    rw [hat] at h
    unfold machineStep at hstep
    rw [hat] at hstep
    dsimp only at hstep
    cases hstep
    refine ⟨fun r hr => ?_, rfl, ?_, Or.inr rfl, Or.inr ⟨x.queue, h, rfl⟩⟩
    · rw [List.mem_singleton.mp hr]
      exact (hf.keyFlag_lt (hf.prev_eq hm).2).2
    · unfold pendingOf todoOf goneOn
      rw [hat]
      simp [isAcquire]
  | testing =>
    rw [hat] at h
    have hempty := h.1.queue_nil hcount hfew hpoll
    unfold machineStep at hstep
    rw [hat] at hstep
    dsimp only at hstep
    rw [if_pos (hf.acquired_asserts hm x.issued)] at hstep
    split at hstep
    · rename_i hone
      cases hstep
      refine ⟨(fun r hr => by cases hr), rfl, ?_, ?_, hf.plain_round hm, fun _ => Or.inl ?_,
        fun hasync _ => ⟨0, 0, ⟨Nat.le_refl 0, by decide⟩, ?_, rfl, ?_, ?_⟩⟩
      · refine hsame ?_ rfl
        unfold todoOf
        rw [hat]
        exact if_pos ⟨hempty, hone⟩
      · show t.Plain (x.queue ++ [])
        rw [hempty]
        exact plain_nil
      · show x.queue ++ [] = []
        rw [hempty]
        rfl
      · show t.round m = (x.queue ++ []) ++ t.round m
        rw [hempty]
        rfl
      · exact fun i _ hi => absurd hi (Nat.not_lt_zero i)
      · exact fun hc => absurd hc (by decide)
    · rename_i hnone
      cases hstep
      refine ⟨(fun r hr => by cases hr), rfl, ?_, ?_⟩
      · refine hsame ?_ rfl
        unfold todoOf
        rw [hat]
        exact if_neg fun hc => hnone hc.2
      · show t.Plain (x.queue ++ [])
        rw [hempty]
        exact plain_nil
  | checking =>
    rw [hat] at h
    unfold machineStep at hstep
    rw [hat] at hstep
    dsimp only at hstep
    split at hstep
    · cases hstep
      refine ⟨(fun r hr => by cases hr), rfl, ?_, ?_⟩
      · refine hsame ?_ rfl
        unfold todoOf
        rw [hat]
        rfl
      · show t.Plain (x.queue ++ [])
        rw [hqueue]
        exact h.2.1
    · cases hstep

/-- What a machine has written fits in a byte, for the first 26. -/
theorem byteOf_toNat {m i : Nat} (hm : m < 26) (hi : i < 5) : (byteOf m i).toNat = 10 * m + i := by
  unfold byteOf
  rw [UInt8.toNat_ofNat_of_lt' (by
    show 10 * m + i < 256
    omega)]

/-- Where a client checks what it has read. -/
def AtCheck (x : CircularLocal) : Prop :=
  (∃ keyId todo, x.loc = .reading keyId todo) ∨ x.loc = .checking

/-- **What a client asserts holds**, unless it checks what a machine behind the first 26 wrote. -/
theorem Fits.machineStep_undefined (hf : t.Fits) (hm : m < t.machineNum) (h : t.LocOk m x)
    (hcount : x.queue.length ≤ x.issued) (hfew : x.issued < 2 ^ 64)
    (hpoll : pollAReqBlocking x x.info.target = .ok ())
    (hnum : t.blocking = false → x.issued + 1 < 2 ^ 31)
    (hstep : t.machineStep m x.info x.issued = .error .undefined) :
    26 ≤ t.prevMachineId m ∧ AtCheck x.info := by
  unfold LocOk at h
  unfold machineStep at hstep
  cases hat : x.info.loc with
  | issuing kick todo =>
    rw [hat] at hstep
    cases todo with
    | nil =>
      dsimp only at hstep
      split at hstep <;> cases hstep
    | cons r todo =>
      rw [hat] at h
      obtain ⟨-, htodo, -⟩ := h
      have hkey := (plain_cons.mp htodo).1.2
      dsimp only at hstep
      rw [if_pos (hf.asserts_returned hkey kick fun hasync => Or.inr (hnum hasync))] at hstep
      cases r <;> cases hstep
  | reading keyId todo =>
    rw [hat] at h hstep
    obtain ⟨-, -, -, hwait, i, hi, hkey, hone | ⟨-, hvalue⟩⟩ := h
    · rw [hwait.queue_nil hcount hfew hpoll] at hone
      cases hone
    · dsimp only at hstep
      split at hstep
      · cases hstep
      · rename_i hwrong
        refine ⟨?_, Or.inl ⟨keyId, todo, hat⟩⟩
        by_contra hprev
        obtain ⟨hkey', hlt⟩ := hf.key_lt hi (by omega)
        have hoffset : t.keyOffset = t.numOfRmwKeys := by
          have hfewKeys := hf.few
          exact u32_of_lt (by omega)
        apply hwrong
        rw [hvalue, byteOf_toNat (by omega) hi, hoffset, hkey, hkey']
        omega
  | acquiring =>
    rw [hat] at hstep
    cases hstep
  | testing =>
    rw [hat] at hstep
    dsimp only at hstep
    rw [if_pos (hf.acquired_asserts hm x.issued)] at hstep
    split at hstep <;> cases hstep
  | checking =>
    rw [hat] at h hstep
    obtain ⟨hasync, -, htarget, j, hround⟩ := h
    dsimp only at hstep
    split at hstep
    · cases hstep
    · rename_i hwrong
      refine ⟨?_, Or.inr hat⟩
      by_contra hprev
      -- the last read is seven requests before the last
      have hfive : 5 ≤ j := by
        have hlast := hround.last (by omega) (by have := hnum hasync; omega)
        have hlen := congrArg List.length hround.executed
        have htwelve : (t.round m).length = 12 := rfl
        rw [List.length_drop, htwelve, List.append_nil] at hlen
        unfold pollAReqBlocking Issuer.executed at hpoll
        split at hpoll
        · rename_i hle
          rw [u64_of_lt (by omega), htarget] at hle
          omega
        · cases hpoll
      apply hwrong
      intro i hi
      have hlt : i < 5 := List.mem_range.mp hi
      rw [hround.values i hlt (by omega), byteOf_toNat (by omega) hlt]

/-- **Behind the others, every check fails**: no byte is as large. -/
theorem machineStep_fails (hprev : 26 ≤ t.prevMachineId m) {x : CircularLocal} (hat : AtCheck x)
    (n : Nat) : t.machineStep m x n = .error .undefined := by
  have hbyte : ∀ (b : UInt8) (i : Nat), b.toNat ≠ 10 * t.prevMachineId m + i := by
    intro b i
    have hlt := b.toNat_lt
    omega
  unfold machineStep
  rcases hat with ⟨keyId, todo, hat⟩ | hat
  · rw [hat]
    exact if_neg (hbyte _ _)
  · rw [hat]
    exact if_neg fun hall => hbyte _ _ (hall 0 (by decide))

end Step

/-! ## The pass of a session -/

/-- Only session 0 of a machine has a pass. -/
theorem pass_spec {g n : Nat} (c : Unit) {c' : Unit} {x info : CircularLocal}
    {requests : List CircularReq} {e : CircularEvent}
    (h : t.pass g c x n = .ok (c', info, requests, e)) :
    ∃ m < t.machineNum, g = t.sessionOf m ∧ e = none ∧
      t.machineStep m x n = .ok (info, requests) := by
  unfold pass at h
  split at h
  · rename_i hmine
    obtain ⟨⟨info', requests'⟩, hstep, h⟩ := bind_eq_ok.mp h
    cases h
    exact ⟨_, hmine.2, (Nat.div_mul_cancel (Nat.dvd_of_mod_eq_zero hmine.1)).symm, rfl, hstep⟩
  · cases h

/-- The other sessions have none. -/
theorem pass_other {g n : Nat} (c : Unit) {x : CircularLocal}
    (h : ¬ ∃ m < t.machineNum, g = t.sessionOf m) : t.pass g c x n = .error .disabled := by
  unfold pass
  refine if_neg fun hmine => h ⟨_, hmine.2, ?_⟩
  exact (Nat.div_mul_cancel (Nat.dvd_of_mod_eq_zero hmine.1)).symm

/-- The pass of session 0 is that of its machine. -/
theorem Fits.pass_eq (hf : t.Fits) {m : Nat} (hm : m < t.machineNum) {c : Unit} {x : CircularLocal}
    {n : Nat} : t.pass (t.sessionOf m) c x n = (do
      let (x, requests) ← t.machineStep m x n
      return ((), x, requests, none)) := by
  have hmachine : t.machineOf (t.sessionOf m) = m := Nat.mul_div_cancel m hf.sessions
  unfold pass
  rw [hmachine, if_pos ⟨Nat.mul_mod_left .., hm⟩]

/-- What a machine does in its pass. -/
theorem CircleInv.goes (hf : t.Fits) {n : Nat} {s : CircularSessions} (h : CircleInv t n s)
    {m : Nat} (hm : m < t.machineNum) (hfew : (s.session (t.sessionOf m)).issued < 2 ^ 64)
    (hpoll : pollAReqBlocking (s.session (t.sessionOf m))
      (s.session (t.sessionOf m)).info.target = .ok ()) {info : CircularLocal}
    {requests : List CircularReq}
    (hstep : t.machineStep m (s.session (t.sessionOf m)).info (s.session (t.sessionOf m)).issued
      = .ok (info, requests)) :
    (∀ r ∈ requests, keyOf r < t.conf.kvsNumKeys) ∧
      Goes t m (s.session (t.sessionOf m)) (goneOn (s.session (t.sessionOf m)) info requests) := by
  refine hf.machineStep_goes hm (h.loc m hm) (h.counts _) hfew hpoll ?_ hstep
  intro k b rest hpending
  obtain ⟨⟨i, hi, hk, hb, -⟩, -⟩ := h.circle.read hm hpending
  exact ⟨i, hi, hk, hb⟩

/-- **A pass keeps the invariant.** -/
theorem CircleInv.client (hf : t.Fits) {n : Nat} {s s' : CircularSessions} {g : Nat}
    {e : CircularEvent} (h : CircleInv t n s) (hfew : (s.session g).issued < 2 ^ 64)
    (hstep : t.program.service.step s (.client g) = .ok (s', e)) :
    CircleInv t n s' ∧ e = none := by
  rcases Service.step_cases hstep with ⟨g', c, info, requests, hk, hpass, rfl⟩ |
    ⟨_, _, _, _, _, _, hc, -⟩
  · cases hk
    obtain ⟨⟨⟩, hpoll, hpass⟩ := bind_eq_ok.mp hpass
    obtain ⟨⟨c', info', asked, e'⟩, hgo, hret⟩ := bind_eq_ok.mp hpass
    obtain ⟨m, hm, rfl, rfl, hmachine⟩ := pass_spec () hgo
    cases hret
    obtain ⟨hkeys, hgoes⟩ := h.goes hf hm hfew hpoll hmachine
    have hall : asked.filter (t.program.accepted (t.sessionOf m)) = asked := by
      rw [List.filter_eq_self]
      exact fun r hr => hf.accepted (hkeys r hr) _
    rw [hall]
    refine ⟨h.update hf hm (y := goneOn _ info asked) ?_ hgoes.loc ?_, rfl⟩
    · have hview : Function.update (fun m => (s.session (t.sessionOf m)).info.view) m
          (goneOn (s.session (t.sessionOf m)) info asked).info.view =
            fun m => (s.session (t.sessionOf m)).info.view := by
        rw [hgoes.view]
        exact Function.update_eq_self m _
      have hplan : Function.update (fun m => t.pendingOf m (s.session (t.sessionOf m))) m
          (t.pendingOf m (goneOn (s.session (t.sessionOf m)) info asked)) =
            fun m => t.pendingOf m (s.session (t.sessionOf m)) := by
        rw [hgoes.plan]
        exact Function.update_eq_self m _
      rw [hview, hplan]
      exact h.circle
    · have hcount := h.counts (t.sessionOf m)
      show ((s.session (t.sessionOf m)).queue ++ asked).length ≤
        (s.session (t.sessionOf m)).issued + asked.length
      rw [List.length_append]
      omega
  · cases hc

/-- **What a pass asserts holds**, unless it checks what a machine behind the first 26 wrote. -/
theorem CircleInv.client_undefined (hf : t.Fits) {n : Nat} {s : CircularSessions} {g : Nat}
    (h : CircleInv t n s) (hfew : (s.session g).issued < 2 ^ 64)
    (hnum : t.blocking = false → (s.session g).issued + 1 < 2 ^ 31)
    (hstep : t.program.service.step s (.client g) = .error .undefined) :
    ∃ m < t.machineNum, g = t.sessionOf m ∧ 26 ≤ t.prevMachineId m ∧
      AtCheck (s.session g).info := by
  obtain ⟨hpoll, hpass⟩ := client_fails hstep
  by_cases hmine : ∃ m < t.machineNum, g = t.sessionOf m
  · obtain ⟨m, hm, rfl⟩ := hmine
    refine ⟨m, hm, rfl, ?_⟩
    have hgo := hf.pass_eq hm (c := ()) (x := (s.session (t.sessionOf m)).info)
      (n := (s.session (t.sessionOf m)).issued)
    rw [show t.pass _ _ _ _ = _ from hpass] at hgo
    rcases bind_eq_error.mp hgo.symm with hmachine | ⟨y, -, hy⟩
    · exact hf.machineStep_undefined hm (h.loc m hm) (h.counts _) hfew hpoll hnum hmachine
    · cases hy
  · rw [show t.program.pass g _ _ _ = _ from pass_other () hmine] at hpass
    cases hpass

end CircularTest

end Odyssey
