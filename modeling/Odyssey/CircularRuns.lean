/-
  RUNS OF THE CIRCULAR TESTS, over the rings.

  Over a release-consistent store, and whoever moves when:

  * `circular_turns`: the machines take turns.  Between two releases only the machine whose turn it
    is reads and writes, and what it reads is what the machine before has written;
  * `circular_fails_iff`: no assertion fails, of the interface, of the worker's side of the ring or
    of the test, except for the checks behind machine 26 or a later one, whose values do not fit in
    a byte.  Those do fail, whatever was read.

  The test that does not block asserts that the numbers of its requests are positive; an `int` holds
  them up to `2 ^ 31`.  What the worker asserts of the contents of a request (`od_check_op`, and
  that there are only updates with a `write_ratio` of 1000) is not of the ring.  It takes neither an
  acquire nor a release, so the tests are for builds without it.
-/
import Odyssey.CircularPasses
import Odyssey.RingRuns

namespace Odyssey

open Lib RingProgram

namespace CircularTest

variable {t : CircularTest}

/-! ## The beginning -/

/-- No flag is 1 in the store. -/
def NoFlags (t : CircularTest) (values : MicaKey → UInt8) : Prop :=
  ∀ m < t.machineNum, values (t.hash (t.keyFlag m)) ≠ 1

/-- **Machine 0 has the token.** -/
theorem Fits.start (hf : t.Fits) (hpos : 0 < t.machineNum) {values : MicaKey → UInt8}
    (hflags : t.NoFlags values) (choices : Nat → Nat) (value : Nat → Nat → UInt8) :
    CircleInv t 0 (RingProgram.sessions (startStore values choices) (fun _ => ())
      (t.startAt value)) := by
  have hmachine : ∀ m, t.machineOf (t.sessionOf m) = m := fun m => Nat.mul_div_cancel m hf.sessions
  have hpending : ∀ m, t.pendingOf m ⟨t.startAt value (t.sessionOf m), [], 0⟩ = t.kickOff m := by
    intro m
    show [] ++ t.kickOff (t.machineOf (t.sessionOf m)) = _
    rw [hmachine, List.nil_append]
  have hseen : (startStore values choices).SeesAll View.none := fun _ => rfl
  refine ⟨?_, fun m hm => ?_, fun _ _ => rfl, fun _ => Nat.le_refl _⟩
  · show t.Circle 0 _ (fun _ => View.none) fun m => t.pendingOf m _
    refine ⟨?_, fun _ _ => hseen.known, ?_, Or.inl ?_⟩
    · intro key w hw
      rcases List.mem_cons.mp hw with rfl | hw
      · exact hseen.known
      · cases hw
    · intro m hm w hw _ _
      rcases List.mem_cons.mp hw with rfl | hw
      · rfl
      · cases hw
    · rw [Nat.zero_mod]
      refine ⟨hpos, hseen, ?_, fun f hlt hone => absurd hone (hflags f hlt), fun m' _ hne => ?_⟩
      · show t.Plan 0 (t.pendingOf 0 ⟨t.startAt value (t.sessionOf 0), [], 0⟩) _
        rw [hpending]
        exact hf.plan_kickOff hpos hflags
      · show t.pendingOf m' ⟨t.startAt value (t.sessionOf m'), [], 0⟩ = []
        rw [hpending]
        exact if_neg hne
  · refine ⟨plain_nil, ?_, fun _ => Or.inl rfl, fun _ hc => by cases hc⟩
    show t.Plain (t.kickOff (t.machineOf (t.sessionOf m)))
    rw [hmachine]
    exact hf.plain_kickOff hm

/-! ## Every run -/

/-- The releases that were executed. -/
def releases (tr : List (Turn × CircularEvent)) : Nat :=
  tr.countP fun p => p.2.any fun shown => shown.1.opcode == opRelease

theorem releases_concat (tr : List (Turn × CircularEvent)) (k : Turn) (r : ClientRequest)
    (byte : UInt8) : releases (tr ++ [(k, some (r, byte))])
      = releases tr + if r.opcode = opRelease then 1 else 0 := by
  simp [releases, List.countP_append, List.countP_singleton]

theorem releases_concat_none (tr : List (Turn × CircularEvent)) (k : Turn) :
    releases (tr ++ [(k, none)]) = releases tr := by
  simp [releases, List.countP_append]

/-- **What has happened**: every request came in its turn. -/
structure TakenTurns (t : CircularTest) (tr : List (Turn × CircularEvent)) (s : CircularSessions) :
    Prop where
  inv : CircleInv t (releases tr) s
  shown : ∀ tr₁ k r byte tr₂, tr = tr₁ ++ (k, some (r, byte)) :: tr₂ →
    ∃ g spurious, k = .store g spurious ∧ t.Shown (releases tr₁) g r byte

theorem TakenTurns.step (hf : t.Fits) {tr : List (Turn × CircularEvent)} {s s' : CircularSessions}
    (h : t.TakenTurns tr s) {k : Turn} {e : CircularEvent}
    (hfew : ∀ g, k = .client g → (s.session g).issued < 2 ^ 64)
    (hstep : t.program.service.step s k = .ok (s', e)) : t.TakenTurns (tr ++ [(k, e)]) s' := by
  cases k with
  | client g =>
    obtain ⟨hinv, rfl⟩ := h.inv.client hf (hfew g rfl) hstep
    refine ⟨?_, fun tr₁ k r byte tr₂ heq => ?_⟩
    · rw [releases_concat_none]
      exact hinv
    · rcases split_concat heq with ⟨tr₃, hold⟩ | ⟨-, hnew⟩
      · exact h.shown tr₁ k r byte tr₃ hold
      · cases hnew
  | store g spurious =>
    obtain ⟨r, byte, rfl, hshown, hinv⟩ := h.inv.store hf hstep
    refine ⟨?_, fun tr₁ k r' byte' tr₂ heq => ?_⟩
    · rw [releases_concat]
      exact hinv
    · rcases split_concat heq with ⟨tr₃, hold⟩ | ⟨rfl, hnew⟩
      · exact h.shown tr₁ k r' byte' tr₃ hold
      · cases hnew
        exact ⟨g, spurious, rfl, hshown⟩

/-- **The rings keep it.** -/
theorem Fits.keeps (hf : t.Fits) {limit : Nat} (hlimit : limit ≤ 2 ^ 64) :
    t.program.Keeps limit t.TakenTurns where
  step h hfew hstep := h.step hf (fun g hg => Nat.lt_of_lt_of_le (hfew g hg) hlimit) hstep
  takes := by
    intro tr s g c info requests e h hfew hpoll hpass r hr
    obtain ⟨m, hm, rfl, -, hmachine⟩ := pass_spec () hpass
    obtain ⟨hkeys, -⟩ := h.inv.goes hf hm (Nat.lt_of_lt_of_le hfew hlimit) hpoll hmachine
    exact hf.accepted (hkeys r hr) _
  waits r := by
    cases hblocking : t.blocking <;> cases r <;>
      simp [program, access, hblocking]

/-- As many requests as the test may issue: those that do not block return an `int`. -/
def limit (t : CircularTest) : Nat := if t.blocking then 2 ^ 64 else 2 ^ 31 - 1

theorem limit_le (t : CircularTest) : t.limit ≤ 2 ^ 64 := by
  unfold limit
  split <;> decide

section Rings

variable {values : MicaKey → UInt8} {choices : Nat → Nat} {value : Nat → Nat → UInt8}
  {ops : Nat → Nat → ClientOp} {tr : List (RingCmd × RingShown CircularEvent)}
  {s : RingSys CircularStore Unit CircularLocal CircularReq}

/-- Nothing has been issued, and no flag is 1. -/
def startRings (t : CircularTest) (values : MicaKey → UInt8) (choices : Nat → Nat)
    (value : Nat → Nat → UInt8) (ops : Nat → Nat → ClientOp) :
    RingSys CircularStore Unit CircularLocal CircularReq :=
  RingProgram.start (startStore values choices) (fun _ => ()) (t.startAt value) ops

/-- Before the first step, nobody was out of turn. -/
theorem Fits.takenTurns (hf : t.Fits) (hpos : 0 < t.machineNum) (hflags : t.NoFlags values) :
    t.TakenTurns [] (RingProgram.sessions (startStore values choices) (fun _ => ())
      (t.startAt value)) := by
  refine ⟨hf.start hpos hflags choices value, fun tr₁ k r byte tr₂ heq => ?_⟩
  have hlen := congrArg List.length heq
  rw [List.length_append, List.length_cons, List.length_nil] at hlen
  omega

/-- **THE MACHINES TAKE TURNS**, in every run: between two releases, only the machine whose turn it
    is reads and writes; and what it reads is what the machine before has written. -/
theorem circular_turns (hf : t.Fits) (hpos : 0 < t.machineNum) (hflags : t.NoFlags values)
    (hrun : Run t.program.step (t.startRings values choices value ops) tr s) (hfew : Countable tr)
    {tr₁ tr₂ : List (RingCmd × RingShown CircularEvent)} {g : Nat} {spurious : Bool}
    {r : ClientRequest} {byte : UInt8} {evs : List RingEvent}
    (htr : tr = tr₁ ++ (.execute g spurious, some (some (r, byte)), evs) :: tr₂) :
    t.Shown (releases (tr₁.flatMap seen)) g r byte := by
  obtain ⟨t', -, -, hturns, -⟩ := Carried.keeps (hf.keeps (Nat.le_refl _)) (Nat.le_refl _)
    hf.ringPos hf.ring (hf.takenTurns hpos hflags) hrun hfew
  obtain ⟨g', spurious', hk, hshown⟩ := hturns.shown (tr₁.flatMap seen) (.store g spurious) r byte
    (tr₂.flatMap seen) (by
      rw [htr, List.flatMap_append, List.flatMap_cons]
      rfl)
  cases hk
  exact hshown

/-- The client of a session has waited, and will check what was read. -/
structure Checks (x : RingSession CircularLocal CircularReq) : Prop where
  idle : x.ring.client = none
  todo : x.todo = []
  waited : x.info.target ≤ x.ring.session.lastPulledReq
  atCheck : AtCheck x.info

/-- **WHAT FAILS, AND WHEN**: no assertion of the interface or of the worker's side of the ring
    does, and of the test only the checks of what a machine behind the first 26 has written, and
    they always do. -/
theorem circular_fails_iff (hf : t.Fits) (hpos : 0 < t.machineNum) (hflags : t.NoFlags values)
    (hrun : Run t.program.step (t.startRings values choices value ops) tr s)
    (hfew : Carried.Within t.limit tr) (k : RingCmd) :
    t.program.step s k = .error .undefined ↔ ∃ m < t.machineNum,
      k = .pass (t.sessionOf m) ∧ 26 ≤ t.prevMachineId m ∧ Checks (s.session (t.sessionOf m)) := by
  constructor
  · intro hstep
    obtain ⟨g, t', rfl, hidle, htodo, hwait, hturns, hinfo, hissued, hfails⟩ :=
      Carried.faults (hf.keeps t.limit_le) t.limit_le hf.ringPos hf.ring
        (hf.takenTurns hpos hflags) hrun hfew hstep
    obtain ⟨m, hm, rfl, hprev, hat⟩ := hturns.inv.client_undefined hf
      (Nat.lt_of_lt_of_le hissued t.limit_le) (fun hasync => by
        unfold limit at hissued
        rw [hasync] at hissued
        change _ < 2 ^ 31 - 1 at hissued
        omega) hfails
    rw [hinfo] at hat
    exact ⟨m, hm, rfl, hprev, hidle, htodo, hwait, hat⟩
  · rintro ⟨m, hm, rfl, hprev, hidle, htodo, hwait, hat⟩
    have hidle' : ((s.session (t.sessionOf m)).ring.client.isNone &&
        (s.session (t.sessionOf m)).todo.isEmpty) = true := by
      rw [hidle, htodo]
      rfl
    have hpass : t.program.pass (t.sessionOf m) (s.shared (t.program.clientOf (t.sessionOf m)))
        (s.session (t.sessionOf m)).info
        (s.session (t.sessionOf m)).ring.session.lastPushedReq = .error .undefined := by
      refine (hf.pass_eq hm (c := ())).trans ?_
      rw [machineStep_fails hprev hat]
      rfl
    simp only [RingProgram.step]
    rw [if_pos hidle', if_pos (show t.program.target _ ≤ _ from hwait), hpass]
    rfl

end Rings

/-! ## Two machines -/

/-- Two machines with two slots each, and every key is its own hash. -/
def twoInCircle : CircularTest :=
  relAcqCircularAsync { sessionConf 2 with
    kvsNumKeys := 202, enableAssertions := true, cityHash := fun k => k } 2 0

/-- The bucket of a key that is its own hash. -/
theorem bkt_ofHash {k : Nat} (h : k < 2 ^ 32) : (MicaKey.ofHash k).bkt = k := by
  show leNat (leBytes 4 k) = k
  exact leNat_leBytes h

/-- Keys that are their own hashes are apart. -/
theorem ofHash_apart {n : Nat} (hn : n ≤ 2 ^ 32) {k k' : Nat} (hk : k < n) (hk' : k' < n)
    (heq : MicaKey.ofHash k = .ofHash k') : k = k' := by
  rw [← bkt_ofHash (Nat.lt_of_lt_of_le hk hn), ← bkt_ofHash (Nat.lt_of_lt_of_le hk' hn)]
  exact congrArg MicaKey.bkt heq

theorem twoInCircle_fits : twoInCircle.Fits :=
  ⟨by decide, by decide, by decide, by decide, by decide, by decide, by decide,
    fun _ hk _ hk' heq => ofHash_apart (n := 202) (by decide) hk hk' heq⟩

def emptyRings : RingSys CircularStore Unit CircularLocal CircularReq :=
  twoInCircle.startRings (fun _ => 0) (fun _ => 0) (fun _ _ => 0) fun _ _ => freeOp

/-- Machine 0 kicks things off, one request after the other; machine 1 finds its flag, and has its
    first read picked up. -/
def untilFirstRead : List RingCmd :=
  ((List.range 6).flatMap fun i => [.pass 0, .access 0, .advance 0, .advance 0, .fill 0 0,
    .execute 0 false, .complete 0 (i % 2), .poll 0]) ++
  [.pass 1, .pass 1, .access 1, .advance 1, .advance 1, .fill 1 0, .execute 1 false, .complete 1 0,
    .advance 1, .pass 1, .pass 1, .access 1, .advance 1, .advance 1, .fill 1 0]

theorem firstRead_run : ∃ tr s s' r byte evs, Run twoInCircle.program.step emptyRings tr s ∧
    twoInCircle.program.step s (.execute 1 false) = .ok (s', some (some (r, byte)), evs) ∧
      tr.length = 63 ∧ r.opcode = kvsOpGet := by
  have h : (do
      let r ← exec twoInCircle.program.step emptyRings untilFirstRead
      let r' ← twoInCircle.program.step r.2 (.execute 1 false)
      return decide (r.1.length = 63 ∧
        (r'.2.1.bind fun shown : CircularEvent => shown.map fun p : ClientRequest × UInt8 =>
          p.1.opcode) = some kvsOpGet)) = .ok true := by
    decide +kernel
  obtain ⟨⟨tr, s⟩, hexec, h⟩ := bind_eq_ok.mp h
  obtain ⟨⟨s', shown, evs⟩, hstep, h⟩ := bind_eq_ok.mp h
  obtain ⟨hlen, hop⟩ := of_decide_eq_true (Except.ok.inj h)
  obtain ⟨shown, rfl, hop⟩ := Option.bind_eq_some_iff.mp hop
  obtain ⟨⟨r, byte⟩, rfl, hop⟩ := Option.map_eq_some_iff.mp hop
  exact ⟨tr, s, s', r, byte, evs, run_of_exec hexec, hstep, hlen, Option.some.inj hop⟩

/-- Machine 1 reads in its turn. -/
theorem circular_turns_two : ∃ (tr : List (RingCmd × RingShown CircularEvent)) (r : ClientRequest)
    (byte : UInt8), r.opcode = kvsOpGet ∧
      twoInCircle.Shown (releases (tr.flatMap seen)) 1 r byte := by
  obtain ⟨tr, s, s', r, byte, evs, hrun, hstep, hlen, hop⟩ := firstRead_run
  have hshort : (tr ++ [(RingCmd.execute 1 false,
      ((some (some (r, byte)), evs) : RingShown CircularEvent))]).length < 2 ^ 64 := by
    rw [List.length_append, hlen]
    show 63 + 1 < _
    decide
  exact ⟨tr, r, byte, hop, circular_turns twoInCircle_fits (by decide) (fun _ _ => by decide)
    (hrun.snoc hstep) (Carried.within_of_length hshort) rfl⟩

/-! ## Twenty-seven machines -/

/-- One slot each, and no assertions compiled in. -/
def manyInCircle : CircularTest :=
  relAcqCircularBlocking { sessionConf 1 with kvsNumKeys := 2727, cityHash := fun k => k } 27 0

theorem manyInCircle_fits : manyInCircle.Fits :=
  ⟨by decide, by decide, by decide, by decide, by decide, by decide, by decide,
    fun _ hk _ hk' heq => ofHash_apart (n := 2727) (by decide) hk hk' heq⟩

/-- A call that blocks, from the pass that issues the request to its return. -/
def callOf (g : Nat) : List RingCmd :=
  [.pass g, .access g, .advance g, .advance g, .fill g 0, .execute g false, .complete g 0,
    .advance g]

/-- A machine acquires the flag, finds it to be 1, and has read the first key. -/
def firstReadOf (g : Nat) : List RingCmd := [.pass g] ++ callOf g ++ [.pass g] ++ callOf g

/-- It checks that, reads and checks the other keys, and writes. -/
def roundOf (g : Nat) : List RingCmd :=
  firstReadOf g ++ [.pass g] ++ (List.range 4).flatMap (fun _ => callOf g ++ [.pass g]) ++
    (List.range 7).flatMap fun _ => callOf g

/-- Machine 0 kicks things off, the others do a round each, and machine 0 has read what machine 26
    has written. -/
def onceAround : List RingCmd :=
  (List.range 6).flatMap (fun _ => callOf 0) ++
    (List.range 26).flatMap (fun m => roundOf (m + 1)) ++ firstReadOf 0

theorem onceAround_run : ∃ tr s, Run manyInCircle.program.step
    (manyInCircle.startRings (fun _ => 0) (fun _ => 0) (fun _ _ => 0) fun _ _ => freeOp) tr s ∧
      tr.length = 2952 ∧ Checks (s.session 0) := by
  have h : (do
      let r ← exec manyInCircle.program.step
        (manyInCircle.startRings (fun _ => 0) (fun _ => 0) (fun _ _ => 0) fun _ _ => freeOp)
        onceAround
      let x := r.2.session 0
      return decide (r.1.length = 2952 ∧ x.ring.client.isNone = true ∧ x.todo.isEmpty = true ∧
        x.info.target ≤ x.ring.session.lastPulledReq ∧
        (match x.info.loc with | .reading _ _ => true | _ => false) = true)) = .ok true := by
    decide +kernel
  obtain ⟨⟨tr, s⟩, hexec, h⟩ := bind_eq_ok.mp h
  obtain ⟨hlen, hidle, htodo, hwait, hloc⟩ := of_decide_eq_true (Except.ok.inj h)
  refine ⟨tr, s, run_of_exec hexec, hlen, Option.isNone_iff_eq_none.mp hidle,
    List.isEmpty_iff.mp htodo, hwait, Or.inl ?_⟩
  split at hloc
  · rename_i keyId todo hat
    exact ⟨keyId, todo, hat⟩
  · cases hloc

/-- The check of machine 0 fails; and where there are two machines, machine 1 goes on. -/
theorem circular_fails_iff_circle :
    (∃ s : RingSys CircularStore Unit CircularLocal CircularReq, Checks (s.session 0) ∧
      manyInCircle.program.step s (.pass 0) = .error .undefined) ∧
    ∃ s : RingSys CircularStore Unit CircularLocal CircularReq,
      twoInCircle.program.step s (.pass 1) ≠ .error .undefined := by
  constructor
  · obtain ⟨tr, s, hrun, hlen, hchecks⟩ := onceAround_run
    have hshort : tr.length < manyInCircle.limit := by
      rw [hlen]
      decide
    exact ⟨s, hchecks, (circular_fails_iff manyInCircle_fits (by decide) (fun _ _ => by decide) hrun
      (Carried.within_of_length hshort) (.pass 0)).mpr ⟨0, by decide, rfl, by decide, hchecks⟩⟩
  · obtain ⟨tr, s, s', r, byte, evs, hrun, hstep, hlen, hop⟩ := firstRead_run
    have hshort : (tr ++ [(RingCmd.execute 1 false,
        ((some (some (r, byte)), evs) : RingShown CircularEvent))]).length < twoInCircle.limit := by
      rw [List.length_append, hlen]
      show 63 + 1 < _
      decide
    refine ⟨s', fun hfails => ?_⟩
    obtain ⟨m, hm, -, hprev, -⟩ := (circular_fails_iff twoInCircle_fits (by decide)
      (fun _ _ => by decide) (hrun.snoc hstep) (Carried.within_of_length hshort)
      (.pass 1)).mp hfails
    have hlt := (twoInCircle_fits.prev_eq hm).2
    change twoInCircle.prevMachineId m < 2 at hlt
    omega

end CircularTest

end Odyssey
