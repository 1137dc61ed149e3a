/-
  WHAT THE RINGS PROMISE, over all runs.

  * `rings_carry_sessions`: what happens over the rings, under any interleaving of the clients, the
    workers and the store, is what happens over a store that is atomic;
  * `rings_never_fault`: no assertion of the interface or of the worker fails.

  Both hold as long as the counters do not wrap, that is for fewer than `2 ^ 64` accesses of a
  session, and for rings that a `uint16_t` walks around.
-/
import Odyssey.RingInvariants

namespace Odyssey

open Lib RingProgram

variable {S C L R E : Type} {p : RingProgram S C L R E}

/-- **THE RINGS CARRY THE SESSIONS**: a run over the rings is one over the atomic store, with the
    same passes and executions; the store and the sessions hold the same after it, and what was
    polled of a session was executed. -/
theorem rings_carry_sessions (hpos : 1 ≤ p.conf.perSessionReqNum)
    (hN : p.conf.perSessionReqNum ≤ 2 ^ 16) {store : S} {shared : Nat → C} {info : Nat → L}
    {ops : Nat → Nat → ClientOp} {tr : List (RingCmd × RingShown E)} {s : RingSys S C L R}
    (hrun : Run p.step (RingProgram.start store shared info ops) tr s) (hfew : Countable tr) :
    ∃ t, Run p.service.step (RingProgram.sessions store shared info) (tr.flatMap seen) t ∧
      t.store = s.store ∧ t.shared = s.shared ∧
      ∀ g, (t.session g).info = (s.session g).info ∧
        (s.session g).ring.session.lastPulledReq ≤ (t.session g).executed ∧
        (s.session g).ring.session.lastPushedReq ≤ (t.session g).issued := by
  obtain ⟨t, habove, hcarried⟩ := Carried.run hpos hN hrun hfew
  refine ⟨t, habove, hcarried.store, hcarried.shared, fun g => ?_⟩
  obtain ⟨evs, e, a, hg⟩ := hcarried.session g
  have hissued := hg.issued
  have hexecuted := hg.executed_eq.1
  exact ⟨hg.info, by omega, by omega⟩

/-- **NO ASSERTION FAILS**, whoever moves next. -/
theorem rings_never_fault (hp : p.Proper) (hpos : 1 ≤ p.conf.perSessionReqNum)
    (hN : p.conf.perSessionReqNum ≤ 2 ^ 16) {store : S} {shared : Nat → C} {info : Nat → L}
    {ops : Nat → Nat → ClientOp} {tr : List (RingCmd × RingShown E)} {s : RingSys S C L R}
    (hrun : Run p.step (RingProgram.start store shared info ops) tr s) (hfew : Countable tr)
    (k : RingCmd) : p.step s k ≠ .error .undefined := by
  intro hstep
  obtain ⟨g, t, -, -, -, -, -, -, -, hfails⟩ :=
    Carried.faults (hp.keeps (2 ^ 64)) (Nat.le_refl _) hpos hN trivial hrun hfew hstep
  exact hp.pass _ _ _ _ (client_fails hfails).2

/-! ## A small program -/

/-- It writes a byte and reads it back, and waits for both before it does so again; the store keeps
    one byte, and session holds the last one it has read. -/
def writeThenRead : RingProgram UInt8 Unit (Nat × UInt8) Bool Bool where
  conf := { sessionConf 2 with enableAssertions := true }
  clientOf _ := 0
  target info := info.1
  pass _ c info issued := .ok (c, (issued + 2, info.2), [true, false], true)
  access write :=
    (.async true, if write then
      { readKeyZero with type := .rlxdWrite, valueToWrite := some fun _ => 7 } else readKeyZero)
  serve _ store info r :=
    match r.valueToWrite with
    | some bytes => (bytes.headD store, info, false)
    | none => (store, (info.1, store), false)

theorem writeThenRead_proper : writeThenRead.Proper := by
  constructor
  · intro g r
    show decide (0 ≤ checkInputs _ { (writeThenRead.access r).2 with sessionId := g % 1 }) = true
    rw [Nat.mod_one]
    cases r <;> rfl
  · intro r h
    cases h
  · intro g c info n h
    cases h

/-- One pass, with the worker in between. -/
def onePass : List RingCmd :=
  [.pass 0, .access 0, .advance 0, .advance 0, .fill 0 0, .access 0, .advance 0, .execute 0 false,
    .advance 0, .fill 0 0, .execute 0 false, .complete 0 1, .complete 0 0, .poll 0, .poll 0]

theorem onePass_run : ∃ tr s, Run writeThenRead.step
    (RingProgram.start 0 (fun _ => ()) (fun _ => (0, 0)) fun _ _ => freeOp) tr s ∧
      Countable tr ∧ (s.session 0).info = (2, 7) ∧
      (s.session 0).ring.session.lastPulledReq = 2 := by
  have h : (do
      let r ← exec writeThenRead.step
        (RingProgram.start 0 (fun _ => ()) (fun _ => (0, 0)) fun _ _ => freeOp) onePass
      return decide (r.1.length = 15 ∧ (r.2.session 0).info = (2, 7) ∧
        (r.2.session 0).ring.session.lastPulledReq = 2)) = .ok true := by decide +kernel
  obtain ⟨⟨tr, s⟩, hexec, h⟩ := bind_eq_ok.mp h
  obtain ⟨hlen, hinfo, hpulled⟩ := of_decide_eq_true (Except.ok.inj h)
  have hfew : tr.length < 2 ^ 64 := by
    rw [show tr.length = 15 from hlen]
    decide
  exact ⟨tr, s, run_of_exec hexec, Carried.within_of_length hfew, hinfo, hpulled⟩

/-- The byte was read over the atomic store too. -/
theorem rings_carry_sessions_onePass : ∃ tr t,
    Run writeThenRead.service.step (RingProgram.sessions 0 (fun _ => ()) fun _ => (0, 0)) tr t ∧
      (t.session 0).info = (2, 7) ∧ 2 ≤ (t.session 0).executed := by
  obtain ⟨tr, s, hrun, hfew, hinfo, hpulled⟩ := onePass_run
  obtain ⟨t, habove, -, -, hsessions⟩ := rings_carry_sessions (by decide) (by decide) hrun hfew
  obtain ⟨hsame, hle, -⟩ := hsessions 0
  exact ⟨_, t, habove, hsame.trans hinfo, hpulled ▸ hle⟩

/-- The next pass does not fail. -/
theorem rings_never_fault_onePass : ∃ s : RingSys UInt8 Unit (Nat × UInt8) Bool,
    (s.session 0).info = (2, 7) ∧ writeThenRead.step s (.pass 0) ≠ .error .undefined := by
  obtain ⟨tr, s, hrun, hfew, hinfo, -⟩ := onePass_run
  exact ⟨s, hinfo,
    rings_never_fault writeThenRead_proper (by decide) (by decide) hrun hfew (.pass 0)⟩

end Odyssey
