/-
  THE REQUESTS OF THE CIRCULAR TESTS, and what the store makes of them.

  The requests of a session wait in its queue, and what the client will ask for is where it is in
  its round.  Both together are the plan of its machine (`pendingOf`), so that a pass, which only
  moves requests from one to the other, is nothing to the token; to acquire is no part of a plan.

  What a client can tell is little (`LocOk`): when it looks at a flag or at the data, the request
  was executed, because it has waited for it, and what is in the buffer is what the store gave.  In
  the test that does not block, five reads are in flight with the writes behind them; how far the
  store is in the round says which buffers are filled (`InRound`).
-/
import Odyssey.CircularToken
import Mathlib.Tactic.IntervalCases

namespace Odyssey

open Lib

namespace CircularTest

variable {t : CircularTest}

/-! ## Requests -/

def isAcquire : CircularReq → Bool
  | .acquire _ _ => true
  | _ => false

def keyOf : CircularReq → Nat
  | .read keyId _ | .acquire keyId _ | .write keyId _ | .release keyId _ => keyId

/-- **`check_inputs` finds nothing wrong** with a key of the store. -/
theorem Fits.checked (h : t.Fits) {r : CircularReq} (hr : keyOf r < t.conf.kvsNumKeys) {i : Nat}
    (hi : i < t.conf.sessionsPerMachine) :
    checkInputs t.conf { (t.access r).2 with sessionId := i } = 1 := by
  have hvalue := h.value
  have hlen : t.valLen ≤ t.conf.valueSize := by
    unfold valLen
    split <;> omega
  unfold checkInputs
  cases r <;> simp only [access, keyOf] at hr ⊢ <;>
    simp [Nat.not_le.mpr hi, Nat.not_le.mpr hr, Nat.not_lt.mpr hlen]

/-- So the interface takes the request, -/
theorem Fits.accepted (h : t.Fits) {r : CircularReq} (hr : keyOf r < t.conf.kvsNumKeys) (g : Nat) :
    t.program.accepted g r = true := by
  have hone := h.checked hr (Nat.mod_lt g h.sessions)
  show decide (0 ≤ checkInputs t.conf { (t.access r).2 with
    sessionId := g % t.conf.sessionsPerMachine }) = true
  rw [hone]
  rfl

/-- and returns 1, or the number of the request. -/
theorem Fits.returned_eq (h : t.Fits) {r : CircularReq} (hr : keyOf r < t.conf.kvsNumKeys)
    (n : Nat) : t.returned r n =
      if t.blocking = true ∨ isAcquire r = true then 1 else toInt (u64 (n + 1)) := by
  have hone : checkInputs t.conf (t.access r).2 = 1 := by
    have hzero : { (t.access r).2 with sessionId := 0 } = (t.access r).2 := by
      cases r <;> rfl
    rw [← hzero]
    exact h.checked hr h.sessions
  unfold returned
  rw [hone]
  cases hblocking : t.blocking <;> cases r <;> simp [access, isAcquire, hblocking]

section Serve

variable {spurious : Bool} {s : CircularStore} {x : CircularLocal} {k b : Nat} {v : UInt8}

/-- What the store does for a read, -/
theorem serve_read : serve spurious s x (t.program.request (.read k b)) =
    (s.choose, { x with
      view := ViewStore.viewAfter x.view (t.hash k) (s.look x.view (t.hash k)) false
      value := Function.update x.value b (s.look x.view (t.hash k)).value },
      some (t.program.request (.read k b), (s.look x.view (t.hash k)).value)) := rfl

/-- an acquire, -/
theorem serve_acquire : serve spurious s x (t.program.request (.acquire k b)) =
    (s.choose, { x with
      view := ViewStore.viewAfter x.view (t.hash k) (s.look x.view (t.hash k)) true
      value := Function.update x.value b (s.look x.view (t.hash k)).value },
      some (t.program.request (.acquire k b), (s.look x.view (t.hash k)).value)) := rfl

theorem serve_other {r : ClientRequest} (hr : opReads r.opcode = false) : serve spurious s x r =
    ((s.write x.view r.key ((r.valueToWrite.getD []).headD 0) (r.opcode == opRelease)).choose,
      { x with view := x.view.raise r.key (s.stamp x.view r.key) },
      some (r, (r.valueToWrite.getD []).headD 0)) := by
  unfold serve
  rw [hr]
  rfl

/-- The first byte of a value. -/
theorem byte_desired :
    (readAt (fun i => if i = 0 then v else 0) 0 t.valLen).headD 0 = v := by
  unfold valLen
  split <;> rfl

theorem byte_write :
    ((t.program.request (.write k v)).valueToWrite.getD []).headD 0 = v := byte_desired

theorem byte_release :
    ((t.program.request (.release k v)).valueToWrite.getD []).headD 0 = v := byte_desired

/-- a write, -/
theorem serve_write : serve spurious s x (t.program.request (.write k v)) =
    ((s.write x.view (t.hash k) v false).choose, { x with
      view := x.view.raise (t.hash k) (s.stamp x.view (t.hash k)) },
      some (t.program.request (.write k v), v)) := by
  rw [serve_other rfl, byte_write]
  rfl

/-- and a release. -/
theorem serve_release : serve spurious s x (t.program.request (.release k v)) =
    ((s.write x.view (t.hash k) v true).choose, { x with
      view := x.view.raise (t.hash k) (s.stamp x.view (t.hash k)) },
      some (t.program.request (.release k v), v)) := by
  rw [serve_other rfl, byte_release]
  rfl

end Serve

/-! ## What a machine is to do -/

/-- Session 0 of a machine. -/
def sessionOf (t : CircularTest) (m : Nat) : Nat := m * t.conf.sessionsPerMachine

/-- The rest of a round that the client is in, or is about to begin. -/
def todoOf (t : CircularTest) (m : Nat) (x : Issuer CircularLocal CircularReq) :
    List CircularReq :=
  match x.info.loc with
  | .issuing _ todo => todo
  | .reading _ todo => todo
  | .testing => if x.queue = [] ∧ x.info.value 0 = 1 then t.round m else []
  | _ => []

/-- **What a machine is still to do** of its round; to acquire is no part of it. -/
def pendingOf (t : CircularTest) (m : Nat) (x : Issuer CircularLocal CircularReq) :
    List CircularReq := x.queue.filter (fun r => !isAcquire r) ++ t.todoOf m x

/-- What the wait of the next pass is for: all that was issued. -/
def Waits (x : Issuer CircularLocal CircularReq) : Prop := x.queue = [] ∨ x.info.target = x.issued

/-- No acquires, and keys of the store. -/
def Plain (t : CircularTest) (l : List CircularReq) : Prop :=
  ∀ r ∈ l, isAcquire r = false ∧ keyOf r < t.conf.kvsNumKeys

/-- **The round of the test that does not block**: the first `j` requests of it are executed, the
    first `j'` are issued; what was read is in its buffers. -/
structure InRound (t : CircularTest) (m : Nat) (x : Issuer CircularLocal CircularReq)
    (todo : List CircularReq) (j j' : Nat) : Prop where
  le : j ≤ j' ∧ j' ≤ 12
  executed : (t.round m).drop j = x.queue ++ todo
  issued : (t.round m).drop j' = todo
  values : ∀ i < 5, i < j → x.info.value i = byteOf (t.prevMachineId m) i
  last : 5 ≤ j' → x.issued < 2 ^ 31 → x.info.lastIssuedReq + (j' - 5) = x.issued

/-- What a client knows, depending on where it is. -/
def LocOk (t : CircularTest) (m : Nat) (x : Issuer CircularLocal CircularReq) : Prop :=
  match x.info.loc with
  | .issuing kick todo => t.Plain x.queue ∧ t.Plain todo ∧ (t.blocking = true → Waits x) ∧
      (t.blocking = false → kick = false → ∃ j j', t.InRound m x todo j j')
  | .reading keyId todo => t.blocking = true ∧ t.Plain x.queue ∧ t.Plain todo ∧ Waits x ∧
      ∃ i < 5, keyId = t.key i ∧ (x.queue = [.read keyId 0] ∨
        (x.queue = [] ∧ x.info.value 0 = byteOf (t.prevMachineId m) i))
  | .acquiring => t.Plain x.queue
  | .testing => Waits x ∧ (x.queue = [] ∨ ∃ q, t.Plain q ∧
      x.queue = q ++ [.acquire (t.keyFlag (t.prevMachineId m)) 0])
  | .checking => t.blocking = false ∧ t.Plain x.queue ∧ x.info.target = x.info.lastIssuedReq ∧
      ∃ j, t.InRound m x [] j 12

theorem filter_plain {l : List CircularReq} (h : t.Plain l) :
    l.filter (fun r => !isAcquire r) = l := by
  rw [List.filter_eq_self]
  intro r hr
  rw [(h r hr).1]
  rfl

/-- The states of the tests, over sessions. -/
abbrev CircularSessions := Sessions CircularStore Unit CircularLocal CircularReq

/-- **The invariant**, after `n` releases. -/
structure CircleInv (t : CircularTest) (n : Nat) (s : CircularSessions) : Prop where
  circle : t.Circle n s.store (fun m => (s.session (t.sessionOf m)).info.view)
    (fun m => t.pendingOf m (s.session (t.sessionOf m)))
  loc : ∀ m < t.machineNum, t.LocOk m (s.session (t.sessionOf m))
  idle : ∀ g, (∀ m < t.machineNum, g ≠ t.sessionOf m) → (s.session g).queue = []
  counts : ∀ g, (s.session g).queue.length ≤ (s.session g).issued

theorem Fits.sessionOf_inj (h : t.Fits) {m m' : Nat} (heq : t.sessionOf m = t.sessionOf m') :
    m = m' := Nat.eq_of_mul_eq_mul_right h.sessions heq

/-- One session changes. -/
theorem Fits.sessions_update (h : t.Fits) {α : Type}
    (F : Nat → Issuer CircularLocal CircularReq → α)
    (session : Nat → Issuer CircularLocal CircularReq) (m : Nat)
    (y : Issuer CircularLocal CircularReq) :
    (fun m' => F m' (Function.update session (t.sessionOf m) y (t.sessionOf m')))
      = Function.update (fun m' => F m' (session (t.sessionOf m'))) m (F m y) := by
  funext m'
  by_cases heq : m' = m
  · rw [heq, Function.update_self, Function.update_self]
  · rw [Function.update_of_ne heq, Function.update_of_ne fun hc => heq (h.sessionOf_inj hc)]

/-- **Where a request stands in a round.** -/
theorem drop_round_read {m j k b : Nat} {rest : List CircularReq}
    (h : (t.round m).drop j = .read k b :: rest) : j < 5 ∧ k = t.key j ∧ b = t.buffer j := by
  have hj : j < 12 := by
    by_contra hc
    rw [List.drop_eq_nil_of_le (show (t.round m).length ≤ j by
      show 12 ≤ j
      omega)] at h
    cases h
  interval_cases j <;> cases h <;> exact ⟨by decide, rfl, rfl⟩

theorem drop_round_other {m j : Nat} {r : CircularReq} {rest : List CircularReq}
    (h : (t.round m).drop j = r :: rest) (hr : ∀ k b, r ≠ .read k b) : 5 ≤ j := by
  by_contra hc
  have hj : j < 5 := by omega
  interval_cases j <;> cases h <;> exact hr _ _ rfl

/-! ## The store executes a request -/

/-- A session after its oldest request was executed. -/
def executedOf (x : Issuer CircularLocal CircularReq) (queue : List CircularReq)
    (view : View MicaKey) (value : Nat → UInt8) : Issuer CircularLocal CircularReq :=
  ⟨{ x.info with view := view, value := value }, queue, x.issued⟩

section Execute

variable {m : Nat} {x : Issuer CircularLocal CircularReq} {r : CircularReq}
  {queue : List CircularReq} {view : View MicaKey} {value : Nat → UInt8}

/-- What an acquire is in front of. -/
theorem acquire_last {q : List CircularReq} {a : CircularReq} (hq : t.Plain q)
    (hqueue : q ++ [a] = r :: queue) (hr : isAcquire r = false) (ha : isAcquire a = true) :
    ∃ q', q = r :: q' ∧ queue = q' ++ [a] := by
  cases q with
  | nil =>
    obtain ⟨rfl, -⟩ := List.cons.inj hqueue
    rw [hr] at ha
    cases ha
  | cons r' q' =>
    obtain ⟨rfl, hrest⟩ := List.cons.inj hqueue
    exact ⟨q', rfl, hrest.symm⟩

/-- A request that was executed is not pending any more. -/
theorem pendingOf_executed (h : t.LocOk m x) (hqueue : x.queue = r :: queue)
    (hr : isAcquire r = false) :
    t.pendingOf m x = r :: t.pendingOf m (executedOf x queue view value) := by
  have htodo : t.todoOf m x = t.todoOf m (executedOf x queue view value) := by
    unfold LocOk at h
    unfold todoOf executedOf
    dsimp only
    cases hloc : x.info.loc with
    | testing =>
      rw [hloc] at h
      obtain ⟨-, hnone | ⟨q, hq, heq⟩⟩ := h
      · rw [hnone] at hqueue
        cases hqueue
      · rw [heq] at hqueue
        obtain ⟨q', -, rfl⟩ := acquire_last hq hqueue hr rfl
        dsimp only
        rw [heq, if_neg (by simp), if_neg (by simp)]
    | _ => rfl
  unfold pendingOf
  rw [hqueue, List.filter_cons, hr, htodo]
  rfl

/-- **The client knows the same** after a request of its round was executed: what was read is in its
    buffer. -/
theorem LocOk.executed (h : t.LocOk m x) (hqueue : x.queue = r :: queue) (hr : isAcquire r = false)
    (view : View MicaKey)
    (hread : ∀ k b, r = .read k b → ∃ i < 5, k = t.key i ∧ b = t.buffer i ∧
      value = Function.update x.info.value b (byteOf (t.prevMachineId m) i))
    (hother : (∀ k b, r ≠ .read k b) → value = x.info.value) :
    t.LocOk m (executedOf x queue view value) := by
  have htail : ∀ {l : List CircularReq}, t.Plain (r :: l) → t.Plain l := fun hl r' hr' =>
    hl r' (List.mem_cons_of_mem _ hr')
  have hround : t.blocking = false → ∀ {todo j j'}, t.InRound m x todo j j' →
      ∃ i, t.InRound m (executedOf x queue view value) todo i j' := by
    intro hasync todo j j' ⟨hle, hexec, hissued, hvalues, hlast⟩
    rw [hqueue, List.cons_append] at hexec
    have hnext : (t.round m).drop (j + 1) = queue ++ todo := by
      rw [← List.tail_drop, hexec, List.tail_cons]
    have hlt : j < j' := by
      by_contra hc
      have heq : j = j' := by omega
      rw [heq, hissued] at hexec
      have hlen := congrArg List.length hexec
      simp at hlen
      omega
    refine ⟨j + 1, ⟨by omega, hle.2⟩, hnext, hissued, ?_, hlast⟩
    intro i hi hij
    show value i = _
    by_cases hisread : ∃ k b, r = .read k b
    · obtain ⟨k, b, rfl⟩ := hisread
      obtain ⟨i', hi', -, hb, rfl⟩ := hread k b rfl
      obtain ⟨hj, -, hbuffer⟩ := drop_round_read hexec
      have hid : ∀ i, t.buffer i = i := fun i => by
        unfold buffer
        rw [hasync]
        rfl
      rw [hid] at hb hbuffer
      have heq : i' = j := hb.symm.trans hbuffer
      rw [hb, heq]
      by_cases hmine : i = j
      · rw [hmine, Function.update_self]
      · rw [Function.update_of_ne hmine]
        exact hvalues i hi (by omega)
    · have hnot : ∀ k b, r ≠ .read k b := fun k b hc => hisread ⟨k, b, hc⟩
      rw [hother hnot]
      have hj := drop_round_other hexec hnot
      exact hvalues i hi (by omega)
  have hwaits : Waits x → Waits (executedOf x queue view value) := by
    rintro (hnone | htarget)
    · rw [hnone] at hqueue
      cases hqueue
    · exact Or.inr htarget
  have hsame : (executedOf x queue view value).info.loc = x.info.loc := rfl
  unfold LocOk at h ⊢
  rw [hsame]
  cases hloc : x.info.loc with
  | issuing kick todo =>
    rw [hloc] at h
    obtain ⟨hplain, htodo, hwait, hin⟩ := h
    rw [hqueue] at hplain
    refine ⟨htail hplain, htodo, fun hb => hwaits (hwait hb), fun hasync hkick => ?_⟩
    obtain ⟨j, j', hin⟩ := hin hasync hkick
    obtain ⟨i, hnext⟩ := hround hasync hin
    exact ⟨i, j', hnext⟩
  | reading keyId todo =>
    rw [hloc] at h
    obtain ⟨hblocking, hplain, htodo, hwait, i, hi, hkey, hone | ⟨hnone, -⟩⟩ := h
    · rw [hqueue] at hplain hone
      obtain ⟨rfl, rfl⟩ := List.cons.inj hone
      obtain ⟨i', hi', hk, -, hvalue⟩ := hread keyId 0 rfl
      refine ⟨hblocking, htail hplain, htodo, hwaits hwait, i', hi', hk, Or.inr ⟨rfl, ?_⟩⟩
      show value 0 = _
      rw [hvalue, Function.update_self]
    · rw [hnone] at hqueue
      cases hqueue
  | acquiring =>
    rw [hloc, hqueue] at h
    exact htail h
  | testing =>
    rw [hloc] at h
    obtain ⟨hwait, hnone | ⟨q, hq, heq⟩⟩ := h
    · rw [hnone] at hqueue
      cases hqueue
    · rw [heq] at hqueue
      obtain ⟨q', rfl, hrest⟩ := acquire_last hq hqueue hr rfl
      exact ⟨hwaits hwait, Or.inr ⟨q', htail hq, hrest⟩⟩
  | checking =>
    rw [hloc] at h
    obtain ⟨hasync, hplain, htarget, j, hin⟩ := h
    rw [hqueue] at hplain
    exact ⟨hasync, htail hplain, htarget, hround hasync hin⟩

/-- An acquire is executed alone. -/
theorem LocOk.acquire_alone (h : t.LocOk m x) (hqueue : x.queue = r :: queue)
    (hr : isAcquire r = true) : x.info.loc = .testing ∧ Waits x ∧ queue = [] ∧
      r = .acquire (t.keyFlag (t.prevMachineId m)) 0 := by
  have hplain : ¬ t.Plain x.queue := by
    intro hc
    rw [hqueue] at hc
    have hnot := (hc r List.mem_cons_self).1
    rw [hr] at hnot
    cases hnot
  unfold LocOk at h
  cases hloc : x.info.loc with
  | testing =>
    rw [hloc] at h
    obtain ⟨hwait, hnone | ⟨q, hq, heq⟩⟩ := h
    · rw [hnone] at hqueue
      cases hqueue
    · rw [heq] at hqueue
      cases q with
      | nil =>
        obtain ⟨rfl, rfl⟩ := List.cons.inj hqueue
        exact ⟨rfl, hwait, rfl, rfl⟩
      | cons r' q =>
        obtain ⟨rfl, -⟩ := List.cons.inj hqueue
        have hnot := (hq _ List.mem_cons_self).1
        rw [hr] at hnot
        cases hnot
  | issuing kick todo =>
    rw [hloc] at h
    exact absurd h.1 hplain
  | reading keyId todo =>
    rw [hloc] at h
    exact absurd h.2.1 hplain
  | acquiring =>
    rw [hloc] at h
    exact absurd h hplain
  | checking =>
    rw [hloc] at h
    exact absurd h.2.1 hplain

/-- **What an acquire brings**: a round, if it has found a 1. -/
theorem pendingOf_acquired (h : x.info.loc = .testing) {byte : UInt8} :
    t.pendingOf m (executedOf x [] view (Function.update x.info.value 0 byte))
      = if byte = 1 then t.round m else [] := by
  unfold pendingOf todoOf executedOf
  dsimp only
  simp only [h, Function.update_self, true_and]
  rfl

end Execute

/-- One session moves, and the store with it. -/
theorem CircleInv.update (hf : t.Fits) {n n' : Nat} {s : CircularSessions} (h : CircleInv t n s)
    {m : Nat} (hm : m < t.machineNum) {store : CircularStore} {shared : Nat → Unit}
    {y : Issuer CircularLocal CircularReq}
    (hcircle : t.Circle n' store
      (Function.update (fun m => (s.session (t.sessionOf m)).info.view) m y.info.view)
      (Function.update (fun m => t.pendingOf m (s.session (t.sessionOf m))) m (t.pendingOf m y)))
    (hloc : t.LocOk m y) (hcount : y.queue.length ≤ y.issued) :
    CircleInv t n' ⟨store, shared, Function.update s.session (t.sessionOf m) y⟩ := by
  refine ⟨?_, fun m' hm' => ?_, fun g hg => ?_, fun g => ?_⟩
  · show t.Circle n' store
      (fun m' => (Function.update s.session (t.sessionOf m) y (t.sessionOf m')).info.view)
      (fun m' => t.pendingOf m' (Function.update s.session (t.sessionOf m) y (t.sessionOf m')))
    rw [hf.sessions_update (fun _ x => x.info.view), hf.sessions_update t.pendingOf]
    exact hcircle
  · show t.LocOk m' (Function.update s.session (t.sessionOf m) y (t.sessionOf m'))
    by_cases heq : m' = m
    · rw [heq, Function.update_self]
      exact hloc
    · rw [Function.update_of_ne fun hc => heq (hf.sessionOf_inj hc)]
      exact h.loc m' hm'
  · show (Function.update s.session (t.sessionOf m) y g).queue = []
    rw [Function.update_of_ne (hg m hm)]
    exact h.idle g hg
  · show (Function.update s.session (t.sessionOf m) y g).queue.length ≤
      (Function.update s.session (t.sessionOf m) y g).issued
    by_cases heq : g = t.sessionOf m
    · rw [heq, Function.update_self]
      exact hcount
    · rw [Function.update_of_ne heq]
      exact h.counts g

/-- **What the execution of a request shows**, after `n` releases: it is the turn of the machine,
    unless it acquires, and a read gets what the machine before has written. -/
structure Shown (t : CircularTest) (n g : Nat) (r : ClientRequest) (byte : UInt8) : Prop where
  turn : r.opcode ≠ opAcquire → g = t.sessionOf (n % t.machineNum)
  read : r.opcode = kvsOpGet → ∃ i < 5, r.key = t.hash (t.key i) ∧
    byte = byteOf (t.prevMachineId (n % t.machineNum)) i

/-- **The store executes a request.** -/
theorem CircleInv.store (hf : t.Fits) {n : Nat} {s s' : CircularSessions} {g : Nat}
    {spurious : Bool} {e : CircularEvent} (h : CircleInv t n s)
    (hstep : t.program.service.step s (.store g spurious) = .ok (s', e)) :
    ∃ r byte, e = some (r, byte) ∧ t.Shown n g r byte ∧
      CircleInv t (n + if r.opcode = opRelease then 1 else 0) s' := by
  rcases Service.step_cases hstep with ⟨_, _, _, _, hc, -⟩ |
    ⟨g', sp, r, queue, store, info, hk, hqueue, hserve, rfl⟩
  · cases hc
  · cases hk
    obtain ⟨m, hm, rfl⟩ : ∃ m < t.machineNum, g = t.sessionOf m := by
      by_contra hc
      rw [h.idle g fun m hm heq => hc ⟨m, hm, heq⟩] at hqueue
      cases hqueue
    have hloc := h.loc m hm
    have hcount := h.counts (t.sessionOf m)
    rw [hqueue, List.length_cons] at hcount
    have hfew : ∀ {view : View MicaKey} {value : Nat → UInt8},
        (executedOf (s.session (t.sessionOf m)) queue view value).queue.length ≤
          (executedOf (s.session (t.sessionOf m)) queue view value).issued := by
      intro view value
      show queue.length ≤ (s.session (t.sessionOf m)).issued
      omega
    have hserve' : serve spurious s.store (s.session (t.sessionOf m)).info (t.program.request r)
        = (store, info, e) := hserve
    cases r with
    | read k b =>
      rw [serve_read] at hserve'
      cases hserve'
      have hpending : ∀ view value, t.pendingOf m (s.session (t.sessionOf m)) = .read k b ::
          t.pendingOf m (executedOf (s.session (t.sessionOf m)) queue view value) := fun _ _ =>
        pendingOf_executed hloc hqueue rfl
      obtain ⟨⟨i, hi, hkey, hbuffer, hvalue⟩, hcircle⟩ := h.circle.read hm (hpending _ _)
      have hturn := (h.circle.held hm (by
        rw [hpending (s.session (t.sessionOf m)).info.view (s.session (t.sessionOf m)).info.value]
        exact List.cons_ne_nil _ _)).1
      refine ⟨_, _, rfl, ⟨fun _ => congrArg t.sessionOf hturn, fun _ => ⟨i, hi, ?_, ?_⟩⟩,
        h.update hf hm hcircle (hloc.executed hqueue rfl _ ?_ ?_) hfew⟩
      · rw [← hkey]
        rfl
      · rw [← hturn]
        exact hvalue
      · intro k' b' hreq
        cases hreq
        exact ⟨i, hi, hkey, hbuffer, by rw [← hvalue]⟩
      · exact fun hnot => absurd rfl (hnot k b)
    | acquire k b =>
      obtain ⟨hat, hwait, rfl, hacquire⟩ := hloc.acquire_alone hqueue rfl
      cases hacquire
      rw [serve_acquire] at hserve'
      cases hserve'
      have hpending : t.pendingOf m (s.session (t.sessionOf m)) = [] := by
        unfold pendingOf todoOf
        rw [hqueue, hat]
        rfl
      have hcircle := h.circle.acquire hf hm hpending
      rw [← pendingOf_acquired hat] at hcircle
      refine ⟨_, _, rfl, ⟨fun hc => absurd rfl hc, fun hc =>
        absurd hc (show ¬ opAcquire = kvsOpGet by decide)⟩, h.update hf hm hcircle ?_
          (Nat.zero_le _)⟩
      unfold LocOk
      dsimp only
      rw [hat]
      exact ⟨Or.inl rfl, Or.inl rfl⟩
    | write k v =>
      rw [serve_write] at hserve'
      cases hserve'
      have hpending : ∀ view value, t.pendingOf m (s.session (t.sessionOf m)) = .write k v ::
          t.pendingOf m (executedOf (s.session (t.sessionOf m)) queue view value) := fun _ _ =>
        pendingOf_executed hloc hqueue rfl
      have hturn := (h.circle.held hm (by
        rw [hpending (s.session (t.sessionOf m)).info.view (s.session (t.sessionOf m)).info.value]
        exact List.cons_ne_nil _ _)).1
      exact ⟨_, _, rfl, ⟨fun _ => congrArg t.sessionOf hturn, fun hc =>
        absurd hc (show ¬ kvsOpPut = kvsOpGet by decide)⟩,
        h.update hf hm (h.circle.write hf hm (hpending _ _))
          (hloc.executed hqueue rfl _ (fun _ _ hreq => by cases hreq) (fun _ => rfl)) hfew⟩
    | release k v =>
      rw [serve_release] at hserve'
      cases hserve'
      have hpending : ∀ view value, t.pendingOf m (s.session (t.sessionOf m)) = .release k v ::
          t.pendingOf m (executedOf (s.session (t.sessionOf m)) queue view value) := fun _ _ =>
        pendingOf_executed hloc hqueue rfl
      obtain ⟨hturn, -⟩ := h.circle.release hm
        (hpending (s.session (t.sessionOf m)).info.view (s.session (t.sessionOf m)).info.value)
      exact ⟨_, _, rfl, ⟨fun _ => congrArg t.sessionOf hturn, fun hc =>
        absurd hc (show ¬ opRelease = kvsOpGet by decide)⟩,
        h.update hf hm (h.circle.release hm (hpending _ _)).2
          (hloc.executed hqueue rfl _ (fun _ _ hreq => by cases hreq) (fun _ => rfl)) hfew⟩

end CircularTest

end Odyssey
