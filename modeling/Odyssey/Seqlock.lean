/-
  SEQLOCKS: THE LOCK OF A KEY-VALUE PAIR, AND READING WITHOUT TAKING IT.

  The lock is a counter in the entry, odd while somebody holds it.  `lock_seqlock` makes it odd by
  compare-and-swap, `unlock_seqlock` makes it even again, and in between `KVS_write` copies the
  new value into the entry.  `KVS_local_read` copies the value out, in one of two ways:

  * with `ENABLE_LOCK_FREE_READING`, it waits for an even counter, copies, and accepts the copy if
    the counter is still the same; otherwise it waits for an even counter once more and copies
    again, and the counter it then compares with is the one the failed check has loaded;
  * without, it takes the lock like a writer.

  Any number of threads run these calls on one entry.  A `Point` says where a thread is inside its
  call, with the local variables that are live there; a step of a thread is one access to the
  shared entry (a load, a store or an exchange of the counter, or the copy of one word) together
  with the local computation around it, and the scheduler decides which thread steps next.
  `memcpy` copies the words of a value in any order.

  `Locking` is the invariant.  It says who holds the lock, that the counter is odd exactly then,
  and for each thread what its `Point` says about the counter and about the words copied so far
  (`Point.Fits`).  A write takes effect when its lock is taken, a read when it returns; in that
  order the calls are a legal history of an atomic register (`linearizable`).
-/
import Odyssey.Lib.Register
import Odyssey.Lib.Runs
import Mathlib.Data.Finset.Basic
import Mathlib.Data.Fintype.Basic
import Mathlib.Logic.Function.Basic

namespace Odyssey

open Lib

/-! ## The build, the entry and the calls -/

/-- The macros the lock depends on. -/
structure LockConf where
  /-- `WORKERS_PER_MACHINE` -/
  workersPerMachine : Nat
  /-- `DISABLE_LOCKING` -/
  disableLocking : Bool
  /-- `ENABLE_LOCK_FREE_READING` -/
  enableLockFreeReading : Bool

/-- The build in which `lock_seqlock` and `unlock_seqlock` return at once. -/
def LockConf.unlocked (conf : LockConf) : Bool := conf.workersPerMachine == 1 || conf.disableLocking

def isOdd (x : UInt64) : Bool := x % 2 == 1

/-- The `VALUE_SIZE` bytes of a value, as `n` words of whatever width `memcpy` copies them in. -/
abbrev Value (n : Nat) (W : Type) := Fin n → W

variable {n : Nat} {W : Type}

/-- What the calls use of a `mica_op_t`. -/
structure Entry (n : Nat) (W : Type) where
  seqlock : UInt64
  value : Value n W

/-- A call, with the contents of its buffer. -/
inductive KvsCall (n : Nat) (W : Type)
  | kvsLocalRead (valueToRead : Value n W)
  | kvsWrite (valueToWrite : Value n W)

/-- Where a thread is. -/
inductive Point (n : Nat) (W : Type)
  /-- between two calls -/
  | idle
  /-- `lock_seqlock`, before the first load -/
  | lock (c : KvsCall n W)
  /-- `lock_seqlock`, about to load again or to exchange -/
  | exchange (c : KvsCall n W) (tmpLock : UInt64)
  /-- the `memcpy` of `KVS_write`, with the words copied so far -/
  | writing (valueToWrite : Value n W) (done : Finset (Fin n))
  /-- the loop of `read_seqlock_lock_free` -/
  | load (valueToRead : Value n W)
  /-- the `memcpy` of `KVS_local_read` -/
  | reading (tmpLock : UInt64) (valueToRead : Value n W) (done : Finset (Fin n))
  /-- the loop of `check_seqlock_lock_free` -/
  | reload (valueToRead : Value n W)
  /-- `unlock_seqlock`, about to store; with the buffer, if the call is a read -/
  | unlock (read : Option (Value n W)) (tmp : UInt64)

/-- What a step shows: a lock was taken, or a call returned. -/
inductive LockEvent (n : Nat) (W : Type)
  | silent
  | locked (c : KvsCall n W)
  | wrote
  | returned (v : Value n W)

/-! ## The calls, step by step -/

/-- What follows `lock_seqlock`. -/
def KvsCall.enter : KvsCall n W → Point n W
  | .kvsLocalRead buf => .reading 0 buf ∅
  | .kvsWrite v => .writing v ∅

/-- The beginning of a call, up to its first access. -/
def KvsCall.begin (conf : LockConf) : KvsCall n W → Point n W
  | .kvsWrite v => if conf.unlocked then .writing v ∅ else .lock (.kvsWrite v)
  | .kvsLocalRead buf =>
    if conf.disableLocking then .reading 0 buf ∅
    else if conf.enableLockFreeReading then .load buf
    else if conf.unlocked then .reading 0 buf ∅
    else .lock (.kvsLocalRead buf)

/-- `memcpy` copies word `i`. -/
def Point.copy (e : Entry n W) (i : Fin n) :
    Point n W → Outcome (Entry n W × Point n W)
  | .writing v done =>
    if i ∈ done then .error .disabled
    else .ok ({ e with value := Function.update e.value i (v i) }, .writing v (insert i done))
  | .reading tmpLock buf done =>
    if i ∈ done then .error .disabled
    else .ok (e, .reading tmpLock (Function.update buf i (e.value i)) (insert i done))
  | _ => .error .disabled

/-- The next access to the lock, at each point where there is one. -/
def Point.advance (conf : LockConf) (e : Entry n W) :
    Point n W → Outcome (Entry n W × Point n W × LockEvent n W)
  | .idle => .error .disabled
  | .lock c => .ok (e, .exchange c e.seqlock, .silent)
  | .exchange c tmpLock =>
    if isOdd tmpLock then .ok (e, .exchange c e.seqlock, .silent)
    else if e.seqlock = tmpLock then
      .ok ({ e with seqlock := tmpLock + 1 }, c.enter, .locked c)
    else .ok (e, .exchange c e.seqlock, .silent)
  | .writing _ done =>
    if done ≠ Finset.univ then .error .disabled
    else if conf.unlocked then .ok (e, .idle, .wrote)
    else .ok (e, .unlock none e.seqlock, .silent)
  | .load buf =>
    if isOdd e.seqlock then .ok (e, .load buf, .silent)
    else .ok (e, .reading e.seqlock buf ∅, .silent)
  | .reading tmpLock buf done =>
    if done ≠ Finset.univ then .error .disabled
    else if conf.disableLocking then .ok (e, .idle, .returned buf)
    else if conf.enableLockFreeReading then
      if tmpLock = e.seqlock then .ok (e, .idle, .returned buf)
      else if isOdd e.seqlock then .ok (e, .reload buf, .silent)
      else .ok (e, .reading e.seqlock buf ∅, .silent)
    else if conf.unlocked then .ok (e, .idle, .returned buf)
    else .ok (e, .unlock (some buf) e.seqlock, .silent)
  | .reload buf =>
    if isOdd e.seqlock then .ok (e, .reload buf, .silent)
    else .ok (e, .reading e.seqlock buf ∅, .silent)
  | .unlock read tmp =>
    .ok ({ e with seqlock := tmp + 1 }, .idle,
      match read with
      | some buf => .returned buf
      | none => .wrote)

/-! ## Threads -/

/-- One entry, and the threads that use it. -/
structure Threads (n : Nat) (W : Type) where
  entry : Entry n W
  point : Nat → Point n W

/-- What the scheduler can do. -/
inductive LockCmd (n : Nat) (W : Type)
  /-- thread `t` starts a call -/
  | call (t : Nat) (c : KvsCall n W)
  /-- thread `t` copies a word -/
  | copy (t : Nat) (i : Fin n)
  /-- thread `t` accesses the lock -/
  | advance (t : Nat)

/-- One step of one thread. -/
def threadStep (conf : LockConf) (s : Threads n W) :
    LockCmd n W → Outcome (Threads n W × LockEvent n W)
  | .call t c =>
    match s.point t with
    | .idle => .ok ({ s with point := Function.update s.point t (c.begin conf) }, .silent)
    | _ => .error .disabled
  | .copy t i => do
    let (e, p) ← (s.point t).copy s.entry i
    return (⟨e, Function.update s.point t p⟩, .silent)
  | .advance t => do
    let (e, p, ev) ← (s.point t).advance conf s.entry
    return (⟨e, Function.update s.point t p⟩, ev)

/-- No call has started. -/
def Threads.start (e : Entry n W) : Threads n W := ⟨e, fun _ => .idle⟩

/-! ## The history of a run -/

/-- What has happened, oldest first. -/
abbrev LockTrace (n : Nat) (W : Type) := List (LockCmd n W × LockEvent n W)

/-- The operation on the register that takes effect in a step: a write when its lock is taken, a
    read when it returns. -/
def LockEvent.op : LockEvent n W → Option (RegOp (Value n W))
  | .locked (.kvsWrite v) => some (.write v)
  | .returned v => some (.read v)
  | _ => none

def ops (tr : LockTrace n W) : List (RegOp (Value n W)) := tr.filterMap fun p => p.2.op

/-- The values of the `KVS_write`s, in lock order. -/
def lockOrder (tr : LockTrace n W) : List (Value n W) := written (ops tr)

/-- How often the step increments the counter. -/
def LockEvent.bump (conf : LockConf) : LockEvent n W → Nat
  | .silent => 0
  | .locked _ => 1
  | .wrote => 1
  | .returned _ => if conf.enableLockFreeReading then 0 else 1

def bumps (conf : LockConf) (tr : LockTrace n W) : Nat :=
  (tr.map fun p => p.2.bump conf).sum

theorem ops_concat (tr : LockTrace n W) (k : LockCmd n W) (ev : LockEvent n W) :
    ops (tr ++ [(k, ev)]) = ops tr ++ ev.op.toList := by
  unfold ops
  rw [List.filterMap_append]
  cases h : ev.op <;> simp [h]

theorem bumps_concat (conf : LockConf) (tr : LockTrace n W) (k : LockCmd n W)
    (ev : LockEvent n W) : bumps conf (tr ++ [(k, ev)]) = bumps conf tr + ev.bump conf := by
  simp [bumps]

/-! ## Parity -/

theorem isOdd_iff (x : UInt64) : isOdd x = true ↔ x.toNat % 2 = 1 := by
  unfold isOdd
  rw [beq_iff_eq, ← UInt64.toNat_inj, UInt64.toNat_mod]
  rfl

theorem toNat_succ {x : UInt64} (h : x.toNat + 1 < 2 ^ 64) : (x + 1).toNat = x.toNat + 1 := by
  rw [UInt64.toNat_add]
  exact Nat.mod_eq_of_lt h

theorem isOdd_succ {x : UInt64} (h : x.toNat + 1 < 2 ^ 64) : isOdd (x + 1) = !isOdd x := by
  have hx := isOdd_iff x
  have hs := isOdd_iff (x + 1)
  rw [toNat_succ h] at hs
  cases h1 : isOdd x <;> cases h2 : isOdd (x + 1) <;> simp_all <;> omega

/-! ## Who holds the lock -/

/-- The thread is between `lock_seqlock` and `unlock_seqlock`. -/
def Point.holds (conf : LockConf) : Point n W → Bool
  | .writing .. => true
  | .unlock .. => true
  | .reading .. => !conf.enableLockFreeReading
  | _ => false

/-- The holder of the lock, if there is one, is `h`, and no other thread holds it. -/
def Holder (conf : LockConf) (point : Nat → Point n W) (h : Option Nat) : Prop :=
  ∀ t, (point t).holds conf = true ↔ h = some t

namespace Holder

variable {conf : LockConf} {point : Nat → Point n W} {h : Option Nat} {t : Nat} {p : Point n W}

theorem keep (hh : Holder conf point h) (hp : p.holds conf = (point t).holds conf) :
    Holder conf (Function.update point t p) h := by
  intro t'
  by_cases ht : t' = t
  · subst ht
    rw [Function.update_self, hp]
    exact hh t'
  · rw [Function.update_of_ne ht]
    exact hh t'

theorem acquire (hh : Holder conf point none) (hp : p.holds conf = true) :
    Holder conf (Function.update point t p) (some t) := by
  intro t'
  by_cases ht : t' = t
  · subst ht
    rw [Function.update_self]
    exact iff_of_true hp rfl
  · rw [Function.update_of_ne ht]
    constructor
    · intro hl
      exact absurd ((hh t').mp hl) (by simp)
    · intro hl
      exact absurd (Option.some.inj hl).symm ht

theorem release (hh : Holder conf point (some t)) (hp : p.holds conf = false) :
    Holder conf (Function.update point t p) none := by
  intro t'
  by_cases ht : t' = t
  · subst ht
    rw [Function.update_self, hp]
    simp
  · rw [Function.update_of_ne ht]
    constructor
    · intro hl
      exact absurd (Option.some.inj ((hh t').mp hl)).symm ht
    · intro hl
      exact absurd hl (by simp)

/-- A thread that does not hold the lock is not its holder. -/
theorem other (hh : Holder conf point (some t)) {t' : Nat} (ht : t' ≠ t) :
    (point t').holds conf = false := by
  by_contra hl
  exact ht (Option.some.inj ((hh t').mp (by simpa using hl))).symm

theorem nobody (hh : Holder conf point none) (t' : Nat) : (point t').holds conf = false := by
  by_contra hl
  exact absurd ((hh t').mp (by simpa using hl)) (by simp)

end Holder

/-! ## The invariant -/

/-- A read takes the lock only in a build without lock-free reading. -/
def KvsCall.locks (conf : LockConf) : KvsCall n W → Bool
  | .kvsLocalRead _ => !conf.enableLockFreeReading
  | .kvsWrite _ => true

/-- What the point of a thread says about the entry, when `v` is the value of the latest write. -/
def Point.Fits (conf : LockConf) (e : Entry n W) (v : Value n W) : Point n W → Prop
  | .idle => True
  | .lock c => c.locks conf = true
  | .exchange c _ => c.locks conf = true
  | .writing w done => w = v ∧ ∀ i ∈ done, e.value i = v i
  | .unlock read tmp =>
    tmp = e.seqlock ∧ e.value = v ∧ ∀ buf ∈ read, buf = v ∧ conf.enableLockFreeReading = false
  | .load _ => conf.enableLockFreeReading = true
  | .reload _ => conf.enableLockFreeReading = true
  | .reading tmpLock buf done =>
    if conf.enableLockFreeReading then
      isOdd tmpLock = false ∧ tmpLock.toNat ≤ e.seqlock.toNat ∧
        (tmpLock = e.seqlock → ∀ i ∈ done, buf i = e.value i)
    else ∀ i ∈ done, buf i = e.value i

/-- The entry has moved on: the counter has grown, or it is the same and the value is the same
    unless a writer is at work. -/
def Entry.Later (e e' : Entry n W) : Prop :=
  e.seqlock.toNat < e'.seqlock.toNat ∨
    e'.seqlock = e.seqlock ∧ (isOdd e.seqlock = false → e'.value = e.value)

/-- What a thread without the lock knows survives what the others do. -/
theorem Point.Fits.later {conf : LockConf} {e e' : Entry n W} {v v' : Value n W} {p : Point n W}
    (hp : p.Fits conf e v) (hl : p.holds conf = false) (he : e.Later e') : p.Fits conf e' v' := by
  cases p with
  | writing => simp [Point.holds] at hl
  | unlock => simp [Point.holds] at hl
  | idle | lock | exchange | load | reload => exact hp
  | reading tmpLock buf done =>
    have hfree : conf.enableLockFreeReading = true := by simpa [Point.holds] using hl
    rw [Point.Fits, if_pos hfree] at hp ⊢
    obtain ⟨heven, hle, heq⟩ := hp
    rcases he with hlt | ⟨hseq, hval⟩
    · refine ⟨heven, by omega, ?_⟩
      intro h
      rw [h] at hle
      omega
    · refine ⟨heven, by rw [hseq]; exact hle, ?_⟩
      intro h
      rw [hseq] at h
      rw [hval (h ▸ heven)]
      exact heq h

/-- The invariant of the lock, with the value `v` of the latest write and the holder `h`. -/
structure Locking (conf : LockConf) (s : Threads n W) (v : Value n W) (h : Option Nat) : Prop where
  holder : Holder conf s.point h
  odd : isOdd s.entry.seqlock = h.isSome
  fits : ∀ t, (s.point t).Fits conf s.entry v
  /-- the value is complete, unless the holder is writing it -/
  settled : (∀ t w done, h = some t → s.point t ≠ .writing w done) → s.entry.value = v

namespace Locking

variable {conf : LockConf} {s : Threads n W} {v : Value n W} {h : Option Nat} {t : Nat}
  {p : Point n W}

theorem start (conf : LockConf) {e : Entry n W} (he : isOdd e.seqlock = false) :
    Locking conf (Threads.start e) e.value none where
  holder t := by simp [Threads.start, Point.holds]
  odd := he
  fits _ := trivial
  settled _ := rfl

theorem holds_iff (hs : Locking conf s v h) : (s.point t).holds conf = true ↔ h = some t :=
  hs.holder t

/-- A step that leaves the entry alone. -/
theorem quiet (hs : Locking conf s v h) (hl : p.holds conf = (s.point t).holds conf)
    (hp : p.Fits conf s.entry v)
    (hv : (∀ w done, s.point t ≠ .writing w done) ∨ s.entry.value = v) :
    Locking conf ⟨s.entry, Function.update s.point t p⟩ v h where
  holder := hs.holder.keep hl
  odd := hs.odd
  fits t' := by
    show (Function.update s.point t p t').Fits conf s.entry v
    by_cases ht : t' = t
    · subst ht
      rw [Function.update_self]
      exact hp
    · rw [Function.update_of_ne ht]
      exact hs.fits t'
  settled hw := by
    rcases hv with hv | hv
    · apply hs.settled
      intro t' w done ht'
      by_cases ht : t' = t
      · subst ht
        exact hv w done
      · have hw' : Function.update s.point t p t' ≠ .writing w done := hw t' w done ht'
        rwa [Function.update_of_ne ht] at hw'
    · exact hv

/-- A step that changes the entry, by a thread that has the lock before or after it. -/
theorem fits_of_later {e : Entry n W} {v' : Value n W} (hs : Locking conf s v h)
    (hh : h = none ∨ h = some t) (he : s.entry.Later e) (hp : p.Fits conf e v') (t' : Nat) :
    (Function.update s.point t p t').Fits conf e v' := by
  by_cases ht : t' = t
  · subst ht
    rw [Function.update_self]
    exact hp
  · rw [Function.update_of_ne ht]
    apply (hs.fits t').later _ he
    rcases hh with rfl | rfl
    · exact hs.holder.nobody t'
    · exact hs.holder.other ht

/-- The counter is even when nobody has the lock. -/
theorem free (hs : Locking conf s v h) (he : isOdd s.entry.seqlock = false) : h = none := by
  have hodd := hs.odd
  rw [he] at hodd
  cases h with
  | none => rfl
  | some t => simp at hodd

/-- **A lock is taken**, and its write takes effect. -/
theorem acquire (hs : Locking conf s v h) (he : isOdd s.entry.seqlock = false)
    (hfit : s.entry.seqlock.toNat + 1 < 2 ^ 64) {v' : Value n W}
    (hl : p.holds conf = true)
    (hp : p.Fits conf { s.entry with seqlock := s.entry.seqlock + 1 } v')
    (hv : (∃ w done, p = .writing w done) ∨ v' = v) :
    Locking conf ⟨{ s.entry with seqlock := s.entry.seqlock + 1 }, Function.update s.point t p⟩ v'
      (some t) := by
  have hnone := hs.free he
  subst hnone
  have hlater : s.entry.Later { s.entry with seqlock := s.entry.seqlock + 1 } := by
    left
    show s.entry.seqlock.toNat < (s.entry.seqlock + 1).toNat
    rw [toNat_succ hfit]
    omega
  refine ⟨hs.holder.acquire hl, ?_, hs.fits_of_later (.inl rfl) hlater hp, ?_⟩
  · show isOdd (s.entry.seqlock + 1) = true
    rw [isOdd_succ hfit, he]
    rfl
  · intro hw
    rcases hv with ⟨w, done, rfl⟩ | rfl
    · exact absurd (Function.update_self t _ _) (hw t w done rfl)
    · exact hs.settled (by intro t' w done h'; exact absurd h' (by simp))

/-- **A word is written**. -/
theorem store (hs : Locking conf s v h) {w : Value n W} {done : Finset (Fin n)}
    (hp : s.point t = .writing w done) (i : Fin n) :
    Locking conf ⟨{ s.entry with value := Function.update s.entry.value i (w i) },
      Function.update s.point t (.writing w (insert i done))⟩ v h := by
  have hh : h = some t := hs.holds_iff.mp (by rw [hp]; rfl)
  have hodd : isOdd s.entry.seqlock = true := by
    rw [hs.odd, hh]
    rfl
  have hlater : s.entry.Later { s.entry with value := Function.update s.entry.value i (w i) } :=
    .inr ⟨rfl, fun he => absurd (hodd.symm.trans he) (by decide)⟩
  have hfits := hs.fits t
  rw [hp] at hfits
  obtain ⟨rfl, hdone⟩ := hfits
  refine ⟨hs.holder.keep (by rw [hp]; rfl), hs.odd, hs.fits_of_later (.inr hh) hlater ⟨rfl, ?_⟩, ?_⟩
  · intro j hj
    show Function.update s.entry.value i (w i) j = w j
    by_cases hij : j = i
    · subst hij
      exact Function.update_self ..
    · rw [Function.update_of_ne hij]
      rcases Finset.mem_insert.mp hj with hj | hj
      · exact absurd hj hij
      · exact hdone j hj
  · intro hno
    exact absurd (Function.update_self t _ _) (hno t _ _ hh)

/-- **The lock is released**. -/
theorem release (hs : Locking conf s v h) {read : Option (Value n W)} {tmp : UInt64}
    (hp : s.point t = .unlock read tmp) (hfit : s.entry.seqlock.toNat + 1 < 2 ^ 64) :
    tmp = s.entry.seqlock ∧
      Locking conf ⟨{ s.entry with seqlock := tmp + 1 }, Function.update s.point t .idle⟩ v none := by
  have hh : h = some t := hs.holds_iff.mp (by rw [hp]; rfl)
  subst hh
  have hfits := hs.fits t
  rw [hp] at hfits
  obtain ⟨rfl, hval, -⟩ := hfits
  have hlater : s.entry.Later { s.entry with seqlock := s.entry.seqlock + 1 } := by
    left
    show s.entry.seqlock.toNat < (s.entry.seqlock + 1).toNat
    rw [toNat_succ hfit]
    omega
  refine ⟨rfl, hs.holder.release rfl, ?_, hs.fits_of_later (.inr rfl) hlater trivial,
    fun _ => hval⟩
  show isOdd (s.entry.seqlock + 1) = false
  rw [isOdd_succ hfit, hs.odd]
  rfl

end Locking

/-! ## What one step does -/

/-- A step from a state with the invariant. -/
structure LockStepped (conf : LockConf) (s : Threads n W) (v : Value n W) (s' : Threads n W)
    (ev : LockEvent n W) : Prop where
  locking : ∃ h, Locking conf s' (latest v ev.op.toList) h
  counter : s'.entry.seqlock.toNat = s.entry.seqlock.toNat + ev.bump conf
  /-- what a read returns is in the entry, and it is the value of the latest write -/
  returned : ∀ buf, ev = .returned buf → s.entry.value = buf ∧ buf = v

section Steps

variable {conf : LockConf} {s s' : Threads n W} {v : Value n W} {h : Option Nat} {t : Nat}
  {e : Entry n W} {p : Point n W} {ev : LockEvent n W}

/-- A step that shows nothing and leaves the entry alone. -/
theorem LockStepped.silent (hs : Locking conf s v h)
    (hl : p.holds conf = (s.point t).holds conf) (hp : p.Fits conf s.entry v)
    (hv : (∀ w done, s.point t ≠ .writing w done) ∨ s.entry.value = v) :
    LockStepped conf s v ⟨s.entry, Function.update s.point t p⟩ .silent :=
  ⟨⟨h, hs.quiet hl hp hv⟩, rfl, fun _ hev => by nomatch hev⟩

/-- A freshly loaded even counter, and nothing copied yet. -/
theorem fits_reading (hfree : conf.enableLockFreeReading = true)
    (he : isOdd e.seqlock = false) (buf : Value n W) :
    (Point.reading e.seqlock buf ∅).Fits conf e v := by
  rw [Point.Fits, if_pos hfree]
  exact ⟨he, Nat.le_refl _, by intro _ i hi; exact absurd hi (Finset.notMem_empty i)⟩

/-- `KVS_local_read` or `KVS_write` is called. -/
theorem Locking.call (hconf : conf.unlocked = false) (hs : Locking conf s v h)
    {c : KvsCall n W} (hstep : threadStep conf s (.call t c) = .ok (s', ev)) :
    LockStepped conf s v s' ev := by
  have hdis : conf.disableLocking = false := by
    unfold LockConf.unlocked at hconf
    exact (Bool.or_eq_false_iff.mp hconf).2
  rw [threadStep] at hstep
  cases hp : s.point t with
  | idle =>
    rw [hp] at hstep
    cases hstep
    have hbegin : (c.begin conf).holds conf = false ∧ (c.begin conf).Fits conf s.entry v := by
      cases c with
      | kvsWrite w =>
        rw [KvsCall.begin, if_neg (by simp [hconf])]
        exact ⟨rfl, rfl⟩
      | kvsLocalRead buf =>
        rw [KvsCall.begin, if_neg (by simp [hdis])]
        by_cases hfree : conf.enableLockFreeReading = true
        · rw [if_pos hfree]
          exact ⟨rfl, hfree⟩
        · rw [if_neg hfree, if_neg (by simp [hconf])]
          exact ⟨rfl, by simpa [Point.Fits, KvsCall.locks] using hfree⟩
    exact .silent hs (by rw [hp]; exact hbegin.1) hbegin.2 (.inl (by simp [hp]))
  | lock | exchange | writing | load | reading | reload | unlock =>
    rw [hp] at hstep
    nomatch hstep

/-- A word is copied. -/
theorem Locking.copy (hs : Locking conf s v h) {i : Fin n}
    (hstep : threadStep conf s (.copy t i) = .ok (s', ev)) : LockStepped conf s v s' ev := by
  obtain ⟨⟨e, p⟩, hcopy, hret⟩ := bind_eq_ok.mp hstep
  cases hret
  have hfits := hs.fits t
  cases hp : s.point t with
  | writing w done =>
    rw [hp, Point.copy] at hcopy
    split at hcopy
    · nomatch hcopy
    · cases hcopy
      exact ⟨⟨h, hs.store hp i⟩, rfl, fun _ hev => by nomatch hev⟩
  | reading tmpLock buf done =>
    rw [hp, Point.copy] at hcopy
    split at hcopy
    · nomatch hcopy
    · cases hcopy
      have hinsert : ∀ j ∈ insert i done, (∀ j ∈ done, buf j = s.entry.value j) →
          Function.update buf i (s.entry.value i) j = s.entry.value j := by
        intro j hj hdone
        by_cases hij : j = i
        · subst hij
          exact Function.update_self ..
        · rw [Function.update_of_ne hij]
          exact hdone j ((Finset.mem_insert.mp hj).resolve_left hij)
      refine .silent hs (by rw [hp]; rfl) ?_ (.inl (by simp [hp]))
      rw [hp] at hfits
      by_cases hfree : conf.enableLockFreeReading = true
      · rw [Point.Fits, if_pos hfree] at hfits ⊢
        obtain ⟨heven, hle, heq⟩ := hfits
        exact ⟨heven, hle, fun htmp j hj => hinsert j hj (heq htmp)⟩
      · rw [Point.Fits, if_neg hfree] at hfits ⊢
        exact fun j hj => hinsert j hj hfits
  | idle | lock | exchange | load | reload | unlock =>
    rw [hp] at hcopy
    nomatch hcopy

/-- The lock is accessed. -/
theorem Locking.advance (hconf : conf.unlocked = false) (hs : Locking conf s v h)
    (hstep : threadStep conf s (.advance t) = .ok (s', ev))
    (hfit : s.entry.seqlock.toNat + ev.bump conf < 2 ^ 64) : LockStepped conf s v s' ev := by
  have hdis : conf.disableLocking = false := by
    unfold LockConf.unlocked at hconf
    exact (Bool.or_eq_false_iff.mp hconf).2
  obtain ⟨⟨e, p, ev'⟩, hadv, hret⟩ := bind_eq_ok.mp hstep
  cases hret
  have hfits := hs.fits t
  cases hp : s.point t with
  | idle =>
    rw [hp] at hadv
    nomatch hadv
  | lock c =>
    rw [hp] at hadv hfits
    cases hadv
    exact .silent hs (by rw [hp]; rfl) hfits (.inl (by simp [hp]))
  | exchange c tmpLock =>
    rw [hp, Point.advance] at hadv
    rw [hp] at hfits
    split at hadv
    · cases hadv
      exact .silent hs (by rw [hp]; rfl) hfits (.inl (by simp [hp]))
    · rename_i heven
      split at hadv
      · -- the exchange succeeds
        rename_i heq
        cases hadv
        subst heq
        have heven' : isOdd s.entry.seqlock = false := by simpa using heven
        refine ⟨⟨some t, ?_⟩, toNat_succ hfit, fun _ hev => by nomatch hev⟩
        cases c with
        | kvsWrite w =>
          exact hs.acquire heven' hfit rfl ⟨rfl, fun i hi => absurd hi (Finset.notMem_empty i)⟩
            (.inl ⟨w, ∅, rfl⟩)
        | kvsLocalRead buf =>
          have hlock : conf.enableLockFreeReading = false := by
            simpa [Point.Fits, KvsCall.locks] using hfits
          refine hs.acquire heven' hfit (by simp [KvsCall.enter, Point.holds, hlock]) ?_ (.inr rfl)
          rw [KvsCall.enter, Point.Fits, if_neg (by simp [hlock])]
          exact fun i hi => absurd hi (Finset.notMem_empty i)
      · cases hadv
        exact .silent hs (by rw [hp]; rfl) hfits (.inl (by simp [hp]))
  | writing w done =>
    rw [hp, Point.advance] at hadv
    rw [hp] at hfits
    obtain ⟨rfl, hdone⟩ := hfits
    split at hadv
    · nomatch hadv
    · rename_i hall
      rw [if_neg (by simp [hconf])] at hadv
      cases hadv
      have hall' : done = Finset.univ := by simpa using hall
      subst hall'
      have hval : s.entry.value = w := funext fun i => hdone i (Finset.mem_univ i)
      refine .silent hs (by rw [hp]; rfl) ⟨rfl, hval, ?_⟩ (.inr hval)
      intro buf hbuf
      exact absurd hbuf (by simp)
  | load buf =>
    rw [hp, Point.advance] at hadv
    rw [hp] at hfits
    have hfree : conf.enableLockFreeReading = true := hfits
    split at hadv
    · cases hadv
      exact .silent hs (by rw [hp]) hfree (.inl (by simp [hp]))
    · rename_i heven
      cases hadv
      exact .silent hs (by rw [hp]; simp [Point.holds, hfree])
        (fits_reading hfree (by simpa using heven) buf) (.inl (by simp [hp]))
  | reload buf =>
    rw [hp, Point.advance] at hadv
    rw [hp] at hfits
    have hfree : conf.enableLockFreeReading = true := hfits
    split at hadv
    · cases hadv
      exact .silent hs (by rw [hp]) hfree (.inl (by simp [hp]))
    · rename_i heven
      cases hadv
      exact .silent hs (by rw [hp]; simp [Point.holds, hfree])
        (fits_reading hfree (by simpa using heven) buf) (.inl (by simp [hp]))
  | reading tmpLock buf done =>
    rw [hp, Point.advance] at hadv
    rw [hp] at hfits
    split at hadv
    · nomatch hadv
    · rename_i hall
      have hall' : done = Finset.univ := by simpa using hall
      subst hall'
      rw [if_neg (by simp [hdis])] at hadv
      by_cases hfree : conf.enableLockFreeReading = true
      · rw [if_pos hfree] at hadv
        rw [Point.Fits, if_pos hfree] at hfits
        obtain ⟨heven, -, hcopied⟩ := hfits
        split at hadv
        · -- the counter has not changed, and it is even: nobody has the lock now, so the value is
          -- complete, and the copy is the value
          rename_i heq
          cases hadv
          have hnone := hs.free (heq ▸ heven)
          subst hnone
          have hval : s.entry.value = v := by
            apply hs.settled
            intro t' w d h'
            exact absurd h' (by simp)
          have hbuf : buf = s.entry.value := funext fun i => hcopied heq i (Finset.mem_univ i)
          refine ⟨⟨none, hs.quiet (by rw [hp]; simp [Point.holds, hfree]) trivial
            (.inl (by simp [hp]))⟩, by simp [LockEvent.bump, hfree], ?_⟩
          intro buf' hev
          cases hev
          exact ⟨hbuf.symm, hbuf.trans hval⟩
        · split at hadv
          · cases hadv
            exact .silent hs (by rw [hp]; simp [Point.holds, hfree]) hfree (.inl (by simp [hp]))
          · rename_i heven'
            cases hadv
            exact .silent hs (by rw [hp]; simp [Point.holds, hfree])
              (fits_reading hfree (by simpa using heven') buf) (.inl (by simp [hp]))
      · -- the reader has the lock, so nobody is writing
        have hlock : conf.enableLockFreeReading = false := by simpa using hfree
        rw [if_neg hfree, if_neg (by simp [hconf])] at hadv
        rw [Point.Fits, if_neg hfree] at hfits
        cases hadv
        have hh : h = some t := hs.holds_iff.mp (by rw [hp]; simp [Point.holds, hlock])
        have hval : s.entry.value = v := by
          apply hs.settled
          intro t' w d h'
          rw [hh] at h'
          cases h'
          rw [hp]
          simp
        have hbuf : buf = s.entry.value := funext fun i => hfits i (Finset.mem_univ i)
        refine .silent hs (by rw [hp]; simp [Point.holds, hlock]) ⟨rfl, hval, ?_⟩ (.inr hval)
        intro buf' hbuf'
        cases hbuf'
        exact ⟨hbuf.trans hval, hlock⟩
  | unlock read tmp =>
    rw [hp] at hadv hfits
    cases hadv
    obtain ⟨htmp, hval, hread⟩ := hfits
    cases read with
    | none =>
      obtain ⟨rfl, hfree⟩ := hs.release hp hfit
      exact ⟨⟨none, hfree⟩, toNat_succ hfit, fun _ hev => by nomatch hev⟩
    | some buf =>
      obtain ⟨rfl, hlock⟩ := hread buf rfl
      have hbump : (LockEvent.returned buf : LockEvent n W).bump conf = 1 := by
        simp [LockEvent.bump, hlock]
      rw [hbump] at hfit
      obtain ⟨rfl, hfree⟩ := hs.release hp hfit
      refine ⟨⟨none, hfree⟩, (toNat_succ hfit).trans (by rw [hbump]), ?_⟩
      intro buf' hev
      cases hev
      exact ⟨hval, rfl⟩

/-- **One step**, of any thread. -/
theorem Locking.step (hconf : conf.unlocked = false) (hs : Locking conf s v h)
    {k : LockCmd n W} (hstep : threadStep conf s k = .ok (s', ev))
    (hfit : s.entry.seqlock.toNat + ev.bump conf < 2 ^ 64) : LockStepped conf s v s' ev := by
  cases k with
  | call t c => exact hs.call hconf hstep
  | copy t i => exact hs.copy hstep
  | advance t => exact hs.advance hconf hstep hfit

end Steps

/-! ## Runs -/

section Run

variable {conf : LockConf} {e : Entry n W} {tr : LockTrace n W} {s : Threads n W}

/-- **The invariant holds in every run** whose increments fit the counter. -/
theorem locking_run (hconf : conf.unlocked = false) (he : isOdd e.seqlock = false)
    (hrun : Run (threadStep conf) (Threads.start e) tr s)
    (hwrap : e.seqlock.toNat + bumps conf tr < 2 ^ 64) :
    (∃ h, Locking conf s (latest e.value (ops tr)) h) ∧
      s.entry.seqlock.toNat = e.seqlock.toNat + bumps conf tr ∧ Legal e.value (ops tr) := by
  refine hrun.invariant (fun tr s => e.seqlock.toNat + bumps conf tr < 2 ^ 64 →
    (∃ h, Locking conf s (latest e.value (ops tr)) h) ∧
      s.entry.seqlock.toNat = e.seqlock.toNat + bumps conf tr ∧ Legal e.value (ops tr))
    (fun _ => ⟨⟨none, Locking.start conf he⟩, rfl, trivial⟩) ?_ hwrap
  intro tr s k s' ev _ ih hstep hwrap
  rw [bumps_concat] at hwrap
  obtain ⟨⟨h, hs⟩, hcount, hlegal⟩ := ih (by omega)
  obtain ⟨hs', hcount', hret⟩ := hs.step hconf hstep (by rw [hcount]; omega)
  rw [ops_concat, latest_append, bumps_concat]
  refine ⟨hs', by rw [hcount', hcount, Nat.add_assoc], ?_⟩
  cases ev with
  | silent => simpa [LockEvent.op] using hlegal
  | wrote => simpa [LockEvent.op] using hlegal
  | returned buf => exact hlegal.read (hret buf rfl).2
  | locked c =>
    cases c with
    | kvsWrite w => exact hlegal.write w
    | kvsLocalRead buf => simpa [LockEvent.op] using hlegal

/-- **The calls are linearizable**: taking effect when they take the lock, or when they return, the
    writes and the reads are a history of an atomic register. -/
theorem linearizable (hconf : conf.unlocked = false) (he : isOdd e.seqlock = false)
    (hrun : Run (threadStep conf) (Threads.start e) tr s)
    (hwrap : e.seqlock.toNat + bumps conf tr < 2 ^ 64) : Legal e.value (ops tr) :=
  (locking_run hconf he hrun hwrap).2.2

end Run

/-! ## From the call to the return of a read -/

/-- The thread is inside `KVS_local_read`. -/
def Point.inRead : Point n W → Bool
  | .lock (.kvsLocalRead _) => true
  | .exchange (.kvsLocalRead _) _ => true
  | .load _ => true
  | .reading .. => true
  | .reload _ => true
  | .unlock (some _) _ => true
  | _ => false

/-- A read of thread `t` has started, and thread `t` has called nothing since. -/
def Started (t : Nat) (tr : LockTrace n W) : Prop :=
  ∃ before buf ev during, tr = before ++ (.call t (.kvsLocalRead buf), ev) :: during ∧
    ∀ p ∈ during, ∀ c, p.1 ≠ .call t c

theorem Started.concat {t : Nat} {tr : LockTrace n W} (h : Started t tr) {k : LockCmd n W}
    (hk : ∀ c, k ≠ .call t c) (ev : LockEvent n W) : Started t (tr ++ [(k, ev)]) := by
  obtain ⟨before, buf, ev₀, during, rfl, hduring⟩ := h
  refine ⟨before, buf, ev₀, during ++ [(k, ev)], by simp, ?_⟩
  intro p hp
  rcases List.mem_append.mp hp with hp | hp
  · exact hduring p hp
  · rw [List.mem_singleton.mp hp]
    exact hk

/-- A thread stays in its read, and only a read returns a value. -/
theorem Point.advance_inRead {conf : LockConf} {e e' : Entry n W} {p p' : Point n W}
    {ev : LockEvent n W} (h : p.advance conf e = .ok (e', p', ev)) :
    (p'.inRead = true → p.inRead = true) ∧ (∀ buf, ev = .returned buf → p.inRead = true) := by
  cases p with
  | idle => nomatch h
  | lock c =>
    cases h
    refine ⟨?_, fun _ hev => by nomatch hev⟩
    cases c <;> exact id
  | exchange c tmpLock =>
    rw [Point.advance] at h
    split at h
    · cases h
      exact ⟨by cases c <;> exact id, fun _ hev => by nomatch hev⟩
    · split at h
      · cases h
        exact ⟨by cases c <;> exact id, fun _ hev => by nomatch hev⟩
      · cases h
        exact ⟨by cases c <;> exact id, fun _ hev => by nomatch hev⟩
  | writing w done =>
    rw [Point.advance] at h
    split at h
    · nomatch h
    · split at h
      · cases h
        exact ⟨id, fun _ hev => by nomatch hev⟩
      · cases h
        exact ⟨id, fun _ hev => by nomatch hev⟩
  | load | reading | reload => exact ⟨fun _ => rfl, fun _ _ => rfl⟩
  | unlock read tmp =>
    cases h
    cases read with
    | none => exact ⟨fun hp => absurd hp (by simp [Point.inRead]), fun _ hev => by nomatch hev⟩
    | some buf => exact ⟨fun _ => rfl, fun _ _ => rfl⟩

theorem Point.copy_inRead {e e' : Entry n W} {p p' : Point n W} {i : Fin n}
    (h : p.copy e i = .ok (e', p')) : p'.inRead = p.inRead := by
  cases p with
  | writing w done =>
    rw [Point.copy] at h
    split at h
    · nomatch h
    · cases h
      rfl
  | reading tmpLock buf done =>
    rw [Point.copy] at h
    split at h
    · nomatch h
    · cases h
      rfl
  | idle | lock | exchange | load | reload | unlock => nomatch h

/-- A thread in a read has started it. -/
theorem started_run {conf : LockConf} {e : Entry n W} {tr : LockTrace n W} {s : Threads n W}
    (hrun : Run (threadStep conf) (Threads.start e) tr s) {t : Nat}
    (ht : (s.point t).inRead = true) : Started t tr := by
  refine hrun.invariant (fun tr s => ∀ t, (s.point t).inRead = true → Started t tr)
    (fun t ht => absurd ht (by simp [Threads.start, Point.inRead])) ?_ t ht
  intro tr s k s' ev _ ih hstep t ht
  cases k with
  | call t' c =>
    rw [threadStep] at hstep
    cases hp : s.point t' with
    | idle =>
      rw [hp] at hstep
      cases hstep
      by_cases htt : t = t'
      · subst htt
        cases c with
        | kvsLocalRead buf => exact ⟨tr, buf, _, [], rfl, fun p hp => by nomatch hp⟩
        | kvsWrite w =>
          have ht' : (Function.update s.point t ((KvsCall.kvsWrite w).begin conf) t).inRead = true :=
            ht
          rw [Function.update_self, KvsCall.begin] at ht'
          split at ht' <;> exact absurd ht' (by simp [Point.inRead])
      · have ht' : (Function.update s.point t' (c.begin conf) t).inRead = true := ht
        rw [Function.update_of_ne htt] at ht'
        exact (ih t ht').concat (by rintro c' h; cases h; exact htt rfl) _
    | lock | exchange | writing | load | reading | reload | unlock =>
      rw [hp] at hstep
      nomatch hstep
  | copy t' i =>
    obtain ⟨⟨e', p⟩, hcopy, hret⟩ := bind_eq_ok.mp hstep
    cases hret
    refine (ih t ?_).concat (fun c h => by nomatch h) _
    have ht' : (Function.update s.point t' p t).inRead = true := ht
    by_cases htt : t = t'
    · subst htt
      rw [Function.update_self] at ht'
      rw [← Point.copy_inRead hcopy]
      exact ht'
    · rwa [Function.update_of_ne htt] at ht'
  | advance t' =>
    obtain ⟨⟨e', p, ev'⟩, hadv, hret⟩ := bind_eq_ok.mp hstep
    cases hret
    refine (ih t ?_).concat (fun c h => by nomatch h) _
    have ht' : (Function.update s.point t' p t).inRead = true := ht
    by_cases htt : t = t'
    · subst htt
      rw [Function.update_self] at ht'
      exact (Point.advance_inRead hadv).1 ht'
    · rwa [Function.update_of_ne htt] at ht'

/-! ## What readers see -/

/-- **Readers see whole values.**  At most one thread is between `lock_seqlock` and
    `unlock_seqlock`, and every value a `KVS_local_read` returns is in the entry at a moment
    between its call and its return, the last access it makes, and is the value after the writes
    that have taken the lock by then. -/
theorem kvsLocalRead_whole {conf : LockConf} (hworkers : 1 < conf.workersPerMachine)
    (hlocking : conf.disableLocking = false) {e : Entry n W} (he : isOdd e.seqlock = false)
    {tr : LockTrace n W} {s : Threads n W}
    (hrun : Run (threadStep conf) (Threads.start e) tr s)
    (hwrap : e.seqlock.toNat + bumps conf tr < 2 ^ 64) :
    (∀ t t', (s.point t).holds conf = true → (s.point t').holds conf = true → t = t') ∧
    ∀ past t buf rest, tr = past ++ (.advance t, .returned buf) :: rest →
      ∃ before buf₀ ev during s₁,
        past = before ++ (.call t (.kvsLocalRead buf₀), ev) :: during ∧
        (∀ p ∈ during, ∀ c, p.1 ≠ .call t c) ∧
        Run (threadStep conf) (Threads.start e) past s₁ ∧ s₁.entry.value = buf ∧
        lockOrder past <+: lockOrder tr ∧ buf = (lockOrder past).getLastD e.value := by
  have hconf : conf.unlocked = false := by
    unfold LockConf.unlocked
    rw [hlocking, Bool.or_false, beq_eq_false_iff_ne]
    omega
  constructor
  · obtain ⟨⟨h, hs⟩, -, -⟩ := locking_run hconf he hrun hwrap
    intro t t' ht ht'
    exact Option.some.inj ((hs.holds_iff.mp ht).symm.trans (hs.holds_iff.mp ht'))
  · rintro past t buf rest rfl
    have hbumps : bumps conf (past ++ (.advance t, .returned buf) :: rest) = bumps conf past +
        (LockEvent.bump conf (.returned buf : LockEvent n W) + bumps conf rest) := by
      simp [bumps]
    rw [hbumps] at hwrap
    obtain ⟨s₁, s₂, hrun₁, hstep⟩ := hrun.split_step
    obtain ⟨⟨h, hs⟩, hcount, -⟩ := locking_run hconf he hrun₁ (by omega)
    obtain ⟨-, -, hret⟩ := hs.step hconf hstep (by rw [hcount]; omega)
    obtain ⟨hval, hbuf⟩ := hret buf rfl
    obtain ⟨before, buf₀, ev, during, hpast, hduring⟩ : Started t past := by
      apply started_run hrun₁
      obtain ⟨⟨e', p, ev'⟩, hadv, hend⟩ := bind_eq_ok.mp hstep
      cases hend
      exact (Point.advance_inRead hadv).2 buf rfl
    refine ⟨before, buf₀, ev, during, s₁, hpast, hduring, hrun₁, hval, ?_, ?_⟩
    · unfold lockOrder written ops
      rw [List.filterMap_append, List.filterMap_append]
      exact List.prefix_append ..
    · rw [hbuf, latest_eq_getLastD]
      rfl

/-- A write that takes the lock while a read copies: the first copy, a mix of the two values, is
    refused, and the second one is returned. -/
theorem kvsLocalRead_whole_race : ∃ (tr : LockTrace 2 Nat) (s : Threads 2 Nat),
    (∃ buf, tr = tr.dropLast ++ [(.advance 1, .returned buf)]) ∧ lockOrder tr = [fun _ => 7] ∧
    (∀ t t', (s.point t).holds ⟨8, false, true⟩ = true →
      (s.point t').holds ⟨8, false, true⟩ = true → t = t') ∧
    ∀ past t buf rest, tr = past ++ (.advance t, .returned buf) :: rest →
      ∃ before buf₀ ev during s₁,
        past = before ++ (.call t (.kvsLocalRead buf₀), ev) :: during ∧
        (∀ p ∈ during, ∀ c, p.1 ≠ .call t c) ∧
        Run (threadStep ⟨8, false, true⟩) (Threads.start ⟨0, fun _ => 0⟩) past s₁ ∧
        s₁.entry.value = buf ∧ lockOrder past <+: lockOrder tr ∧
        buf = (lockOrder past).getLastD fun _ => 0 := by
  obtain ⟨tr, s, hexec, hlast, horder, hbumps⟩ : ∃ tr s, exec (threadStep ⟨8, false, true⟩)
      (Threads.start ⟨0, fun _ => 0⟩ : Threads 2 Nat)
      [.call 1 (.kvsLocalRead fun _ => 0), .advance 1, .copy 1 0,
       .call 0 (.kvsWrite fun _ => 7), .advance 0, .advance 0, .copy 0 0, .copy 0 1,
       .copy 1 1, .advance 1, .advance 0, .advance 0,
       .advance 1, .copy 1 0, .copy 1 1, .advance 1] = .ok (tr, s) ∧
      (∃ buf, tr = tr.dropLast ++ [(.advance 1, .returned buf)]) ∧
      lockOrder tr = [fun _ => 7] ∧ bumps ⟨8, false, true⟩ tr = 2 :=
    ⟨_, _, rfl, ⟨_, rfl⟩, rfl, rfl⟩
  refine ⟨tr, s, hlast, horder, kvsLocalRead_whole (by decide) rfl rfl (run_of_exec hexec) ?_⟩
  rw [hbumps]
  decide

end Odyssey
