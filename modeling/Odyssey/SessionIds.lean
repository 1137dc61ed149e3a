/-
  GLOBAL SESSION IDS.

  A session has a number on its worker, the worker on its machine, and the machine in the cluster.
  `get_glob_sess_id` writes the three as digits of one number, to the bases `MACHINE_NUM`,
  `WORKERS_PER_MACHINE` and `SESSIONS_PER_THREAD`, and three functions read the digits back.

  The number is cast to a `uint16_t` before it is returned as a `uint32_t`.  So the digits of a
  session are read back if and only if its number is below `2 ^ 16`, and the ids identify the
  sessions of a cluster, and its machines and workers, if and only if `GLOBAL_SESSION_NUM` is at
  most `2 ^ 16` (`glob_ses_ids`).
-/
import Odyssey.Lib.Outcome

namespace Odyssey

open Lib

/-- The configuration, as `od_generic_static_assert_compile_parameters` lets it pass.  Its loop
    over the workers counts in a `uint16_t`, and `MACHINE_NUM` is a `uint8_t` everywhere. -/
structure SessConf where
  machineNum : Nat
  workersPerMachine : Nat
  sessionsPerThread : Nat
  machines_lt : machineNum < 2 ^ 8
  workers_lt : workersPerMachine < 2 ^ 16
  sessions_pos : 0 < sessionsPerThread
  sessions_lt : sessionsPerThread < 2 ^ 16

namespace SessConf

variable (conf : SessConf)

/-- `SESSIONS_PER_MACHINE` -/
def sessionsPerMachine : Nat := conf.workersPerMachine * conf.sessionsPerThread

/-- `GLOBAL_SESSION_NUM` -/
def globalSessionNum : Nat := conf.machineNum * conf.sessionsPerMachine

/-- The number that `get_glob_sess_id` computes, before the cast. -/
def sessNumber (mId tId sessId : Nat) : Nat :=
  mId * conf.sessionsPerMachine + tId * conf.sessionsPerThread + sessId

/-- `get_glob_sess_id` -/
def getGlobSessId (mId tId sessId : Nat) : Nat := u16 (conf.sessNumber mId tId sessId)

/-- `glob_ses_id_to_m_id` -/
def globSesIdToMId (globSessId : Nat) : Nat := u8 (globSessId / conf.sessionsPerMachine)

/-- `glob_ses_id_to_t_id` -/
def globSesIdToTId (globSessId : Nat) : Nat :=
  u16 (globSessId % conf.sessionsPerMachine / conf.sessionsPerThread)

/-- `glob_ses_id_to_sess_id` -/
def globSesIdToSessId (globSessId : Nat) : Nat :=
  u16 (globSessId % conf.sessionsPerMachine % conf.sessionsPerThread)

/-- `is_global_ses_id_local`, on machine `machineId`. -/
def isGlobalSesIdLocal (machineId globSessId tId : Nat) : Bool :=
  conf.globSesIdToTId globSessId == tId && conf.globSesIdToMId globSessId == machineId

/-- A session of the cluster. -/
@[ext] structure Session where
  mId : Nat
  tId : Nat
  sessId : Nat
  mId_lt : mId < conf.machineNum
  tId_lt : tId < conf.workersPerMachine
  sessId_lt : sessId < conf.sessionsPerThread

variable {conf}

namespace Session

def number (s : conf.Session) : Nat := conf.sessNumber s.mId s.tId s.sessId

def globId (s : conf.Session) : Nat := conf.getGlobSessId s.mId s.tId s.sessId

/-- The three digits are read back. -/
structure Reads (s : conf.Session) : Prop where
  mId : conf.globSesIdToMId s.globId = s.mId
  tId : conf.globSesIdToTId s.globId = s.tId
  sessId : conf.globSesIdToSessId s.globId = s.sessId

/-! ## Digits -/

theorem sessionsPerMachine_pos (s : conf.Session) : 0 < conf.sessionsPerMachine :=
  Nat.mul_pos (Nat.lt_of_le_of_lt (Nat.zero_le _) s.tId_lt) conf.sessions_pos

variable (s : conf.Session)

/-- The two lower digits are a number on the machine. -/
theorem lower_lt : s.sessId + conf.sessionsPerThread * s.tId < conf.sessionsPerMachine := by
  have hworkers : (s.tId + 1) * conf.sessionsPerThread ≤ conf.sessionsPerMachine :=
    Nat.mul_le_mul_right _ s.tId_lt
  have hsess := s.sessId_lt
  rw [Nat.add_mul, Nat.one_mul, Nat.mul_comm s.tId] at hworkers
  omega

/-- **A number has the digits of one session.** -/
theorem digits_iff (x : Nat) :
    (x / conf.sessionsPerMachine = s.mId ∧
      x % conf.sessionsPerMachine / conf.sessionsPerThread = s.tId ∧
      x % conf.sessionsPerMachine % conf.sessionsPerThread = s.sessId) ↔ x = s.number := by
  have hupper := Nat.div_mod_unique (a := x) (d := s.mId)
    (c := s.sessId + conf.sessionsPerThread * s.tId) s.sessionsPerMachine_pos
  have hlower := Nat.div_mod_unique (a := x % conf.sessionsPerMachine) (d := s.tId)
    (c := s.sessId) conf.sessions_pos
  have hnumber : s.number =
      s.sessId + conf.sessionsPerThread * s.tId + conf.sessionsPerMachine * s.mId := by
    rw [number, sessNumber, Nat.mul_comm s.mId, Nat.mul_comm s.tId]
    omega
  rw [hnumber]
  constructor
  · rintro ⟨hm, ht, hs⟩
    obtain ⟨hlow, -⟩ := hlower.mp ⟨ht, hs⟩
    exact (hupper.mp ⟨hm, hlow.symm⟩).1.symm
  · intro hx
    obtain ⟨hm, hlow⟩ := hupper.mpr ⟨hx.symm, s.lower_lt⟩
    obtain ⟨ht, hs⟩ := hlower.mpr ⟨hlow.symm, s.sessId_lt⟩
    exact ⟨hm, ht, hs⟩

theorem number_lt : s.number < conf.globalSessionNum := by
  have hmach : (s.mId + 1) * conf.sessionsPerMachine ≤ conf.globalSessionNum :=
    Nat.mul_le_mul_right _ s.mId_lt
  have hlow := s.lower_lt
  rw [Nat.add_mul, Nat.one_mul] at hmach
  rw [number, sessNumber, Nat.mul_comm s.tId]
  omega

/-- Every number below `GLOBAL_SESSION_NUM` is a session's. -/
theorem exists_number {x : Nat} (hx : x < conf.globalSessionNum) :
    ∃ s : conf.Session, s.number = x := by
  have hpos : 0 < conf.sessionsPerMachine := by
    by_contra hzero
    rw [Nat.not_lt, Nat.le_zero] at hzero
    rw [globalSessionNum, hzero, Nat.mul_zero] at hx
    exact Nat.not_lt_zero _ hx
  have hmod : x % conf.sessionsPerMachine < conf.workersPerMachine * conf.sessionsPerThread :=
    Nat.mod_lt _ hpos
  let s : conf.Session := {
    mId := x / conf.sessionsPerMachine
    tId := x % conf.sessionsPerMachine / conf.sessionsPerThread
    sessId := x % conf.sessionsPerMachine % conf.sessionsPerThread
    mId_lt := (Nat.div_lt_iff_lt_mul hpos).mpr hx
    tId_lt := (Nat.div_lt_iff_lt_mul conf.sessions_pos).mpr hmod
    sessId_lt := Nat.mod_lt _ conf.sessions_pos }
  exact ⟨s, ((s.digits_iff x).mp ⟨rfl, rfl, rfl⟩).symm⟩

/-! ## What is read back -/

/-- The casts of the three readers lose nothing, but for the machine id of a number that is
    too large. -/
theorem reads_iff :
    s.Reads ↔ u8 (s.globId / conf.sessionsPerMachine) = s.mId ∧
      s.globId % conf.sessionsPerMachine / conf.sessionsPerThread = s.tId ∧
      s.globId % conf.sessionsPerMachine % conf.sessionsPerThread = s.sessId := by
  have hid : s.globId < 2 ^ 16 := Nat.mod_lt _ (by decide)
  have hmod : s.globId % conf.sessionsPerMachine ≤ s.globId := Nat.mod_le ..
  have hdiv := Nat.div_le_self (s.globId % conf.sessionsPerMachine) conf.sessionsPerThread
  have hrest := Nat.mod_le (s.globId % conf.sessionsPerMachine) conf.sessionsPerThread
  have ht := u16_of_lt (Nat.lt_of_le_of_lt (Nat.le_trans hdiv hmod) hid)
  have hs := u16_of_lt (Nat.lt_of_le_of_lt (Nat.le_trans hrest hmod) hid)
  constructor
  · rintro ⟨hm', ht', hs'⟩
    exact ⟨hm', ht.symm.trans ht', hs.symm.trans hs'⟩
  · rintro ⟨hm', ht', hs'⟩
    exact ⟨hm', ht.trans ht', hs.trans hs'⟩

/-- **A session is read back if and only if the cast keeps its number.** -/
theorem reads_iff_lt : s.Reads ↔ s.number < 2 ^ 16 := by
  rw [reads_iff]
  constructor
  · rintro ⟨hm, ht, hs⟩
    by_contra hge
    have hlt : s.globId < s.number := by
      have hid : s.globId < 2 ^ 16 := Nat.mod_lt _ (by decide)
      omega
    -- the digits that are read, with the machine id before its cast, are those of a number
    -- no smaller
    have hmle : s.mId ≤ s.globId / conf.sessionsPerMachine := by
      rw [← hm]
      exact Nat.mod_le ..
    have hdiv := Nat.div_add_mod s.globId conf.sessionsPerMachine
    have hlow := Nat.div_add_mod (s.globId % conf.sessionsPerMachine) conf.sessionsPerThread
    rw [ht, hs] at hlow
    have hup := Nat.mul_le_mul_left conf.sessionsPerMachine hmle
    have hnumber : s.number =
        conf.sessionsPerMachine * s.mId + (conf.sessionsPerThread * s.tId + s.sessId) := by
      rw [number, sessNumber, Nat.mul_comm s.mId, Nat.mul_comm s.tId, Nat.add_assoc]
    omega
  · intro hlt
    have hid : s.globId = s.number := u16_of_lt hlt
    obtain ⟨hm, ht, hs⟩ := (s.digits_iff s.globId).mpr hid
    have hmach := Nat.lt_trans s.mId_lt conf.machines_lt
    exact ⟨by rw [hm, u8_of_lt hmach], ht, hs⟩

/-- The local sessions of a worker are those of its machine with its number. -/
theorem isLocal_iff {s : conf.Session} (h : s.Reads) (machineId tId : Nat) :
    conf.isGlobalSesIdLocal machineId s.globId tId = true ↔ s.mId = machineId ∧ s.tId = tId := by
  unfold isGlobalSesIdLocal
  rw [h.mId, h.tId, Bool.and_eq_true, beq_iff_eq, beq_iff_eq]
  exact And.comm

end Session

/-! ## The cluster -/

/-- The first number that the cast changes is that of a session, and comes out as the id of the
    first session of all. -/
theorem exists_overflow (hbig : 2 ^ 16 < conf.globalSessionNum) :
    ∃ s s' : conf.Session, s.number = 2 ^ 16 ∧ s'.number = 0 ∧ s.globId = s'.globId := by
  obtain ⟨s, hs⟩ := Session.exists_number hbig
  obtain ⟨s', hs'⟩ := Session.exists_number (Nat.lt_trans (by decide) hbig : 0 < _)
  refine ⟨s, s', hs, hs', ?_⟩
  show u16 s.number = u16 s'.number
  rw [hs, hs']
  decide

/-- **Global session ids**: a session is read back from its id if and only if its number is below
    `2 ^ 16`; and all are, the ids are unique in the cluster, and each worker takes exactly its own
    ids for local, if and only if `GLOBAL_SESSION_NUM` is at most `2 ^ 16`. -/
theorem glob_ses_ids (conf : SessConf) :
    (∀ s : conf.Session, s.Reads ↔ s.number < 2 ^ 16) ∧
    ((∀ s : conf.Session, s.Reads) ↔ conf.globalSessionNum ≤ 2 ^ 16) ∧
    (Function.Injective (Session.globId : conf.Session → Nat) ↔
      conf.globalSessionNum ≤ 2 ^ 16) ∧
    ((∀ machineId, machineId < conf.machineNum → ∀ tId, tId < conf.workersPerMachine →
      ∀ s : conf.Session, conf.isGlobalSesIdLocal machineId s.globId tId = true ↔
        s.mId = machineId ∧ s.tId = tId) ↔ conf.globalSessionNum ≤ 2 ^ 16) := by
  have hreads : conf.globalSessionNum ≤ 2 ^ 16 → ∀ s : conf.Session, s.Reads := by
    intro hsmall s
    exact s.reads_iff_lt.mpr (Nat.lt_of_lt_of_le s.number_lt hsmall)
  refine ⟨fun s => s.reads_iff_lt, ⟨fun h => ?_, hreads⟩, ⟨fun h => ?_, fun hsmall => ?_⟩,
    ⟨fun h => ?_, fun hsmall machineId _ tId _ s => ?_⟩⟩
  · by_contra hbig
    obtain ⟨s, -, hs, -⟩ := exists_overflow (Nat.not_le.mp hbig)
    have hlt := s.reads_iff_lt.mp (h s)
    omega
  · by_contra hbig
    obtain ⟨s, s', hs, hs', hid⟩ := exists_overflow (Nat.not_le.mp hbig)
    rw [h hid] at hs
    omega
  · intro s s' hid
    obtain ⟨hm, ht, hsess⟩ := hreads hsmall s
    obtain ⟨hm', ht', hsess'⟩ := hreads hsmall s'
    rw [hid] at hm ht hsess
    exact Session.ext (hm.symm.trans hm') (ht.symm.trans ht') (hsess.symm.trans hsess')
  · by_contra hbig
    obtain ⟨s, s', hs, hs', hid⟩ := exists_overflow (Nat.not_le.mp hbig)
    -- the first worker takes the session for its own
    have hfirst : s'.mId = 0 ∧ s'.tId = 0 := by
      have hzero := hs'
      rw [Session.number, sessNumber] at hzero
      have hpos := s'.sessionsPerMachine_pos
      have hpos' := conf.sessions_pos
      obtain ⟨hlow, -⟩ := Nat.add_eq_zero_iff.mp hzero
      obtain ⟨hm, ht⟩ := Nat.add_eq_zero_iff.mp hlow
      rw [Nat.mul_eq_zero] at hm ht
      omega
    have hlocal := (h 0 (by rw [← hfirst.1]; exact s'.mId_lt) 0
      (by rw [← hfirst.2]; exact s'.tId_lt) s').mpr hfirst
    rw [← hid] at hlocal
    obtain ⟨hm, ht⟩ := (h 0 (by rw [← hfirst.1]; exact s'.mId_lt) 0
      (by rw [← hfirst.2]; exact s'.tId_lt) s).mp hlocal
    rw [Session.number, sessNumber, hm, ht] at hs
    have hlt := s.sessId_lt
    have hmax := conf.sessions_lt
    omega
  · exact Session.isLocal_iff (hreads hsmall s) machineId tId

/-- Two machines, of eight workers with 8192 sessions each. -/
def twoBig : SessConf := ⟨2, 8, 8192, by decide, by decide, by decide, by decide⟩

/-- The first session of the second machine has the id of the first session of the first. -/
theorem glob_ses_ids_collide :
    ∃ s s' : twoBig.Session, s.mId = 1 ∧ s'.mId = 0 ∧ s.globId = s'.globId ∧
      twoBig.globSesIdToMId s.globId = 0 ∧ twoBig.isGlobalSesIdLocal 0 s.globId 0 = true := by
  refine ⟨⟨1, 0, 0, by decide, by decide, by decide⟩, ⟨0, 0, 0, by decide, by decide, by decide⟩,
    rfl, rfl, ?_, ?_, ?_⟩
  · decide
  · decide
  · decide

end SessConf

end Odyssey
