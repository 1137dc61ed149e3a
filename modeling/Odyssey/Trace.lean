/-
  THE TRACES that the benchmark of `od_client.c` is driven by, and `od_trace.c` makes.

  A trace is an array of requests, an opcode and the hash of a key each, with a `NOP` behind the
  last.  It is manufactured, or parsed from a file with a key in every line.  In either case the
  opcode is drawn (`compute_opcode`), and so is the key of a manufactured one, in a way that depends
  on what kind of conflicts are wanted.

  * whatever is drawn, the trace has the entries and the end that it should have, its counters count
    every entry once, and all opcodes are those of the interface (`trace_wellFormed`), unless the
    build asks for read-modify-writes and says of none which: then their opcode is that of the end;
  * a file that is written with one key to a line reads as these keys (`parseTrace_keys`).

  `rand` and `rand_r` are streams of numbers, about which nothing is assumed.  The numbers of
  entries and the counters are plain numbers: in the source they are `uint32_t`s (and an `int`
  counts the lines), so a trace has fewer than `2^31` entries.  A line is its text, up to the first
  NUL if there is one.
-/
import Odyssey.ClientRing
import Odyssey.Lib.Decimal

namespace Odyssey

open Lib

/-! ## Data -/

/-- The macros a trace depends on; the ratios are out of a thousand. -/
structure TraceConf where
  /-- `ENABLE_RMWS` -/
  enableRmws : Bool
  enableReleases : Bool
  enableAcquires : Bool
  allRmwsSingleKey : Bool
  enableAllConflictRmw : Bool
  rmwOneKeyPerThread : Bool
  enableNoConflictRmw : Bool
  useASingleKey : Bool
  traceOnlyCas : Bool
  traceOnlyFa : Bool
  traceMixedRmws : Bool
  useWeakCas : Bool
  rmwRatio : Nat
  scRatio : Nat
  traceCasRatio : Nat
  /-- the variable `write_ratio` -/
  writeRatio : Nat
  /-- `TRACE_SIZE` -/
  traceSize : Nat
  /-- `KVS_NUM_KEYS` -/
  kvsNumKeys : Nat
  workersPerMachine : Nat
  sessionsPerThread : Nat
  /-- the second half of the `CityHash128` of a key id -/
  cityHash : Nat → Nat

/-- `NOP` -/
def nop : Nat := 0

/-- `trace_t`; the hash is what a key is compared with -/
structure TraceEntry where
  opcode : Nat
  keyHash : MicaKey
  /-- the key it is the hash of; `parse_trace` does not store it -/
  keyId : Nat
  deriving DecidableEq

/-- `opcode_info_t`, the counters -/
structure OpcodeInfo where
  writes : Nat
  reads : Nat
  scReads : Nat
  scWrites : Nat
  rmws : Nat
  cas : Nat
  fa : Nat

/-- What was drawn so far of `rand()` and of `rand_r(seed)`. -/
structure Draws where
  rand : Nat → Nat
  randR : Nat → Nat
  drawn : Nat
  drawnR : Nat

namespace Draws

def next (d : Draws) : Nat × Draws := (d.rand d.drawn, { d with drawn := d.drawn + 1 })

def nextR (d : Draws) : Nat × Draws := (d.randR d.drawnR, { d with drawnR := d.drawnR + 1 })

end Draws

namespace TraceConf

variable (conf : TraceConf)

/-! ## compute_opcode -/

/-- `cas_opcode` -/
def casOpcode : Nat := if conf.useWeakCas then compareAndSwapWeak else compareAndSwapStrong

/-- The opcode of a read-modify-write; 0 if the build says of none which it is. -/
def rmwOpcode (d : Draws) : Nat × Draws :=
  if conf.traceOnlyCas then (conf.casOpcode, d)
  else if conf.traceOnlyFa then (fetchAndAdd, d)
  else if conf.traceMixedRmws then
    let (r, d) := d.nextR
    (if r % 1000 < conf.traceCasRatio then conf.casOpcode else fetchAndAdd, d)
  else (0, d)

/-- `is_rmw` -/
def drawRmw (d : Draws) : Bool × Draws :=
  if conf.enableRmws then
    if conf.allRmwsSingleKey then (true, d)
    else
      let (r, d) := d.next
      (decide (r % 1000 < conf.rmwRatio), d)
  else (false, d)

/-- `compute_opcode`, with `is_rmw` -/
def computeOpcode (info : OpcodeInfo) (d : Draws) : Nat × Bool × OpcodeInfo × Draws :=
  let (isRmw, d) := conf.drawRmw d
  if isRmw then
    let (opcode, d) := conf.rmwOpcode d
    let info := { info with rmws := info.rmws + 1 }
    (opcode, true, if opcode = conf.casOpcode then { info with cas := info.cas + 1 }
      else { info with fa := info.fa + 1 }, d)
  else
    let (r, d) := d.next
    let isUpdate := decide (r % 1000 < conf.writeRatio)
    let (r, d) := d.next
    let isSc := decide (r % 1000 < conf.scRatio)
    if isUpdate then
      if isSc && conf.enableReleases then
        (opRelease, false, { info with scWrites := info.scWrites + 1 }, d)
      else (kvsOpPut, false, { info with writes := info.writes + 1 }, d)
    else
      if isSc && conf.enableAcquires then
        (opAcquire, false, { info with scReads := info.scReads + 1 }, d)
      else (kvsOpGet, false, { info with reads := info.reads + 1 }, d)

/-! ## manufacture_trace -/

/-- `session_window` -/
def sessionWindow : Nat := 10 * conf.sessionsPerThread

/-- The key of an entry, and the next `sess_id`.  `USE_A_SINGLE_KEY` sets a key that both branches
    set again. -/
def drawKey (machineId tId : Nat) (isRmw : Bool) (sessId : Nat) (d : Draws) : Nat × Nat × Draws :=
  if isRmw then
    if conf.allRmwsSingleKey || conf.enableAllConflictRmw then (0, sessId, d)
    else if conf.rmwOneKeyPerThread then (u32 tId, sessId, d)
    else if conf.enableNoConflictRmw then
      let keyId := u32 (machineId * conf.workersPerMachine * conf.sessionWindow +
        tId * conf.sessionWindow + sessId)
      (keyId, if u32 (sessId + 1) = conf.sessionWindow then 0 else u32 (sessId + 1), d)
    else
      let (r, d) := d.nextR
      (u32 (r % conf.kvsNumKeys), sessId, d)
  else
    let (r, d) := d.next
    (u32 r % conf.kvsNumKeys, sessId, d)

/-- The loop of `manufacture_trace`, for `n` entries. -/
def manufacture (machineId tId : Nat) :
    Nat → OpcodeInfo → Nat → Draws → List TraceEntry × OpcodeInfo
  | 0, info, _, _ => ([], info)
  | n + 1, info, sessId, d =>
    let (opcode, isRmw, info, d) := conf.computeOpcode info d
    let (keyId, sessId, d) := conf.drawKey machineId tId isRmw sessId d
    let (rest, info) := manufacture machineId tId n info sessId d
    (⟨opcode, .ofHash (conf.cityHash keyId), keyId⟩ :: rest, info)

/-- The end of a trace. -/
def traceEnd : TraceEntry := ⟨nop, ⟨0, 0, 0⟩, 0⟩

/-- `manufacture_trace` -/
def manufactureTrace (machineId tId : Nat) (d : Draws) : List TraceEntry × OpcodeInfo :=
  let (entries, info) := conf.manufacture machineId tId conf.traceSize ⟨0, 0, 0, 0, 0, 0, 0⟩ 0 d
  (entries ++ [traceEnd], info)

/-! ## parse_trace -/

/-- The first token of `strtok_r(line, " ", _)`, if there is one. -/
def firstWord (line : List Char) : List Char := (line.dropWhile (· == ' ')).takeWhile (· != ' ')

/-- `if (word[strlen(word) - 1] == '\n') word[strlen(word) - 1] = 0` -/
def chomp (word : List Char) : List Char :=
  if word.getLast? = some '\n' then word.dropLast else word

/-- The key of a line. -/
def lineKey (line : List Char) : Nat :=
  if conf.useASingleKey then 0 else u32 (strtoul (chomp (firstWord line)))

/-- The loop of `parse_trace`.  A line without a word has no key, and at the end there are more
    lines than keys (`assert(cmd_count == debug_cnt)`). -/
def parseLines : List (List Char) → OpcodeInfo → Draws → Outcome (List TraceEntry × OpcodeInfo)
  | [], info, _ => .ok ([], info)
  | line :: lines, info, d => do
    let (opcode, _, info, d) := conf.computeOpcode info d
    if firstWord line = [] then .error .undefined
    let keyId := conf.lineKey line
    let (rest, info) ← parseLines lines info d
    return (⟨opcode, .ofHash (conf.cityHash keyId), keyId⟩ :: rest, info)

/-- `parse_trace`, of the lines of a file -/
def parseTrace (lines : List (List Char)) (d : Draws) : Outcome (List TraceEntry × OpcodeInfo) := do
  let (entries, info) ← conf.parseLines lines ⟨0, 0, 0, 0, 0, 0, 0⟩ d
  return (entries ++ [traceEnd], info)

/-! ## Opcodes and counters -/

/-- The opcodes of the interface. -/
def isApiOpcode (opcode : Nat) : Bool :=
  opcode == kvsOpGet || opcode == kvsOpPut || opcode == opAcquire || opcode == opRelease ||
    opcode == compareAndSwapStrong || opcode == compareAndSwapWeak || opcode == fetchAndAdd

/-- The build says which read-modify-writes it wants, if any. -/
def namesRmws : Bool :=
  !conf.enableRmws || conf.traceOnlyCas || conf.traceOnlyFa || conf.traceMixedRmws

end TraceConf

open TraceConf

/-- All entries that were counted. -/
def OpcodeInfo.total (info : OpcodeInfo) : Nat :=
  info.writes + info.reads + info.scReads + info.scWrites + info.rmws

/-- Every read-modify-write is counted once more. -/
def OpcodeInfo.Split (info : OpcodeInfo) : Prop := info.cas + info.fa = info.rmws

section Opcodes

variable {conf : TraceConf}

theorem isApiOpcode_cas : isApiOpcode conf.casOpcode = true := by
  unfold casOpcode
  cases conf.useWeakCas <;> rfl

/-- The opcode of a read-modify-write. -/
theorem TraceConf.rmwOpcode_spec (conf : TraceConf) (d : Draws) :
    isApiOpcode (conf.rmwOpcode d).1 = true ∨
    ((conf.rmwOpcode d).1 = nop ∧ conf.traceOnlyCas = false ∧ conf.traceOnlyFa = false ∧
      conf.traceMixedRmws = false) := by
  unfold rmwOpcode
  cases hcas : conf.traceOnlyCas with
  | true => exact Or.inl isApiOpcode_cas
  | false =>
    cases hfa : conf.traceOnlyFa with
    | true => exact Or.inl rfl
    | false =>
      cases hmixed : conf.traceMixedRmws with
      | true =>
        left
        show isApiOpcode (if d.nextR.1 % 1000 < conf.traceCasRatio then conf.casOpcode
          else fetchAndAdd) = true
        split
        · exact isApiOpcode_cas
        · rfl
      | false => exact Or.inr ⟨rfl, rfl, rfl, rfl⟩

/-- **What `compute_opcode` counts and returns.** -/
theorem computeOpcode_spec {info info' : OpcodeInfo} {d d' : Draws} {opcode : Nat} {isRmw : Bool}
    (h : conf.computeOpcode info d = (opcode, isRmw, info', d')) :
    info'.total = info.total + 1 ∧ (info.Split → info'.Split) ∧
      (isApiOpcode opcode = true ∨ (opcode = nop ∧ isRmw = true ∧ conf.namesRmws = false)) := by
  unfold computeOpcode at h
  dsimp only at h
  split at h
  · rename_i hrmw
    have henabled : conf.enableRmws = true := by
      unfold drawRmw at hrmw
      by_contra hc
      rw [if_neg hc] at hrmw
      cases hrmw
    have hop := conf.rmwOpcode_spec (conf.drawRmw d).2
    cases h
    refine ⟨?_, ?_, ?_⟩
    · unfold OpcodeInfo.total
      split <;> dsimp only <;> omega
    · unfold OpcodeInfo.Split
      intro hsplit
      split <;> dsimp only <;> omega
    · rcases hop with hapi | ⟨hnop, hcas, hfa, hmixed⟩
      · exact Or.inl hapi
      · refine Or.inr ⟨hnop, rfl, ?_⟩
        unfold namesRmws
        rw [henabled, hcas, hfa, hmixed]
        rfl
  · unfold OpcodeInfo.total OpcodeInfo.Split
    split at h <;> split at h <;> cases h
    · exact ⟨by dsimp only; omega, id, Or.inl rfl⟩
    · exact ⟨by dsimp only; omega, id, Or.inl rfl⟩
    · exact ⟨by dsimp only; omega, id, Or.inl rfl⟩
    · exact ⟨by dsimp only; omega, id, Or.inl rfl⟩

end Opcodes

/-- **What a trace of `n` entries should be.** -/
structure TraceWellFormed (conf : TraceConf) (trace : List TraceEntry) (info : OpcodeInfo)
    (n : Nat) : Prop where
  ends : ∃ entries, trace = entries ++ [traceEnd] ∧ entries.length = n ∧
    ∀ entry ∈ entries, entry.keyHash = .ofHash (conf.cityHash entry.keyId) ∧
      (isApiOpcode entry.opcode = true ∨ (entry.opcode = nop ∧ conf.namesRmws = false))
  total : info.total = n
  split : info.Split

section Traces

variable {conf : TraceConf}

/-- The entries of a trace, and its counters. -/
structure Entries (conf : TraceConf) (entries : List TraceEntry) (info info' : OpcodeInfo)
    (n : Nat) : Prop where
  length : entries.length = n
  sound : ∀ entry ∈ entries, entry.keyHash = .ofHash (conf.cityHash entry.keyId) ∧
    (isApiOpcode entry.opcode = true ∨ (entry.opcode = nop ∧ conf.namesRmws = false))
  total : info'.total = info.total + n
  split : info.Split → info'.Split

/-- One more entry, in front of the others. -/
theorem Entries.cons {entries : List TraceEntry} {info info₁ info' : OpcodeInfo} {n keyId : Nat}
    {d d' : Draws} {opcode : Nat} {isRmw : Bool} (h : Entries conf entries info₁ info' n)
    (hop : conf.computeOpcode info d = (opcode, isRmw, info₁, d')) :
    Entries conf (⟨opcode, .ofHash (conf.cityHash keyId), keyId⟩ :: entries) info info'
      (n + 1) := by
  obtain ⟨htotal, hsplit, hapi⟩ := computeOpcode_spec hop
  refine ⟨congrArg Nat.succ h.length, ?_, ?_, fun hs => h.split (hsplit hs)⟩
  · intro entry hentry
    rcases List.mem_cons.mp hentry with rfl | hentry
    · exact ⟨rfl, hapi.imp_right fun ⟨hnop, _, hnames⟩ => ⟨hnop, hnames⟩⟩
    · exact h.sound entry hentry
  · rw [h.total, htotal]
    omega

theorem Entries.wellFormed {entries : List TraceEntry} {info : OpcodeInfo} {n : Nat}
    (h : Entries conf entries ⟨0, 0, 0, 0, 0, 0, 0⟩ info n) :
    TraceWellFormed conf (entries ++ [traceEnd]) info n :=
  ⟨⟨entries, rfl, h.length, h.sound⟩, h.total.trans (Nat.zero_add n), h.split rfl⟩

theorem manufacture_entries (conf : TraceConf) (machineId tId n : Nat) :
    ∀ (info : OpcodeInfo) (sessId : Nat) (d : Draws),
      Entries conf (conf.manufacture machineId tId n info sessId d).1 info
      (conf.manufacture machineId tId n info sessId d).2 n := by
  induction n with
  | zero => exact fun info _ _ => ⟨rfl, (fun _ h => by cases h), rfl, id⟩
  | succ n ih => exact fun info sessId d => (ih _ _ _).cons rfl

theorem manufactureTrace_eq (conf : TraceConf) (machineId tId : Nat) (d : Draws) :
    (conf.manufactureTrace machineId tId d).1 =
      (conf.manufacture machineId tId conf.traceSize ⟨0, 0, 0, 0, 0, 0, 0⟩ 0 d).1 ++ [traceEnd] :=
  rfl

theorem parseLines_entries {lines : List (List Char)} : ∀ {info info' : OpcodeInfo} {d : Draws}
    {entries : List TraceEntry}, conf.parseLines lines info d = .ok (entries, info') →
      Entries conf entries info info' lines.length := by
  induction lines with
  | nil =>
    intro info info' d entries h
    cases h
    exact ⟨rfl, (fun _ h => by cases h), rfl, id⟩
  | cons line lines ih =>
    intro info info' d entries h
    simp only [parseLines] at h
    split at h
    · cases h
    · obtain ⟨⟨rest, info₂⟩, hrest, h⟩ := bind_eq_ok.mp h
      cases h
      exact (ih hrest).cons rfl

/-- **A TRACE IS WELL FORMED**, whatever was drawn: manufactured or parsed, it has an entry for each
    that was wanted and the end behind them; all carry the hash of their key and an opcode of the
    interface, unless the build has read-modify-writes and names none; and each is counted once. -/
theorem trace_wellFormed (conf : TraceConf) (d : Draws) :
    (∀ machineId tId, TraceWellFormed conf (conf.manufactureTrace machineId tId d).1
      (conf.manufactureTrace machineId tId d).2 conf.traceSize) ∧
    (∀ lines trace info, conf.parseTrace lines d = .ok (trace, info) →
      TraceWellFormed conf trace info lines.length) := by
  refine ⟨fun machineId tId => (manufacture_entries conf ..).wellFormed, ?_⟩
  intro lines trace info h
  obtain ⟨⟨entries, info'⟩, hlines, h⟩ := bind_eq_ok.mp h
  cases h
  exact (parseLines_entries hlines).wellFormed

/-! ## Keys -/

/-- The first of the keys that thread `tId` of machine `machineId` does read-modify-writes to, if
    each session is to have its own. -/
def ownKeys (conf : TraceConf) (machineId tId : Nat) : Nat :=
  (machineId * conf.workersPerMachine + tId) * conf.sessionWindow

/-- Each session is to have its own key for read-modify-writes. -/
def noConflict (conf : TraceConf) : Bool :=
  conf.enableNoConflictRmw && !conf.allRmwsSingleKey && !conf.enableAllConflictRmw &&
    !conf.rmwOneKeyPerThread

def isRmwOpcode (opcode : Nat) : Bool :=
  opcode == compareAndSwapStrong || opcode == compareAndSwapWeak || opcode == fetchAndAdd

/-- The store has keys, and enough for every session to have its own if that is wanted. -/
structure KeysFit (conf : TraceConf) (machineId tId : Nat) : Prop where
  pos : 0 < conf.kvsNumKeys
  few : conf.kvsNumKeys ≤ 2 ^ 32
  thread : tId < conf.kvsNumKeys
  window : 0 < conf.sessionWindow
  own : conf.enableNoConflictRmw = true →
    ownKeys conf machineId tId + conf.sessionWindow ≤ conf.kvsNumKeys

theorem computeOpcode_rmw {info info' : OpcodeInfo} {d d' : Draws} {opcode : Nat}
    (h : conf.computeOpcode info d = (opcode, false, info', d')) : isRmwOpcode opcode = false := by
  unfold computeOpcode at h
  dsimp only at h
  split at h
  · cases h
  · split at h <;> split at h <;> cases h <;> rfl

/-- **The key of an entry.** -/
theorem KeysFit.drawKey {machineId tId : Nat} (h : KeysFit conf machineId tId) (isRmw : Bool)
    {sessId : Nat} (hsess : sessId < conf.sessionWindow) (d : Draws) :
    (conf.drawKey machineId tId isRmw sessId d).1 < conf.kvsNumKeys ∧
      (conf.drawKey machineId tId isRmw sessId d).2.1 < conf.sessionWindow ∧
      (noConflict conf = true → isRmw = true →
        ownKeys conf machineId tId ≤ (conf.drawKey machineId tId isRmw sessId d).1 ∧
          (conf.drawKey machineId tId isRmw sessId d).1
            < ownKeys conf machineId tId + conf.sessionWindow) := by
  have hpos := h.pos
  have hfew := h.few
  have hthread := h.thread
  cases isRmw with
  | false => exact ⟨Nat.mod_lt _ hpos, hsess, fun _ hc => by cases hc⟩
  | true =>
    unfold TraceConf.drawKey
    rw [if_pos rfl]
    split
    · rename_i hone
      refine ⟨hpos, hsess, fun hown => ?_⟩
      simp only [noConflict, Bool.and_eq_true, Bool.not_eq_true'] at hown
      rw [hown.1.1.2, hown.1.2] at hone
      cases hone
    · split
      · rename_i hone
        rw [u32_of_lt (by omega)]
        refine ⟨hthread, hsess, fun hown => ?_⟩
        simp only [noConflict, Bool.and_eq_true, Bool.not_eq_true'] at hown
        rw [hown.2] at hone
        cases hone
      · split
        · rename_i hown
          have hroom := h.own hown
          have hkey : machineId * conf.workersPerMachine * conf.sessionWindow
              + tId * conf.sessionWindow = ownKeys conf machineId tId := (Nat.add_mul ..).symm
          dsimp only
          rw [hkey, u32_of_lt (by omega)]
          refine ⟨by omega, ?_, fun _ _ => ⟨by omega, by omega⟩⟩
          split
          · exact h.window
          · rename_i hlast
            by_cases hmore : sessId + 1 < 2 ^ 32
            · rw [u32_of_lt hmore] at hlast ⊢
              omega
            · have hfull : sessId + 1 = 2 ^ 32 := by omega
              rw [hfull]
              exact h.window
        · rename_i hother
          have hmod := Nat.mod_lt d.nextR.1 hpos
          dsimp only
          rw [u32_of_lt (by omega)]
          refine ⟨hmod, hsess, fun hown => ?_⟩
          simp only [noConflict, Bool.and_eq_true] at hown
          exact absurd hown.1.1.1 hother

theorem manufacture_keys {machineId tId : Nat} (h : KeysFit conf machineId tId) (n : Nat) :
    ∀ (info : OpcodeInfo) (sessId : Nat) (d : Draws), sessId < conf.sessionWindow →
      ∀ entry ∈ (conf.manufacture machineId tId n info sessId d).1,
        entry.keyId < conf.kvsNumKeys ∧
          (noConflict conf = true → isRmwOpcode entry.opcode = true →
            ownKeys conf machineId tId ≤ entry.keyId ∧
              entry.keyId < ownKeys conf machineId tId + conf.sessionWindow) := by
  induction n with
  | zero => exact fun _ _ _ _ entry hentry => by cases hentry
  | succ n ih =>
    intro info sessId d hsess entry hentry
    rcases hop : conf.computeOpcode info d with ⟨opcode, isRmw, info₁, d₁⟩
    have hdraw := h.drawKey isRmw hsess d₁
    rcases hkey : conf.drawKey machineId tId isRmw sessId d₁ with ⟨keyId, sessId₁, d₂⟩
    rw [hkey] at hdraw
    simp only [manufacture, hop, hkey] at hentry
    rcases List.mem_cons.mp hentry with rfl | hentry
    · refine ⟨hdraw.1, fun hown hrmw => hdraw.2.2 hown ?_⟩
      cases isRmw with
      | true => rfl
      | false =>
        have hplain := computeOpcode_rmw hop
        rw [hrmw] at hplain
        cases hplain
    · exact ih _ _ _ hdraw.2.1 entry hentry

/-- **THE KEYS OF A MANUFACTURED TRACE** are keys of the store; and if each session is to have its
    own, no two threads of the deployment do a read-modify-write to the same key. -/
theorem manufactureTrace_keys {machineId tId machineId' tId' : Nat}
    (h : KeysFit conf machineId tId) (h' : KeysFit conf machineId' tId') (d d' : Draws) :
    (∀ entry ∈ (conf.manufactureTrace machineId tId d).1, entry.keyId < conf.kvsNumKeys) ∧
    (noConflict conf = true → tId < conf.workersPerMachine → tId' < conf.workersPerMachine →
      (machineId, tId) ≠ (machineId', tId') →
      ∀ entry ∈ (conf.manufactureTrace machineId tId d).1,
        ∀ entry' ∈ (conf.manufactureTrace machineId' tId' d').1,
          isRmwOpcode entry.opcode = true → isRmwOpcode entry'.opcode = true →
            entry.keyId ≠ entry'.keyId) := by
  have hkeys := manufacture_keys h conf.traceSize ⟨0, 0, 0, 0, 0, 0, 0⟩ 0 d h.window
  have hkeys' := manufacture_keys h' conf.traceSize ⟨0, 0, 0, 0, 0, 0, 0⟩ 0 d' h'.window
  have hend : isRmwOpcode traceEnd.opcode = false := rfl
  constructor
  · intro entry hentry
    rcases List.mem_append.mp hentry with hentry | hentry
    · exact (hkeys entry hentry).1
    · rw [List.mem_singleton.mp hentry]
      exact h.pos
  · intro hown ht ht' hne entry hentry entry' hentry' hrmw hrmw' heq
    have hmine : ownKeys conf machineId tId ≤ entry.keyId ∧
        entry.keyId < ownKeys conf machineId tId + conf.sessionWindow := by
      rcases List.mem_append.mp hentry with hentry | hentry
      · exact (hkeys entry hentry).2 hown hrmw
      · rw [List.mem_singleton.mp hentry, hend] at hrmw
        cases hrmw
    have htheirs : ownKeys conf machineId' tId' ≤ entry'.keyId ∧
        entry'.keyId < ownKeys conf machineId' tId' + conf.sessionWindow := by
      rcases List.mem_append.mp hentry' with hentry' | hentry'
      · exact (hkeys' entry' hentry').2 hown hrmw'
      · rw [List.mem_singleton.mp hentry', hend] at hrmw'
        cases hrmw'
    -- both keys are in one window, so the threads are the same
    have hsame : ∀ {a b k : Nat}, a * conf.sessionWindow ≤ k →
        k < a * conf.sessionWindow + conf.sessionWindow → b * conf.sessionWindow ≤ k →
        k < b * conf.sessionWindow + conf.sessionWindow → a = b := by
      intro a b k ha ha' hb hb'
      have hdiv : ∀ {c : Nat}, c * conf.sessionWindow ≤ k →
          k < c * conf.sessionWindow + conf.sessionWindow → k / conf.sessionWindow = c := by
        intro c hc hc'
        exact Nat.div_eq_of_lt_le hc (by rw [Nat.succ_mul]; exact hc')
      rw [← hdiv ha ha', hdiv hb hb']
    have hthread := hsame hmine.1 hmine.2 (heq ▸ htheirs.1) (heq ▸ htheirs.2)
    have hpos : 0 < conf.workersPerMachine := by omega
    have hmod := congrArg (· % conf.workersPerMachine) hthread
    have hdiv := congrArg (· / conf.workersPerMachine) hthread
    simp only [Nat.mul_add_mod', Nat.mod_eq_of_lt ht, Nat.mod_eq_of_lt ht'] at hmod
    simp only [Nat.mul_comm _ conf.workersPerMachine, Nat.mul_add_div hpos, Nat.div_eq_of_lt ht,
      Nat.div_eq_of_lt ht', Nat.add_zero] at hdiv
    exact hne (by rw [hmod, hdiv])

/-! ## Files -/

/-- A line that begins with a key: nothing, the end of the line, or a blank is behind it. -/
def EndsWord (rest : List Char) : Prop := rest = [] ∨ rest = ['\n'] ∨ rest.head? = some ' '

theorem digit_ne {c c' : Char} (h : c.isDigit = true) (h' : c'.isDigit = false) : c ≠ c' := by
  rintro rfl
  rw [h] at h'
  cases h'

/-- **The first word of a line that begins with a key** is the key, once the end of the line is
    cut off. -/
theorem chomp_firstWord {k : Nat} {rest : List Char} (h : EndsWord rest) :
    firstWord (decimal k ++ rest) ≠ [] ∧ chomp (firstWord (decimal k ++ rest)) = decimal k := by
  have hblank : ∀ c ∈ decimal k, (c != ' ') = true := fun c hc =>
    bne_iff_ne.mpr (digit_ne (isDigit_decimal c hc) (by decide))
  have hdrop : (decimal k ++ rest).dropWhile (· == ' ') = decimal k ++ rest := by
    cases hk : decimal k with
    | nil => exact absurd hk (decimal_ne_nil k)
    | cons c w =>
      have hc := hblank c (by rw [hk]; exact List.mem_cons_self)
      rw [List.cons_append, List.dropWhile_cons, if_neg (by simpa using hc)]
  have hword : firstWord (decimal k ++ rest) = decimal k ++ rest.takeWhile (· != ' ') := by
    unfold firstWord
    rw [hdrop, List.takeWhile_append_of_pos hblank]
  have hlast : (decimal k).getLast? ≠ some '\n' := by
    intro hc
    exact digit_ne (isDigit_decimal _ (List.mem_of_getLast? hc)) (by decide) rfl
  have hbare : chomp (decimal k) = decimal k := by
    unfold chomp
    rw [if_neg hlast]
  rw [hword]
  refine ⟨fun hc => decimal_ne_nil k (List.append_eq_nil_iff.mp hc).1, ?_⟩
  rcases h with rfl | rfl | hrest
  · rw [List.takeWhile_nil, List.append_nil]
    exact hbare
  · have htake : ['\n'].takeWhile (· != ' ') = ['\n'] := by decide
    unfold chomp
    rw [htake, List.getLast?_concat, if_pos rfl, List.dropLast_concat]
  · cases rest with
    | nil => cases hrest
    | cons c rest =>
      cases hrest
      have htake : (' ' :: rest).takeWhile (· != ' ') = [] := by simp
      rw [htake, List.append_nil]
      exact hbare

/-- The key of a line that begins with one. -/
theorem lineKey_decimal (hkeys : conf.useASingleKey = false) {k : Nat} (hk : k < 2 ^ 32)
    {rest : List Char} (h : EndsWord rest) : conf.lineKey (decimal k ++ rest) = k := by
  have hnil : ∀ c, ([] : List Char).head? = some c → c.isDigit = false := fun _ hc => by cases hc
  have hread := strtoul_decimal (show k < 2 ^ 64 by omega) hnil
  rw [List.append_nil] at hread
  unfold lineKey
  rw [if_neg (by rw [hkeys]; decide), (chomp_firstWord h).2, hread, u32_of_lt hk]

/-- A file that is taken has a word in every line, and their numbers are the keys. -/
theorem parseLines_spec {lines : List (List Char)} : ∀ {info info' : OpcodeInfo} {d : Draws}
    {entries : List TraceEntry}, conf.parseLines lines info d = .ok (entries, info') →
      (∀ line ∈ lines, firstWord line ≠ []) ∧
        entries.map TraceEntry.keyId = lines.map conf.lineKey := by
  induction lines with
  | nil =>
    intro info info' d entries h
    cases h
    exact ⟨(fun _ h => by cases h), rfl⟩
  | cons line lines ih =>
    intro info info' d entries h
    simp only [parseLines] at h
    split at h
    · cases h
    · rename_i hword
      obtain ⟨⟨rest, info₂⟩, hrest, h⟩ := bind_eq_ok.mp h
      cases h
      obtain ⟨hwords, hkeys⟩ := ih hrest
      constructor
      · intro l hl
        rcases List.mem_cons.mp hl with rfl | hl
        · exact hword
        · exact hwords l hl
      · rw [List.map_cons, List.map_cons, hkeys]

/-- A file with a word in every line is taken. -/
theorem parseLines_ok {lines : List (List Char)} : ∀ (info : OpcodeInfo) (d : Draws),
    (∀ line ∈ lines, firstWord line ≠ []) → ∃ r, conf.parseLines lines info d = .ok r := by
  induction lines with
  | nil => exact fun _ _ _ => ⟨_, rfl⟩
  | cons line lines ih =>
    intro info d h
    obtain ⟨r, hr⟩ := ih (conf.computeOpcode info d).2.2.1 (conf.computeOpcode info d).2.2.2
      fun l hl => h l (List.mem_cons_of_mem _ hl)
    simp only [parseLines, if_neg (h line List.mem_cons_self), hr]
    exact ⟨_, rfl⟩

/-- **A FILE OF KEYS IS READ AS IT WAS WRITTEN**: a file is taken if every line has a word, and if
    each begins with a key, whatever follows it, the trace is of these keys in their order. -/
theorem parseTrace_keys (conf : TraceConf) (d : Draws) :
    (∀ lines, (∃ r, conf.parseTrace lines d = .ok r) ↔ ∀ line ∈ lines, firstWord line ≠ []) ∧
    (conf.useASingleKey = false → ∀ written : List (Nat × List Char),
      (∀ l ∈ written, l.1 < 2 ^ 32 ∧ EndsWord l.2) →
        ∃ entries info, conf.parseTrace (written.map fun l => decimal l.1 ++ l.2) d
            = .ok (entries ++ [traceEnd], info) ∧
          entries.map TraceEntry.keyId = written.map Prod.fst) := by
  constructor
  · intro lines
    constructor
    · rintro ⟨r, hr⟩
      obtain ⟨⟨entries, info⟩, hlines, -⟩ := bind_eq_ok.mp hr
      exact (parseLines_spec hlines).1
    · intro hwords
      obtain ⟨⟨entries, info⟩, hr⟩ := parseLines_ok _ d hwords
      exact ⟨_, bind_eq_ok.mpr ⟨_, hr, rfl⟩⟩
  · intro hsingle written hwritten
    have hwords : ∀ line ∈ written.map fun l => decimal l.1 ++ l.2, firstWord line ≠ [] := by
      intro line hline
      obtain ⟨l, hl, rfl⟩ := List.mem_map.mp hline
      exact (chomp_firstWord (hwritten l hl).2).1
    obtain ⟨⟨entries, info⟩, hr⟩ := parseLines_ok _ d hwords
    refine ⟨entries, info, bind_eq_ok.mpr ⟨_, hr, rfl⟩, ?_⟩
    rw [(parseLines_spec hr).2, List.map_map]
    apply List.map_congr_left
    intro l hl
    exact lineKey_decimal hsingle (hwritten l hl).1 (hwritten l hl).2

end Traces

/-! ## A small build

Two threads to a machine and two sessions to a thread, and every request is a compare-and-swap to a
key of the session's own. -/

def twoThreads : TraceConf where
  enableRmws := true
  enableReleases := true
  enableAcquires := true
  allRmwsSingleKey := false
  enableAllConflictRmw := false
  rmwOneKeyPerThread := false
  enableNoConflictRmw := true
  useASingleKey := false
  traceOnlyCas := true
  traceOnlyFa := false
  traceMixedRmws := false
  useWeakCas := true
  rmwRatio := 1000
  scRatio := 500
  traceCasRatio := 500
  writeRatio := 500
  traceSize := 2
  kvsNumKeys := 1000
  workersPerMachine := 2
  sessionsPerThread := 2
  cityHash := id

def someDraws : Draws := ⟨fun i => 7 * i, fun i => 5 * i, 0, 0⟩

theorem twoThreads_fits (machineId tId : Nat) (hm : machineId < 5) (ht : tId < 2) :
    KeysFit twoThreads machineId tId := by
  refine ⟨by decide, by decide, ?_, by decide, fun _ => ?_⟩
  · show tId < 1000
    omega
  · show (machineId * 2 + tId) * 20 + 20 ≤ 1000
    omega

theorem trace_wellFormed_twoThreads :
    ((twoThreads.manufactureTrace 1 1 someDraws).1.map TraceEntry.keyId = [60, 61, 0]) ∧
    TraceWellFormed twoThreads (twoThreads.manufactureTrace 1 1 someDraws).1
      (twoThreads.manufactureTrace 1 1 someDraws).2 2 :=
  ⟨by decide, (trace_wellFormed twoThreads someDraws).1 1 1⟩

theorem manufactureTrace_keys_twoThreads :
    ((twoThreads.manufactureTrace 0 1 someDraws).1.map TraceEntry.keyId = [20, 21, 0]) ∧
    ∀ entry ∈ (twoThreads.manufactureTrace 1 1 someDraws).1,
      ∀ entry' ∈ (twoThreads.manufactureTrace 0 1 someDraws).1,
        isRmwOpcode entry.opcode = true → isRmwOpcode entry'.opcode = true →
          entry.keyId ≠ entry'.keyId :=
  ⟨by decide, (manufactureTrace_keys (twoThreads_fits 1 1 (by decide) (by decide))
    (twoThreads_fits 0 1 (by decide) (by decide)) someDraws someDraws).2 rfl (by decide) (by decide)
      (by decide)⟩

/-- A file of two lines. -/
theorem parseTrace_keys_twoLines : ∃ entries info,
    twoThreads.parseTrace ["7 1\n".toList, "12\n".toList] someDraws
      = .ok (entries ++ [traceEnd], info) ∧ entries.map TraceEntry.keyId = [7, 12] := by
  have h := (parseTrace_keys twoThreads someDraws).2 rfl [(7, " 1\n".toList), (12, "\n".toList)]
    (by
      intro l hl
      rcases List.mem_cons.mp hl with rfl | hl
      · exact ⟨by decide, Or.inr (Or.inr rfl)⟩
      · rw [List.mem_singleton.mp hl]
        exact ⟨by decide, Or.inr (Or.inl rfl)⟩)
  have hseven : decimal 7 = ['7'] := by
    simp only [decimal]
    decide
  have htwelve : decimal 12 = ['1', '2'] := by
    simp only [decimal]
    decide
  simpa [hseven, htwelve] using h

end Odyssey
