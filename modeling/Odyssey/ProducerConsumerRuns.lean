/-
  ONE TOKEN IN EVERY RING, over all runs of the producer-consumer benchmark.

  `PcLocal` is what holds of one session, with the store where it writes: the counters in terms of
  the rounds so far, and the requests that wait, which are the rest of one round.  `PcInv` adds the
  token.  A pass issues a whole round at once, and every execution takes one request off
  (`PcLocal.served`); what another session does is seen only in its flag (`PcLocal.frame`).
-/
import Odyssey.ProducerConsumer
import Mathlib.Algebra.BigOperators.Group.Finset.Piecewise

namespace Odyssey

open Lib

/-! ## The ring -/

/-- Every session has a number of its own in 16 bits, and every key in 32: the store has the
    `LAST_PC_NODE_PTR` keys. -/
structure PcFits (d : Deployment) : Prop where
  machines : 2 ≤ d.machineNum
  sessions : d.globalSessionNum ≤ 2 ^ 16
  keys : d.pcNodeOffset + d.globalSessionNum * pcWritesNum ≤ 2 ^ 32

namespace PcFits

variable {d : Deployment} {g g' : Nat}

theorem two_rows (h : PcFits d) : 2 * d.sessionsPerMachine ≤ d.globalSessionNum :=
  Nat.mul_le_mul_right _ h.machines

theorem glob_eq (h : PcFits d) (hg : g < d.globalSessionNum) : d.globSessI g = g := by
  have hsessions := h.sessions
  rw [Deployment.globSessI_eq, u16_of_lt (by omega)]

/-- The producer of a session. -/
theorem from_eq (h : PcFits d) (hg : g < d.globalSessionNum) : d.sessionToAcquireFrom g
    = if g < d.sessionsPerMachine then d.globalSessionNum + g - d.sessionsPerMachine
      else g - d.sessionsPerMachine := by
  have hsessions := h.sessions
  have hrows := h.two_rows
  have hpos := d.sessionsPerMachine_pos
  rw [Deployment.sessionToAcquireFrom, h.glob_eq hg]
  split
  · rw [Nat.mod_eq_of_lt (by omega), u16_of_lt (by omega)]
  · have hsplit : d.globalSessionNum + g - d.sessionsPerMachine
        = g - d.sessionsPerMachine + d.globalSessionNum := by omega
    rw [hsplit, Nat.add_mod_right, Nat.mod_eq_of_lt (by omega), u16_of_lt (by omega)]

theorem from_lt (h : PcFits d) (hg : g < d.globalSessionNum) :
    d.sessionToAcquireFrom g < d.globalSessionNum := by
  have hrows := h.two_rows
  have hpos := d.sessionsPerMachine_pos
  rw [h.from_eq hg]
  split <;> omega

theorem from_ne (h : PcFits d) (hg : g < d.globalSessionNum) : d.sessionToAcquireFrom g ≠ g := by
  have hrows := h.two_rows
  have hpos := d.sessionsPerMachine_pos
  rw [h.from_eq hg]
  split <;> omega

theorem from_inj (h : PcFits d) (hg : g < d.globalSessionNum) (hg' : g' < d.globalSessionNum)
    (heq : d.sessionToAcquireFrom g = d.sessionToAcquireFrom g') : g = g' := by
  have hrows := h.two_rows
  rw [h.from_eq hg, h.from_eq hg'] at heq
  split at heq <;> split at heq <;> omega

/-- A ring is a column. -/
theorem from_ring (h : PcFits d) (hg : g < d.globalSessionNum) :
    d.sessionToAcquireFrom g % d.sessionsPerMachine = g % d.sessionsPerMachine := by
  have hrows := h.two_rows
  rw [h.from_eq hg]
  split
  · rename_i hlt
    have hcol : d.globalSessionNum + g - d.sessionsPerMachine
        = g + d.sessionsPerMachine * (d.machineNum - 1) := by
      have hmul : d.globalSessionNum = d.sessionsPerMachine * (d.machineNum - 1)
          + d.sessionsPerMachine := by
        have hmachines := h.machines
        rw [← Nat.mul_succ, Nat.succ_eq_add_one, Nat.sub_add_cancel (by omega), Nat.mul_comm]
        rfl
      omega
    rw [hcol, Nat.add_mul_mod_self_left]
  · rename_i hge
    have hback : g = g - d.sessionsPerMachine + d.sessionsPerMachine := by omega
    conv_rhs => rw [hback, Nat.add_mod_right]

/-- The consumer of a session. -/
theorem exists_consumer (h : PcFits d) (hg : g < d.globalSessionNum) :
    ∃ c, c < d.globalSessionNum ∧ d.sessionToAcquireFrom c = g := by
  have hrows := h.two_rows
  have hpos := d.sessionsPerMachine_pos
  by_cases hlast : g + d.sessionsPerMachine < d.globalSessionNum
  · refine ⟨g + d.sessionsPerMachine, hlast, ?_⟩
    rw [h.from_eq hlast]
    split <;> omega
  · refine ⟨g + d.sessionsPerMachine - d.globalSessionNum, by omega, ?_⟩
    rw [h.from_eq (by omega)]
    split <;> omega

/-! ## Keys -/

theorem flagToRelease_eq (h : PcFits d) (hg : g < d.globalSessionNum) :
    d.flagToRelease g = d.pcFlagKeyIdOffset + g := by
  have hkeys := h.keys
  have hoff : d.pcNodeOffset = d.pcFlagKeyIdOffset + d.globalSessionNum := rfl
  rw [Deployment.flagToRelease, h.glob_eq hg, u32_of_lt (by omega)]

theorem flagToAcquire_eq (h : PcFits d) (hg : g < d.globalSessionNum) :
    d.flagToAcquire g = d.flagToRelease (d.sessionToAcquireFrom g) := by
  rw [Deployment.flagToAcquire, Deployment.flagToRelease, h.glob_eq (h.from_lt hg)]

theorem wKey_eq (h : PcFits d) (hg : g < d.globalSessionNum) {i : Nat} (hi : i < pcWritesNum) :
    u32 (d.wKey g + i) = d.pcNodeOffset + (g * pcWritesNum + i) := by
  have hkeys := h.keys
  have hle : (g + 1) * pcWritesNum ≤ d.globalSessionNum * pcWritesNum :=
    Nat.mul_le_mul_right _ hg
  rw [Nat.succ_mul] at hle
  have hbase : d.wKey g = d.pcNodeOffset + g * pcWritesNum := by
    rw [Deployment.wKey, h.glob_eq hg, u32_of_lt (by omega)]
  rw [hbase, u32_of_lt (by omega), Nat.add_assoc]

theorem rKey_eq (h : PcFits d) (hg : g < d.globalSessionNum) :
    d.rKey g = d.wKey (d.sessionToAcquireFrom g) := by
  rw [Deployment.rKey, Deployment.wKey, h.glob_eq (h.from_lt hg)]

theorem wKey_inj (h : PcFits d) (hg : g < d.globalSessionNum) (hg' : g' < d.globalSessionNum)
    {i i' : Nat} (hi : i < pcWritesNum) (hi' : i' < pcWritesNum)
    (heq : u32 (d.wKey g + i) = u32 (d.wKey g' + i')) : g = g' ∧ i = i' := by
  rw [h.wKey_eq hg hi, h.wKey_eq hg' hi'] at heq
  have h5 : pcWritesNum = 5 := rfl
  rw [h5] at heq hi hi'
  omega

end PcFits

/-! ## Counting a history -/

abbrev PcTrace := List (Turn × PcEvent)

/-- The rounds a session has begun. -/
def acquires (tr : PcTrace) (g : Nat) : Nat := tr.countP (· == (.client g, .acquired))

/-- Whether a session went through `pc_init_flags`. -/
def inits (tr : PcTrace) (g : Nat) : Nat := tr.countP (· == (.client g, .initialised))

/-- How often a session has written its nodes, or issued to. -/
def releases (tr : PcTrace) (g : Nat) : Nat := acquires tr g + inits tr g

/-- The requests of a session that were executed, of a kind. -/
def servedOf (tr : PcTrace) (g : Nat) (p : PcReq → Bool) : Nat :=
  tr.countP fun
    | (.store g' _, .served req _) => g' == g && p req
    | _ => false

namespace PcReq

def isRelease : PcReq → Bool
  | releaseFlag _ _ => true
  | _ => false

def writesTo (keyId : Nat) : PcReq → Bool
  | writeNode k _ => k == keyId
  | _ => false

def readsFrom (keyId : Nat) : PcReq → Bool
  | readNode k => k == keyId
  | _ => false

/-- All but the polling. -/
def isRound : PcReq → Bool
  | readFlag _ => false
  | _ => true

end PcReq

open PcReq

/-- How often the flag of a session was raised. -/
def released (tr : PcTrace) (g : Nat) : Nat := servedOf tr g isRelease

variable {d : Deployment}

/-- How often the `i`-th node of a session was written. -/
def nodeWrites (d : Deployment) (tr : PcTrace) (g i : Nat) : Nat :=
  servedOf tr g (writesTo (u32 (d.wKey g + i)))

/-- How often a session has read the `i`-th node of its producer. -/
def nodeReads (d : Deployment) (tr : PcTrace) (g i : Nat) : Nat :=
  servedOf tr g (readsFrom (u32 (d.rKey g + i)))

theorem acquires_concat (tr : PcTrace) (a : Turn × PcEvent) (g : Nat) :
    acquires (tr ++ [a]) g = acquires tr g + if a = (.client g, .acquired) then 1 else 0 := by
  simp [acquires, List.countP_append, List.countP_singleton]

theorem inits_concat (tr : PcTrace) (a : Turn × PcEvent) (g : Nat) :
    inits (tr ++ [a]) g = inits tr g + if a = (.client g, .initialised) then 1 else 0 := by
  simp [inits, List.countP_append, List.countP_singleton]

/-- Only the store serves. -/
theorem servedOf_client (tr : PcTrace) (g' : Nat) (e : PcEvent) (g : Nat) (p : PcReq → Bool) :
    servedOf (tr ++ [(.client g', e)]) g p = servedOf tr g p := by
  simp [servedOf, List.countP_append]

theorem servedOf_store (tr : PcTrace) (g' : Nat) (b : Bool) (req : PcReq) (got : Option PcNode)
    (g : Nat) (p : PcReq → Bool) :
    servedOf (tr ++ [(.store g' b, .served req got)]) g p
      = servedOf tr g p + if g' = g ∧ p req = true then 1 else 0 := by
  simp [servedOf, List.countP_append, List.countP_singleton]

/-! ## What waits -/

theorem countP_flatMap_range {α : Type} {f : Nat → List α} {p : α → Bool} {i : Nat} (n : Nat)
    (h : ∀ j, j < n → (f j).countP p = if j = i then 1 else 0) :
    ((List.range n).flatMap f).countP p = if i < n then 1 else 0 := by
  induction n with
  | zero => rfl
  | succ n ih =>
    rw [List.range_succ, List.flatMap_append, List.flatMap_singleton, List.countP_append,
      ih fun j hj => h j (by omega), h n (by omega)]
    split <;> split <;> split <;> omega

/-- The requests of the last round of a session. -/
def Deployment.lastRound (d : Deployment) (tr : PcTrace) (g : Nat) (info : PcSessInfo) :
    List PcReq :=
  if acquires tr g = 0 then d.initRequests g info.nodeToWrite info.relFlag
  else d.roundRequests g info.nodeToWrite info.relFlag

/-- What the requests of a round, or of `pc_init_flags`, are: reads of the nodes of the producer,
    `reads` of each, one write to each of the own nodes, and a release last. -/
structure IsRound (d : Deployment) (g reads : Nat) (node : PcNode) (flag : PcPtr)
    (l : List PcReq) : Prop where
  round : ∀ r ∈ l, isRound r = true
  last : ∃ l', l = l' ++ [.releaseFlag (d.flagToRelease g) flag]
  release : ∀ k f, .releaseFlag k f ∈ l → k = d.flagToRelease g ∧ f = flag
  write : ∀ k n, .writeNode k n ∈ l → (∃ i, i < pcWritesNum ∧ k = u32 (d.wKey g + i)) ∧ n = node
  read : ∀ k, .readNode k ∈ l → ∃ i, i < pcWritesNum ∧ k = u32 (d.rKey g + i)
  oneRelease : l.countP isRelease = 1
  oneWrite : ∀ i, i < pcWritesNum → l.countP (writesTo (u32 (d.wKey g + i))) = 1
  reads_eq : ∀ i, i < pcWritesNum → l.countP (readsFrom (u32 (d.rKey g + i))) = reads

theorem PcFits.initRequests (h : PcFits d) {g : Nat} (hg : g < d.globalSessionNum) (node : PcNode)
    (flag : PcPtr) : IsRound d g 0 node flag (d.initRequests g node flag) := by
  unfold Deployment.initRequests
  constructor
  case last => exact ⟨_, rfl⟩
  case oneRelease =>
    rw [List.countP_append, List.countP_map, List.countP_eq_zero.mpr fun i _ => by simp [isRelease]]
    rfl
  case oneWrite =>
    intro i hi
    rw [List.countP_append, List.map_eq_flatMap, countP_flatMap_range (i := i) pcWritesNum,
      if_pos hi]
    · rfl
    · intro j hj
      have hinj : u32 (d.wKey g + j) = u32 (d.wKey g + i) ↔ j = i :=
        ⟨fun heq => (h.wKey_inj hg hg hj hi heq).2, fun heq => by rw [heq]⟩
      simp [List.countP_singleton, writesTo, hinj]
  case reads_eq =>
    intro i _
    rw [List.countP_append, List.countP_map, List.countP_eq_zero.mpr fun i _ => by simp [readsFrom]]
    rfl
  case round =>
    intro r hr
    rcases List.mem_append.mp hr with hr | hr
    · obtain ⟨i, -, rfl⟩ := List.mem_map.mp hr
      rfl
    · rw [List.mem_singleton.mp hr]
      rfl
  case release => simp
  case write =>
    intro k n hr
    rcases List.mem_append.mp hr with hr | hr
    · obtain ⟨i, hi, heq⟩ := List.mem_map.mp hr
      cases heq
      exact ⟨⟨i, List.mem_range.mp hi, rfl⟩, rfl⟩
    · nomatch List.mem_singleton.mp hr
  case read => simp

theorem PcFits.roundRequests (h : PcFits d) {g : Nat} (hg : g < d.globalSessionNum) (node : PcNode)
    (flag : PcPtr) : IsRound d g 1 node flag (d.roundRequests g node flag) := by
  unfold Deployment.roundRequests
  constructor
  case last => exact ⟨_, rfl⟩
  case oneRelease =>
    rw [List.countP_append, List.countP_eq_zero.mpr]
    · rfl
    · intro r hr
      obtain ⟨i, -, hr⟩ := List.mem_flatMap.mp hr
      rcases List.mem_pair.mp hr with rfl | rfl <;> simp [isRelease]
  case oneWrite =>
    intro i hi
    rw [List.countP_append, countP_flatMap_range (i := i) pcWritesNum, if_pos hi]
    · rfl
    · intro j hj
      have hinj : u32 (d.wKey g + j) = u32 (d.wKey g + i) ↔ j = i :=
        ⟨fun heq => (h.wKey_inj hg hg hj hi heq).2, fun heq => by rw [heq]⟩
      simp [List.countP_cons, writesTo, hinj]
  case reads_eq =>
    intro i hi
    rw [List.countP_append, countP_flatMap_range (i := i) pcWritesNum, if_pos hi]
    · rfl
    · intro j hj
      have hinj : u32 (d.rKey g + j) = u32 (d.rKey g + i) ↔ j = i := by
        rw [h.rKey_eq hg]
        exact ⟨fun heq => (h.wKey_inj (h.from_lt hg) (h.from_lt hg) hj hi heq).2,
          fun heq => by rw [heq]⟩
      simp [List.countP_cons, readsFrom, hinj]
  case round =>
    intro r hr
    rcases List.mem_append.mp hr with hr | hr
    · obtain ⟨i, -, hr⟩ := List.mem_flatMap.mp hr
      rcases List.mem_pair.mp hr with rfl | rfl <;> rfl
    · rw [List.mem_singleton.mp hr]
      rfl
  case release =>
    intro k f hr
    rcases List.mem_append.mp hr with hr | hr
    · obtain ⟨i, -, hr⟩ := List.mem_flatMap.mp hr
      rcases List.mem_pair.mp hr with heq | heq <;> nomatch heq
    · cases List.mem_singleton.mp hr
      exact ⟨rfl, rfl⟩
  case write =>
    intro k n hr
    rcases List.mem_append.mp hr with hr | hr
    · obtain ⟨i, hi, hr⟩ := List.mem_flatMap.mp hr
      rcases List.mem_pair.mp hr with heq | heq
      · nomatch heq
      · cases heq
        exact ⟨⟨i, List.mem_range.mp hi, rfl⟩, rfl⟩
    · nomatch List.mem_singleton.mp hr
  case read =>
    intro k hr
    rcases List.mem_append.mp hr with hr | hr
    · obtain ⟨i, hi, hr⟩ := List.mem_flatMap.mp hr
      rcases List.mem_pair.mp hr with heq | heq
      · cases heq
        exact ⟨i, List.mem_range.mp hi, rfl⟩
      · nomatch heq
    · nomatch List.mem_singleton.mp hr

theorem PcFits.lastRound (h : PcFits d) {g : Nat} (hg : g < d.globalSessionNum) (tr : PcTrace)
    (info : PcSessInfo) : ∃ reads, reads ≤ 1 ∧
      IsRound d g reads info.nodeToWrite info.relFlag (d.lastRound tr g info) := by
  unfold Deployment.lastRound
  split
  · exact ⟨0, Nat.zero_le 1, h.initRequests hg ..⟩
  · exact ⟨1, Nat.le_refl 1, h.roundRequests hg ..⟩

/-! ## One session -/

/-- **What holds of one session**: its counters are the number of its rounds; what waits is the
    rest of the last of them; the store holds what was executed; and what the session knows of its
    producer's flag is not ahead of it. -/
structure PcLocal (d : Deployment) (tr : PcTrace) (g : Nat) (store : PcStore) (x : PcSession) :
    Prop where
  acqNum : x.info.acqNum = .ofNat (acquires tr g)
  relNum : x.info.relNum = .ofNat (releases tr g)
  nodeToWrite : x.info.nodeToWrite = ⟨d.globSessI g, .ofNat (releases tr g)⟩
  relFlag : x.info.relFlag.counter = .ofNat (releases tr g)
  inits_eq : inits tr g = if d.machineId g = 0 ∧ x.info.state ≠ .initFlags then 1 else 0
  fresh : x.info.state = .initFlags → d.machineId g = 0 ∧ acquires tr g = 0 ∧ x.queue = []
  flags : ∀ k, .readFlag k ∈ x.queue → k = d.flagToAcquire g
  waiting : x.queue.filter isRound <:+ d.lastRound tr g x.info
  releases_eq : released tr g + x.queue.countP isRelease = releases tr g
  writes_eq : ∀ i, i < pcWritesNum →
    nodeWrites d tr g i + x.queue.countP (writesTo (u32 (d.wKey g + i))) = releases tr g
  reads_eq : ∀ i, i < pcWritesNum →
    nodeReads d tr g i + x.queue.countP (readsFrom (u32 (d.rKey g + i))) = acquires tr g
  flag : (store.flag (d.flagToRelease g)).counter = .ofNat (released tr g)
  node : ∀ i, i < pcWritesNum → 0 < nodeWrites d tr g i →
    store.node (u32 (d.wKey g + i)) = ⟨d.globSessI g, .ofNat (nodeWrites d tr g i)⟩
  acqFlag : ∃ c, x.info.acqFlag.counter = .ofNat c ∧ acquires tr g ≤ c ∧
    c ≤ released tr (d.sessionToAcquireFrom g)
  nodeToRead : acquires tr g = 0 ∨ (∃ k, .readNode k ∈ x.queue) ∨
    x.info.nodeToRead = ⟨d.sessionToAcquireFrom g, .ofNat (acquires tr g)⟩

theorem countP_isRound {l : List PcReq} {p : PcReq → Bool} (hp : ∀ r, p r = true → isRound r = true) :
    (l.filter isRound).countP p = l.countP p := by
  rw [List.countP_filter]
  refine List.countP_congr fun r _ => ?_
  rw [Bool.and_eq_true]
  exact ⟨fun h => h.1, fun h => ⟨h, hp r h⟩⟩

theorem countP_of_quiet {l : List PcReq} {p : PcReq → Bool}
    (hp : ∀ r, p r = true → isRound r = true) (hl : ∀ r ∈ l, isRound r = false) :
    l.countP p = 0 := by
  refine List.countP_eq_zero.mpr fun r hr hpr => ?_
  have hround := hp r hpr
  rw [hl r hr] at hround
  nomatch hround

theorem filter_of_quiet {l : List PcReq} (hl : ∀ r ∈ l, isRound r = false) :
    l.filter isRound = [] := by
  refine List.filter_eq_nil_iff.mpr fun r hr => ?_
  rw [hl r hr]
  decide

theorem round_of_release : ∀ r, isRelease r = true → isRound r = true
  | .releaseFlag _ _, _ => rfl

theorem round_of_writes (k : Nat) : ∀ r, writesTo k r = true → isRound r = true
  | .writeNode _ _, _ => rfl

theorem round_of_reads (k : Nat) : ∀ r, readsFrom k r = true → isRound r = true
  | .readNode _, _ => rfl

namespace PcLocal

variable {tr tr' : PcTrace} {g : Nat} {store store' : PcStore} {x : PcSession}

/-- What another session does is seen in the flag of the producer only. -/
theorem frame (h : PcLocal d tr g store x) (hacq : acquires tr' g = acquires tr g)
    (hinit : inits tr' g = inits tr g) (hserved : ∀ p, servedOf tr' g p = servedOf tr g p)
    (hfrom : released tr (d.sessionToAcquireFrom g) ≤ released tr' (d.sessionToAcquireFrom g))
    (hflag : store'.flag (d.flagToRelease g) = store.flag (d.flagToRelease g))
    (hnode : ∀ i, i < pcWritesNum →
      store'.node (u32 (d.wKey g + i)) = store.node (u32 (d.wKey g + i))) :
    PcLocal d tr' g store' x := by
  have hrel : releases tr' g = releases tr g := by rw [releases, releases, hacq, hinit]
  have hdone : released tr' g = released tr g := hserved _
  have hwrites : ∀ i, nodeWrites d tr' g i = nodeWrites d tr g i := fun i => hserved _
  have hreads : ∀ i, nodeReads d tr' g i = nodeReads d tr g i := fun i => hserved _
  have hround : d.lastRound tr' g x.info = d.lastRound tr g x.info := by
    rw [Deployment.lastRound, Deployment.lastRound, hacq]
  constructor
  case acqNum => rw [hacq]; exact h.acqNum
  case relNum => rw [hrel]; exact h.relNum
  case nodeToWrite => rw [hrel]; exact h.nodeToWrite
  case relFlag => rw [hrel]; exact h.relFlag
  case inits_eq => rw [hinit]; exact h.inits_eq
  case fresh => rw [hacq]; exact h.fresh
  case flags => exact h.flags
  case waiting => rw [hround]; exact h.waiting
  case releases_eq => rw [hrel, hdone]; exact h.releases_eq
  case writes_eq => intro i hi; rw [hrel, hwrites]; exact h.writes_eq i hi
  case reads_eq => intro i hi; rw [hacq, hreads]; exact h.reads_eq i hi
  case flag => rw [hflag, hdone]; exact h.flag
  case node => intro i hi hpos; rw [hwrites] at hpos ⊢; rw [hnode i hi]; exact h.node i hi hpos
  case acqFlag =>
    obtain ⟨c, hc, hlo, hhi⟩ := h.acqFlag
    exact ⟨c, hc, by rw [hacq]; exact hlo, Nat.le_trans hhi hfrom⟩
  case nodeToRead => rw [hacq]; exact h.nodeToRead

/-- A request that waits is of the last round. -/
theorem mem_round (h : PcLocal d tr g store x) {r : PcReq} (hr : r ∈ x.queue)
    (hround : isRound r = true) : r ∈ d.lastRound tr g x.info :=
  h.waiting.subset (List.mem_filter.mpr ⟨hr, hround⟩)

theorem countP_le (h : PcLocal d tr g store x) {p : PcReq → Bool}
    (hp : ∀ r, p r = true → isRound r = true) :
    x.queue.countP p ≤ (d.lastRound tr g x.info).countP p := by
  rw [← countP_isRound hp]
  exact h.waiting.sublist.countP_le

/-- **A round that waits has its release before it.** -/
theorem released_lt (h : PcLocal d tr g store x) (hf : PcFits d) (hg : g < d.globalSessionNum)
    {r : PcReq} (hr : r ∈ x.queue) (hround : isRound r = true) :
    released tr g < releases tr g := by
  obtain ⟨reads, -, hlast⟩ := hf.lastRound hg tr x.info
  obtain ⟨l', hl'⟩ := hlast.last
  -- the last request of a suffix that is not empty is the release
  obtain ⟨t, ht⟩ := h.waiting
  have hne : x.queue.filter isRound ≠ [] := List.ne_nil_of_mem (List.mem_filter.mpr ⟨hr, hround⟩)
  have hend : (x.queue.filter isRound).getLast hne
      = .releaseFlag (d.flagToRelease g) x.info.relFlag := by
    have hsame : (t ++ x.queue.filter isRound).getLast (by simp [hne])
        = (x.queue.filter isRound).getLast hne := List.getLast_append_of_ne_nil _ hne
    rw [← hsame]
    simp only [ht, hl', List.getLast_append_singleton]
  have hmem := List.getLast_mem hne
  rw [hend] at hmem
  have hpos : 0 < x.queue.countP isRelease :=
    List.countP_pos_iff.mpr ⟨_, (List.mem_filter.mp hmem).1, rfl⟩
  have hsum := h.releases_eq
  omega

/-- A read that waits goes on waiting while something else is executed. -/
theorem read_of_cons (h : PcLocal d tr g store x) {req : PcReq} {queue : List PcReq}
    (hqueue : x.queue = req :: queue) (hne : ∀ k, req ≠ .readNode k) :
    acquires tr g = 0 ∨ (∃ k, .readNode k ∈ queue) ∨
      x.info.nodeToRead = ⟨d.sessionToAcquireFrom g, .ofNat (acquires tr g)⟩ := by
  rcases h.nodeToRead with hzero | ⟨k, hk⟩ | hread
  · exact Or.inl hzero
  · rw [hqueue] at hk
    rcases List.mem_cons.mp hk with heq | hk
    · exact absurd heq.symm (hne k)
    · exact Or.inr (Or.inl ⟨k, hk⟩)
  · exact Or.inr (Or.inr hread)

end PcLocal

theorem uint64_ne_add_one (x : UInt64) : x ≠ x + 1 := by
  intro h
  have hnat := congrArg UInt64.toNat h
  rw [UInt64.toNat_add] at hnat
  have hlt := x.toNat_lt
  have hone : (1 : UInt64).toNat = 1 := rfl
  omega

/-! ## The whole deployment -/

/-- **The invariant.**  Once its session on machine 0 is initialised, a ring has one token: a
    session `t` that was released to and has not acquired. -/
structure PcInv (d : Deployment) (tr : PcTrace) (s : PcSys) : Prop where
  here : ∀ g, g < d.globalSessionNum → PcLocal d tr g s.store (s.session g)
  token : ∀ ring, ring < d.sessionsPerMachine → ∃ t, t < d.globalSessionNum ∧
    t % d.sessionsPerMachine = ring ∧ ∀ g, g < d.globalSessionNum → g % d.sessionsPerMachine = ring →
      releases tr (d.sessionToAcquireFrom g)
        = acquires tr g + if 0 < inits tr ring ∧ g = t then 1 else 0
  outside : ∀ g, d.globalSessionNum ≤ g → (s.session g).queue = []

namespace PcInv

variable {tr : PcTrace} {s : PcSys} {g g' : Nat}

theorem outside_of_ne (h : PcInv d tr s) (hg : g < d.globalSessionNum)
    (hg' : d.globalSessionNum ≤ g') {x : PcSession} :
    (Function.update s.session g x g').queue = [] := by
  rw [Function.update_of_ne (by omega)]
  exact h.outside g' hg'

theorem releases_le (h : PcInv d tr s) (hg : g < d.globalSessionNum) :
    releases tr (d.sessionToAcquireFrom g) ≤ acquires tr g + 1 := by
  obtain ⟨t, -, -, ht⟩ := h.token (g % d.sessionsPerMachine) (Nat.mod_lt _ d.sessionsPerMachine_pos)
  rw [ht g hg rfl]
  split <;> omega

/-- **There is one token.** -/
theorem token_unique (h : PcInv d tr s) (hg : g < d.globalSessionNum) (hg' : g' < d.globalSessionNum)
    (hring : g % d.sessionsPerMachine = g' % d.sessionsPerMachine)
    (hlt : acquires tr g < releases tr (d.sessionToAcquireFrom g))
    (hlt' : acquires tr g' < releases tr (d.sessionToAcquireFrom g')) : g = g' := by
  obtain ⟨t, -, -, ht⟩ := h.token (g % d.sessionsPerMachine) (Nat.mod_lt _ d.sessionsPerMachine_pos)
  rw [ht g hg rfl] at hlt
  rw [ht g' hg' hring.symm] at hlt'
  have hgt : g = t := by
    by_contra hne
    rw [if_neg fun hc => hne hc.2] at hlt
    omega
  have hgt' : g' = t := by
    by_contra hne
    rw [if_neg fun hc => hne hc.2] at hlt'
    omega
  rw [hgt, hgt']

/-- A session with requests of a round waiting has the token behind it. -/
theorem token_behind (h : PcInv d tr s) (hf : PcFits d) (hg : g < d.globalSessionNum)
    (hg' : g' < d.globalSessionNum) (hnext : d.sessionToAcquireFrom g' = g) {r : PcReq}
    (hr : r ∈ (s.session g).queue) (hround : isRound r = true) :
    acquires tr g' < releases tr (d.sessionToAcquireFrom g') := by
  have hlt := (h.here g hg).released_lt hf hg hr hround
  obtain ⟨c, -, hlo, hhi⟩ := (h.here g' hg').acqFlag
  rw [hnext] at hhi ⊢
  omega

/-- **Nothing waits in the ring of a session that the token has been seen at.** -/
theorem quiet_of_released (h : PcInv d tr s) (hf : PcFits d) (hg : g < d.globalSessionNum)
    (hseen : acquires tr g < released tr (d.sessionToAcquireFrom g)) (hg' : g' < d.globalSessionNum)
    (hring : g' % d.sessionsPerMachine = g % d.sessionsPerMachine) {r : PcReq}
    (hr : r ∈ (s.session g').queue) : isRound r = false := by
  by_contra hround
  rw [Bool.not_eq_false] at hround
  obtain ⟨c, hc, hnext⟩ := hf.exists_consumer hg'
  have hbehind := h.token_behind hf hg' hc hnext hr hround
  have hfrom := (h.here _ (hf.from_lt hg)).releases_eq
  have hsame : c = g := by
    refine h.token_unique hc hg ?_ hbehind (by omega)
    rw [← hf.from_ring hc, hnext, hring]
  subst hsame
  -- the producer has released all it issued
  rw [← hnext] at hr
  have hlt := (h.here _ (hf.from_lt hg)).released_lt hf (hf.from_lt hg) hr hround
  have hle := h.releases_le hg
  omega

/-- **While a session reads**, its producer has written the nodes for exactly this round. -/
theorem reads_round (h : PcInv d tr s) (hf : PcFits d) (hg : g < d.globalSessionNum) {i : Nat}
    (hi : i < pcWritesNum) (hr : .readNode (u32 (d.rKey g + i)) ∈ (s.session g).queue) :
    nodeWrites d tr (d.sessionToAcquireFrom g) i = acquires tr g ∧
      nodeReads d tr g i + 1 = acquires tr g ∧
      s.store.node (u32 (d.rKey g + i))
        = ⟨d.sessionToAcquireFrom g, .ofNat (acquires tr g)⟩ := by
  have hlocal := h.here g hg
  have hfromlt := hf.from_lt hg
  have hproducer := h.here _ hfromlt
  obtain ⟨c, hc, hnext⟩ := hf.exists_consumer hg
  have hbehind := h.token_behind hf hg hc hnext hr rfl
  have hring : g % d.sessionsPerMachine = c % d.sessionsPerMachine := by
    rw [← hf.from_ring hc, hnext]
  -- the token is behind, so it is not here
  have hhere : releases tr (d.sessionToAcquireFrom g) ≤ acquires tr g := by
    by_contra hlt
    have hsame := h.token_unique hg hc hring (by omega) hbehind
    rw [← hsame] at hnext
    exact hf.from_ne hg hnext
  -- and nothing of the producer waits
  have hquiet : ∀ r ∈ (s.session (d.sessionToAcquireFrom g)).queue, isRound r = false := by
    intro r hr'
    by_contra hround
    rw [Bool.not_eq_false] at hround
    have hbehind' := h.token_behind hf hfromlt hg rfl hr' hround
    omega
  have hwrites := hproducer.writes_eq i hi
  rw [List.countP_eq_zero.mpr fun r hr' hw => by
    have hno := hquiet r hr'
    rw [round_of_writes _ r hw] at hno
    nomatch hno, Nat.add_zero] at hwrites
  have hcount : 0 < (s.session g).queue.countP (readsFrom (u32 (d.rKey g + i))) :=
    List.countP_pos_iff.mpr ⟨_, hr, by simp [readsFrom]⟩
  have hreads := hlocal.reads_eq i hi
  obtain ⟨reads, hle, hround⟩ := hf.lastRound hg tr (s.session g).info
  have hone := hlocal.countP_le (round_of_reads (u32 (d.rKey g + i)))
  rw [hround.reads_eq i hi] at hone
  have hseen : acquires tr g ≤ releases tr (d.sessionToAcquireFrom g) := by
    obtain ⟨c', -, hlo, hhi⟩ := hlocal.acqFlag
    have hsum := hproducer.releases_eq
    omega
  have hall : nodeWrites d tr (d.sessionToAcquireFrom g) i = acquires tr g := by omega
  refine ⟨hall, by omega, ?_⟩
  have hnode := hproducer.node i hi (by omega)
  rw [hf.rKey_eq hg, hnode, hall, hf.glob_eq hfromlt]

/-- **The store executes a request.** -/
theorem serve (h : PcInv d tr s) (hf : PcFits d) (hg : g < d.globalSessionNum) {b : Bool}
    {req : PcReq} {queue : List PcReq} {store : PcStore} {info : PcSessInfo} {e : PcEvent}
    (hqueue : (s.session g).queue = req :: queue)
    (hserve : pcServe s.store (s.session g).info req = (store, info, e)) :
    PcInv d (tr ++ [(.store g b, e)]) ⟨store, s.shared,
      Function.update s.session g ⟨info, queue, (s.session g).issued⟩⟩ := by
  have hmem : req ∈ (s.session g).queue := by
    rw [hqueue]
    exact List.mem_cons_self
  obtain ⟨got, rfl⟩ : ∃ got, e = .served req got := by
    cases req <;> cases hserve <;> exact ⟨_, rfl⟩
  have hacq : ∀ g', acquires (tr ++ [(.store g b, .served req got)]) g' = acquires tr g' := by
    intro g'
    rw [acquires_concat, if_neg (by simp), Nat.add_zero]
  have hinit : ∀ g', inits (tr ++ [(.store g b, .served req got)]) g' = inits tr g' := by
    intro g'
    rw [inits_concat, if_neg (by simp), Nat.add_zero]
  have hrel : ∀ g', releases (tr ++ [(.store g b, .served req got)]) g' = releases tr g' := by
    intro g'
    rw [releases, releases, hacq, hinit]
  have hserved := servedOf_store tr g b req got
  have hlocal := h.here g hg
  obtain ⟨reads, hreads, hround⟩ := hf.lastRound hg tr (s.session g).info
  -- what the request can be
  have hwrite : ∀ k n, req = .writeNode k n → ∃ i, i < pcWritesNum ∧ k = u32 (d.wKey g + i) ∧
      n = ⟨d.globSessI g, .ofNat (releases tr g)⟩ := by
    rintro k n rfl
    obtain ⟨⟨i, hi, hk⟩, hn⟩ := hround.write k n (hlocal.mem_round hmem rfl)
    exact ⟨i, hi, hk, by rw [hn, hlocal.nodeToWrite]⟩
  have hrelease : ∀ k f, req = .releaseFlag k f → k = d.flagToRelease g ∧
      f.counter = .ofNat (releases tr g) := by
    rintro k f rfl
    obtain ⟨hk, hf'⟩ := hround.release k f (hlocal.mem_round hmem rfl)
    exact ⟨hk, by rw [hf', hlocal.relFlag]⟩
  have hflags : ∀ k, (∀ f, req ≠ .releaseFlag k f) → store.flag k = s.store.flag k := by
    intro k hno
    cases req <;> cases hserve <;> try rfl
    rename_i k' f
    refine Function.update_of_ne ?_ _ _
    rintro rfl
    exact hno f rfl
  have hnodes : ∀ k, (∀ n, req ≠ .writeNode k n) → store.node k = s.store.node k := by
    intro k hno
    cases req <;> cases hserve <;> try rfl
    rename_i k' n
    refine Function.update_of_ne ?_ _ _
    rintro rfl
    exact hno n rfl
  refine ⟨fun g' hg' => ?_, fun ring hring => ?_, fun g' hg' => h.outside_of_ne hg hg'⟩
  · by_cases hne : g' = g
    · subst hne
      show PcLocal d _ g' store (Function.update s.session g' _ g')
      rw [Function.update_self]
      have hinfo : info.acqNum = (s.session g').info.acqNum ∧
          info.relNum = (s.session g').info.relNum ∧
          info.nodeToWrite = (s.session g').info.nodeToWrite ∧
          info.relFlag = (s.session g').info.relFlag ∧ info.state = (s.session g').info.state := by
        cases req <;> cases hserve <;> exact ⟨rfl, rfl, rfl, rfl, rfl⟩
      obtain ⟨hacqNum, hrelNum, hnode, hflag, hstate⟩ := hinfo
      have hsame : d.lastRound (tr ++ [(.store g' b, .served req got)]) g' info
          = d.lastRound tr g' (s.session g').info := by
        rw [Deployment.lastRound, Deployment.lastRound, hacq, hnode, hflag]
      -- a request of a kind is taken off the queue and counted as executed
      have hmove : ∀ p : PcReq → Bool,
          servedOf (tr ++ [(.store g' b, .served req got)]) g' p + queue.countP p
            = servedOf tr g' p + (s.session g').queue.countP p := by
        intro p
        rw [hserved, hqueue, List.countP_cons]
        simp only [true_and]
        omega
      constructor
      case acqNum => rw [hacq]; exact hacqNum.trans hlocal.acqNum
      case relNum => rw [hrel]; exact hrelNum.trans hlocal.relNum
      case nodeToWrite => rw [hrel]; exact hnode.trans hlocal.nodeToWrite
      case relFlag =>
        show info.relFlag.counter = _
        rw [hrel, hflag]
        exact hlocal.relFlag
      case inits_eq =>
        show inits _ g' = if d.machineId g' = 0 ∧ info.state ≠ .initFlags then 1 else 0
        rw [hinit, hstate]
        exact hlocal.inits_eq
      case fresh =>
        intro hinitial
        obtain ⟨-, -, hnil⟩ := hlocal.fresh (hstate.symm.trans hinitial)
        rw [hqueue] at hnil
        cases hnil
      case flags =>
        intro k hk
        exact hlocal.flags k (by rw [hqueue]; exact List.mem_cons_of_mem _ hk)
      case waiting =>
        show queue.filter isRound <:+ _
        rw [hsame]
        have hold := hlocal.waiting
        rw [hqueue, List.filter_cons] at hold
        split at hold
        · exact (List.suffix_cons _ _).trans hold
        · exact hold
      case releases_eq =>
        rw [hrel]
        exact (hmove isRelease).trans hlocal.releases_eq
      case writes_eq =>
        intro i hi
        rw [hrel]
        exact (hmove _).trans (hlocal.writes_eq i hi)
      case reads_eq =>
        intro i hi
        rw [hacq]
        exact (hmove _).trans (hlocal.reads_eq i hi)
      case flag =>
        have hsum := hlocal.releases_eq
        have hone := hlocal.countP_le round_of_release
        rw [hround.oneRelease] at hone
        have hdone := hserved g' isRelease
        cases hreq : isRelease req with
        | false =>
          rw [hflags _ fun f hc => by rw [hc] at hreq; nomatch hreq]
          rw [hreq, if_neg (by simp), Nat.add_zero] at hdone
          rw [released, hdone]
          exact hlocal.flag
        | true =>
          obtain ⟨k, f, rfl⟩ : ∃ k f, req = .releaseFlag k f := by
            cases req <;> first | exact ⟨_, _, rfl⟩ | exact absurd hreq (by simp [isRelease])
          obtain ⟨hk, hcounter⟩ := hrelease k f rfl
          cases hserve
          rw [hqueue, List.countP_cons, if_pos hreq] at hsum hone
          rw [hreq, if_pos ⟨rfl, rfl⟩] at hdone
          have hall : servedOf (tr ++ [(.store g' b, .served (.releaseFlag k f) none)]) g' isRelease
              = releases tr g' := by
            rw [hdone]
            unfold released at hsum
            omega
          show (Function.update s.store.flag k f (d.flagToRelease g')).counter = _
          rw [← hk, Function.update_self, hcounter, released, hall]
      case node =>
        intro i hi hpos
        have hsum := hlocal.writes_eq i hi
        have hone := hlocal.countP_le (round_of_writes (u32 (d.wKey g' + i)))
        rw [hround.oneWrite i hi] at hone
        have hdone := hserved g' (writesTo (u32 (d.wKey g' + i)))
        cases hreq : writesTo (u32 (d.wKey g' + i)) req with
        | false =>
          rw [hnodes _ fun n hc => by rw [hc] at hreq; simp [writesTo] at hreq]
          rw [hreq, if_neg (by simp), Nat.add_zero] at hdone
          rw [nodeWrites, hdone] at hpos ⊢
          exact hlocal.node i hi hpos
        | true =>
          obtain ⟨k, n, rfl⟩ : ∃ k n, req = .writeNode k n := by
            cases req <;> first | exact ⟨_, _, rfl⟩ | exact absurd hreq (by simp [writesTo])
          have hk : k = u32 (d.wKey g' + i) := by simpa [writesTo] using hreq
          obtain ⟨-, -, -, hn⟩ := hwrite k n rfl
          cases hserve
          rw [hqueue, List.countP_cons, if_pos hreq] at hsum hone
          rw [hreq, if_pos ⟨rfl, rfl⟩] at hdone
          have hall : nodeWrites d (tr ++ [(.store g' b, .served (.writeNode k n) none)]) g' i
              = releases tr g' := by
            unfold nodeWrites at hsum ⊢
            omega
          show Function.update s.store.node k n (u32 (d.wKey g' + i)) = _
          rw [hall, ← hk, Function.update_self, hn]
      case acqFlag =>
        have hfrom : released (tr ++ [(.store g' b, .served req got)]) (d.sessionToAcquireFrom g')
            = released tr (d.sessionToAcquireFrom g') := by
          rw [released, hserved, if_neg fun hc => hf.from_ne hg hc.1.symm, Nat.add_zero]
          rfl
        rw [hacq, hfrom]
        obtain ⟨c, hc, hlo, hhi⟩ := hlocal.acqFlag
        cases req with
        | readFlag k =>
          cases hserve
          have hk := hlocal.flags k hmem
          refine ⟨released tr (d.sessionToAcquireFrom g'), ?_, by omega, Nat.le_refl _⟩
          show (s.store.flag k).counter = _
          rw [hk, hf.flagToAcquire_eq hg]
          exact (h.here _ (hf.from_lt hg)).flag
        | readNode k => cases hserve; exact ⟨c, hc, hlo, hhi⟩
        | writeNode k n => cases hserve; exact ⟨c, hc, hlo, hhi⟩
        | releaseFlag k f => cases hserve; exact ⟨c, hc, hlo, hhi⟩
      case nodeToRead =>
        rw [hacq]
        cases req with
        | readNode k =>
          cases hserve
          obtain ⟨i, hi, rfl⟩ := hround.read k (hlocal.mem_round hmem rfl)
          exact Or.inr (Or.inr (h.reads_round hf hg hi hmem).2.2)
        | readFlag k => cases hserve; exact hlocal.read_of_cons hqueue (by simp)
        | writeNode k n => cases hserve; exact hlocal.read_of_cons hqueue (by simp)
        | releaseFlag k f => cases hserve; exact hlocal.read_of_cons hqueue (by simp)
    · show PcLocal d _ g' store (Function.update s.session g _ g')
      rw [Function.update_of_ne hne]
      refine (h.here g' hg').frame (hacq g') (hinit g') (fun p => ?_) ?_ ?_ fun i hi => ?_
      · rw [hserved, if_neg fun hc => hne hc.1.symm, Nat.add_zero]
      · rw [released, released, hserved]
        exact Nat.le_add_right ..
      · refine hflags _ fun f hreq => ?_
        obtain ⟨hk, -⟩ := hrelease _ f hreq
        rw [hf.flagToRelease_eq hg, hf.flagToRelease_eq hg'] at hk
        exact hne (by omega)
      · refine hnodes _ fun n hreq => ?_
        obtain ⟨j, hj, hk, -⟩ := hwrite _ n hreq
        exact hne (hf.wKey_inj hg' hg hi hj hk).1
  · obtain ⟨t, ht, htr, hall⟩ := h.token ring hring
    refine ⟨t, ht, htr, fun g' hg' hcol => ?_⟩
    rw [hrel, hacq, hinit]
    exact hall g' hg' hcol

/-- Other sessions do not notice a pass. -/
theorem pass_frame (h : PcInv d tr s) {e : PcEvent} {g' : Nat} (hg' : g' < d.globalSessionNum)
    (hne : g' ≠ g) : PcLocal d (tr ++ [(.client g, e)]) g' s.store (s.session g') := by
  refine (h.here g' hg').frame ?_ ?_ (fun p => servedOf_client ..) ?_ rfl fun _ _ => rfl
  · rw [acquires_concat, if_neg fun hc => hne (by cases hc; rfl), Nat.add_zero]
  · rw [inits_concat, if_neg fun hc => hne (by cases hc; rfl), Nat.add_zero]
  · rw [released, released, servedOf_client]

/-- **A pass that begins no round.** -/
theorem moved (h : PcInv d tr s) (hg : g < d.globalSessionNum) {info : PcSessInfo}
    {requests : List PcReq} (hflags : ∀ r ∈ requests, r = .readFlag (d.flagToAcquire g))
    (hrunning : (s.session g).info.state ≠ .initFlags) (hstate : info.state ≠ .initFlags)
    (hinfo : info = { (s.session g).info with state := info.state, lastReqId := info.lastReqId }) :
    PcInv d (tr ++ [(.client g, .moved)]) ⟨s.store, s.shared, Function.update s.session g
      ⟨info, (s.session g).queue ++ requests, (s.session g).issued + requests.length⟩⟩ := by
  have hlocal := h.here g hg
  have hacq : ∀ g', acquires (tr ++ [(.client g, .moved)]) g' = acquires tr g' := by
    intro g'
    rw [acquires_concat, if_neg (by simp), Nat.add_zero]
  have hinit : ∀ g', inits (tr ++ [(.client g, .moved)]) g' = inits tr g' := by
    intro g'
    rw [inits_concat, if_neg (by simp), Nat.add_zero]
  have hrel : ∀ g', releases (tr ++ [(.client g, .moved)]) g' = releases tr g' := by
    intro g'
    rw [releases, releases, hacq, hinit]
  have hquiet : ∀ r ∈ requests, isRound r = false := fun r hr => by
    rw [hflags r hr]
    rfl
  have hcount : ∀ p : PcReq → Bool, (∀ r, p r = true → isRound r = true) →
      ((s.session g).queue ++ requests).countP p = (s.session g).queue.countP p := by
    intro p hp
    rw [List.countP_append, countP_of_quiet hp hquiet, Nat.add_zero]
  refine ⟨fun g' hg' => ?_, fun ring hring => ?_, fun g' hg' => h.outside_of_ne hg hg'⟩
  · by_cases hne : g' = g
    · subst hne
      show PcLocal d _ g' s.store (Function.update s.session g' _ g')
      rw [Function.update_self]
      have hround : d.lastRound (tr ++ [(.client g', .moved)]) g' info
          = d.lastRound tr g' (s.session g').info := by
        rw [Deployment.lastRound, Deployment.lastRound, hacq, hinfo]
      have hserved : ∀ p, servedOf (tr ++ [(.client g', .moved)]) g' p = servedOf tr g' p :=
        fun p => servedOf_client ..
      constructor
      case acqNum => rw [hacq, hinfo]; exact hlocal.acqNum
      case relNum => rw [hrel, hinfo]; exact hlocal.relNum
      case nodeToWrite => rw [hrel, hinfo]; exact hlocal.nodeToWrite
      case relFlag => rw [hrel, hinfo]; exact hlocal.relFlag
      case inits_eq =>
        show inits _ g' = if d.machineId g' = 0 ∧ info.state ≠ .initFlags then 1 else 0
        rw [hinit, hlocal.inits_eq]
        simp only [ne_eq, hrunning, hstate]
      case fresh => exact fun hc => absurd hc hstate
      case flags =>
        intro k hk
        rcases List.mem_append.mp hk with hk | hk
        · exact hlocal.flags k hk
        · cases hflags _ hk
          rfl
      case waiting =>
        show ((s.session g').queue ++ requests).filter isRound <:+ _
        rw [hround, List.filter_append, filter_of_quiet hquiet, List.append_nil]
        exact hlocal.waiting
      case releases_eq =>
        show _ + ((s.session g').queue ++ requests).countP isRelease = _
        rw [hrel, released, hserved, hcount _ round_of_release]
        exact hlocal.releases_eq
      case writes_eq =>
        intro i hi
        show _ + ((s.session g').queue ++ requests).countP _ = _
        rw [hrel, nodeWrites, hserved, hcount _ (round_of_writes _)]
        exact hlocal.writes_eq i hi
      case reads_eq =>
        intro i hi
        show _ + ((s.session g').queue ++ requests).countP _ = _
        rw [hacq, nodeReads, hserved, hcount _ (round_of_reads _)]
        exact hlocal.reads_eq i hi
      case flag => rw [released, hserved]; exact hlocal.flag
      case node =>
        intro i hi
        rw [nodeWrites, hserved]
        exact hlocal.node i hi
      case acqFlag => rw [hacq, released, servedOf_client, hinfo]; exact hlocal.acqFlag
      case nodeToRead =>
        rw [hacq, hinfo]
        rcases hlocal.nodeToRead with hzero | ⟨k, hk⟩ | hread
        · exact Or.inl hzero
        · exact Or.inr (Or.inl ⟨k, List.mem_append_left _ hk⟩)
        · exact Or.inr (Or.inr hread)
    · show PcLocal d _ g' s.store (Function.update s.session g _ g')
      rw [Function.update_of_ne hne]
      exact h.pass_frame hg' hne
  · obtain ⟨t, ht, htr, hall⟩ := h.token ring hring
    refine ⟨t, ht, htr, fun g' hg' hcol => ?_⟩
    rw [hrel, hacq, hinit]
    exact hall g' hg' hcol

/-- **Going round with the token.**  Issuing the requests of a round, or of `pc_init_flags`. -/
theorem issued (h : PcInv d tr s) (hg : g < d.globalSessionNum) {e : PcEvent}
    {info : PcSessInfo} (polls : List PcReq) {round : List PcReq} {reads : Nat}
    (he : (e = .acquired ∧ reads = 1) ∨ (e = .initialised ∧ reads = 0 ∧ acquires tr g = 0))
    (hacq : acquires (tr ++ [(.client g, e)]) g = acquires tr g + reads)
    (hrel : releases (tr ++ [(.client g, e)]) g = releases tr g + 1)
    (hquiet : ∀ r ∈ (s.session g).queue, isRound r = false)
    (hpolls : ∀ r ∈ polls, r = .readFlag (d.flagToAcquire g))
    (hround : round = d.lastRound (tr ++ [(.client g, e)]) g info)
    (hkind : IsRound d g reads info.nodeToWrite info.relFlag round)
    (hacqNum : info.acqNum = .ofNat (acquires tr g + reads))
    (hrelNum : info.relNum = .ofNat (releases tr g + 1))
    (hnode : info.nodeToWrite = ⟨d.globSessI g, .ofNat (releases tr g + 1)⟩)
    (hflag : info.relFlag.counter = .ofNat (releases tr g + 1))
    (hinits : inits (tr ++ [(.client g, e)]) g = if d.machineId g = 0 then 1 else 0)
    (hstate : info.state ≠ .initFlags)
    (hseen : ∃ c, info.acqFlag.counter = .ofNat c ∧ acquires tr g + reads ≤ c ∧
      c ≤ released tr (d.sessionToAcquireFrom g)) :
    PcLocal d (tr ++ [(.client g, e)]) g s.store
      ⟨info, (s.session g).queue ++ (polls ++ round),
        (s.session g).issued + (polls ++ round).length⟩ := by
  have hlocal := h.here g hg
  have hserved : ∀ p, servedOf (tr ++ [(.client g, e)]) g p = servedOf tr g p :=
    fun p => servedOf_client ..
  have hpolls' : ∀ r ∈ polls, isRound r = false := fun r hr => by
    rw [hpolls r hr]
    rfl
  -- of a kind of the round, what waits is what was issued just now
  have hcount : ∀ p : PcReq → Bool, (∀ r, p r = true → isRound r = true) →
      ((s.session g).queue ++ (polls ++ round)).countP p = round.countP p := by
    intro p hp
    rw [List.countP_append, List.countP_append, countP_of_quiet hp hquiet,
      countP_of_quiet hp hpolls', Nat.zero_add, Nat.zero_add]
  have hnone : ∀ p : PcReq → Bool, (∀ r, p r = true → isRound r = true) →
      (s.session g).queue.countP p = 0 := fun p hp => countP_of_quiet hp hquiet
  constructor
  case acqNum => rw [hacq]; exact hacqNum
  case relNum => rw [hrel]; exact hrelNum
  case nodeToWrite => rw [hrel]; exact hnode
  case relFlag => rw [hrel]; exact hflag
  case inits_eq =>
    show _ = if d.machineId g = 0 ∧ info.state ≠ .initFlags then 1 else 0
    rw [hinits]
    simp only [ne_eq, hstate, not_false_eq_true, and_true]
  case fresh => exact fun hc => absurd hc hstate
  case flags =>
    intro k hk
    rcases List.mem_append.mp hk with hk | hk
    · exact hlocal.flags k hk
    · rcases List.mem_append.mp hk with hk | hk
      · cases hpolls _ hk
        rfl
      · nomatch hkind.round _ hk
  case waiting =>
    show ((s.session g).queue ++ (polls ++ round)).filter isRound <:+ _
    rw [← hround, List.filter_append, List.filter_append, filter_of_quiet hquiet,
      filter_of_quiet hpolls', List.filter_eq_self.mpr hkind.round]
    exact List.suffix_refl _
  case releases_eq =>
    have hold := hlocal.releases_eq
    show _ + ((s.session g).queue ++ (polls ++ round)).countP isRelease = _
    rw [hrel, released, hserved, hcount _ round_of_release, hkind.oneRelease]
    rw [hnone _ round_of_release] at hold
    exact congrArg (· + 1) hold
  case writes_eq =>
    intro i hi
    have hold := hlocal.writes_eq i hi
    show _ + ((s.session g).queue ++ (polls ++ round)).countP _ = _
    rw [hrel, nodeWrites, hserved, hcount _ (round_of_writes _), hkind.oneWrite i hi]
    rw [hnone _ (round_of_writes _)] at hold
    exact congrArg (· + 1) hold
  case reads_eq =>
    intro i hi
    have hold := hlocal.reads_eq i hi
    show _ + ((s.session g).queue ++ (polls ++ round)).countP _ = _
    rw [hacq, nodeReads, hserved, hcount _ (round_of_reads _), hkind.reads_eq i hi]
    rw [hnone _ (round_of_reads _)] at hold
    exact congrArg (· + reads) hold
  case flag => rw [released, hserved]; exact hlocal.flag
  case node =>
    intro i hi
    rw [nodeWrites, hserved]
    exact hlocal.node i hi
  case acqFlag =>
    rw [hacq, released, servedOf_client]
    exact hseen
  case nodeToRead =>
    rcases he with ⟨-, hreads⟩ | ⟨-, hreads, hzero⟩
    · refine Or.inr (Or.inl ⟨u32 (d.rKey g + 0), List.mem_append_right _
        (List.mem_append_right _ ?_)⟩)
      have hpos : 0 < round.countP (readsFrom (u32 (d.rKey g + 0))) := by
        rw [hkind.reads_eq 0 (by decide), hreads]
        exact Nat.one_pos
      obtain ⟨r, hr, hr'⟩ := List.countP_pos_iff.mp hpos
      cases r with
      | readNode k =>
        have hk : k = u32 (d.rKey g + 0) := by simpa [readsFrom] using hr'
        rw [← hk]
        exact hr
      | readFlag k => nomatch hr'
      | writeNode k n => nomatch hr'
      | releaseFlag k f => nomatch hr'
    · left
      rw [hacq, hreads, hzero]

/-- **The token moves on** when a round begins, and comes into the ring with `pc_init_flags`. -/
theorem token_moves (h : PcInv d tr s) (hf : PcFits d) (hg : g < d.globalSessionNum) {e : PcEvent}
    {reads : Nat}
    (hacq : ∀ y, acquires (tr ++ [(.client g, e)]) y = acquires tr y + if y = g then reads else 0)
    (hrel : ∀ y, releases (tr ++ [(.client g, e)]) y = releases tr y + if y = g then 1 else 0)
    (hbefore : ∀ y, y < d.globalSessionNum → y % d.sessionsPerMachine = g % d.sessionsPerMachine →
      releases tr (d.sessionToAcquireFrom y) = acquires tr y + if y = g then reads else 0)
    (hinit : 0 < inits (tr ++ [(.client g, e)]) (g % d.sessionsPerMachine))
    (hother : ∀ ring, ring ≠ g % d.sessionsPerMachine → inits (tr ++ [(.client g, e)]) ring
      = inits tr ring) (ring : Nat) (hring : ring < d.sessionsPerMachine) :
    ∃ t, t < d.globalSessionNum ∧ t % d.sessionsPerMachine = ring ∧
      ∀ y, y < d.globalSessionNum → y % d.sessionsPerMachine = ring →
        releases (tr ++ [(.client g, e)]) (d.sessionToAcquireFrom y)
          = acquires (tr ++ [(.client g, e)]) y
            + if 0 < inits (tr ++ [(.client g, e)]) ring ∧ y = t then 1 else 0 := by
  by_cases hcol : ring = g % d.sessionsPerMachine
  · subst hcol
    obtain ⟨c, hc, hnext⟩ := hf.exists_consumer hg
    refine ⟨c, hc, by rw [← hf.from_ring hc, hnext], fun y hy hyring => ?_⟩
    rw [hrel, hacq, hbefore y hy hyring]
    by_cases hyc : y = c
    · subst hyc
      have hne : y ≠ g := fun hcontra => hf.from_ne hy (by rw [hnext, hcontra])
      rw [if_neg hne, if_pos hnext, if_pos ⟨hinit, rfl⟩]
    · have hne : d.sessionToAcquireFrom y ≠ g := fun hcontra =>
        hyc (hf.from_inj hy hc (hcontra.trans hnext.symm))
      have hno : ¬(0 < inits (tr ++ [(.client g, e)]) (g % d.sessionsPerMachine) ∧ y = c) :=
        fun hcontra => hyc hcontra.2
      rw [if_neg hne, if_neg hno]
  · obtain ⟨t, ht, htr, hall⟩ := h.token ring hring
    refine ⟨t, ht, htr, fun y hy hyring => ?_⟩
    have hne : y ≠ g := by
      rintro rfl
      exact hcol hyring.symm
    have hne' : d.sessionToAcquireFrom y ≠ g := by
      intro hcontra
      rw [← hcontra, hf.from_ring hy] at hcol
      exact hcol hyring.symm
    rw [hrel, hacq, if_neg hne, if_neg hne', hother ring hcol]
    exact hall y hy hyring

/-- What one more pass counts for. -/
theorem counts_initialised (tr : PcTrace) (g y : Nat) :
    acquires (tr ++ [(.client g, .initialised)]) y = acquires tr y ∧
      inits (tr ++ [(.client g, .initialised)]) y = inits tr y + if y = g then 1 else 0 := by
  rw [acquires_concat, inits_concat]
  refine ⟨by simp, ?_⟩
  by_cases hy : y = g
  · rw [if_pos (by rw [hy]), if_pos hy]
  · rw [if_neg fun hc => hy (by cases hc; rfl), if_neg hy]

theorem counts_acquired (tr : PcTrace) (g y : Nat) :
    acquires (tr ++ [(.client g, .acquired)]) y = acquires tr y + (if y = g then 1 else 0) ∧
      inits (tr ++ [(.client g, .acquired)]) y = inits tr y := by
  rw [acquires_concat, inits_concat]
  refine ⟨?_, by simp⟩
  by_cases hy : y = g
  · rw [if_pos (by rw [hy]), if_pos hy]
  · rw [if_neg fun hc => hy (by cases hc; rfl), if_neg hy]

/-- **`pc_init_flags`.** -/
theorem initialised (h : PcInv d tr s) (hf : PcFits d) (hg : g < d.globalSessionNum)
    (hstate : (s.session g).info.state = .initFlags) {info : PcSessInfo} {requests : List PcReq}
    (hinit : d.pcInitFlags g (s.session g).info = (info, requests)) :
    PcInv d (tr ++ [(.client g, .initialised)]) ⟨s.store, s.shared, Function.update s.session g
      ⟨info, (s.session g).queue ++ requests, (s.session g).issued + requests.length⟩⟩ := by
  have hlocal := h.here g hg
  obtain ⟨hmachine, hzero, hnil⟩ := hlocal.fresh hstate
  have hinits := hlocal.inits_eq
  rw [if_neg fun hc => hc.2 hstate] at hinits
  have hfirst : releases tr g = 0 := by rw [releases, hzero, hinits]
  have hcounts := counts_initialised tr g
  have hacq : ∀ y, acquires (tr ++ [(.client g, .initialised)]) y
      = acquires tr y + if y = g then 0 else 0 := fun y => by rw [(hcounts y).1, ite_self]; rfl
  have hrel : ∀ y, releases (tr ++ [(.client g, .initialised)]) y
      = releases tr y + if y = g then 1 else 0 := fun y => by
    rw [releases, releases, (hcounts y).1, (hcounts y).2, Nat.add_assoc]
  have hring : g % d.sessionsPerMachine = g := by
    have hdiv := Nat.div_add_mod g d.sessionsPerMachine
    rw [show g / d.sessionsPerMachine = 0 from hmachine, Nat.mul_zero, Nat.zero_add] at hdiv
    exact hdiv
  cases hinit
  refine ⟨fun g' hg' => ?_, h.token_moves hf hg hacq hrel ?_ ?_ ?_,
    fun g' hg' => h.outside_of_ne hg hg'⟩
  · by_cases hne : g' = g
    · subst hne
      show PcLocal d _ g' s.store (Function.update s.session g' _ g')
      rw [Function.update_self]
      obtain ⟨c, hc, hlo, hhi⟩ := hlocal.acqFlag
      refine h.issued hg [] (Or.inr ⟨rfl, rfl, hzero⟩) (hcounts g').1
        (by rw [hrel, if_pos rfl]) (fun r hr => by rw [hnil] at hr; nomatch hr)
        (fun r hr => nomatch hr) ?_ (hf.initRequests hg ..) hlocal.acqNum ?_ ?_ ?_ ?_
        (fun hc => nomatch hc) ⟨c, hc, hlo, hhi⟩
      · rw [Deployment.lastRound, (hcounts g').1, if_pos hzero]
        rfl
      · rw [hfirst]; rfl
      · rw [hfirst]; rfl
      · rw [hfirst]; rfl
      · rw [(hcounts g').2, hinits, if_pos rfl, if_pos hmachine]
    · show PcLocal d _ g' s.store (Function.update s.session g _ g')
      rw [Function.update_of_ne hne]
      exact h.pass_frame hg' hne
  · -- without a token, every session has acquired all that was released
    intro y hy hyring
    obtain ⟨t, -, -, hall⟩ := h.token (g % d.sessionsPerMachine)
      (Nat.mod_lt _ d.sessionsPerMachine_pos)
    rw [hall y hy hyring, hring, hinits, if_neg fun hc => Nat.lt_irrefl 0 hc.1, ite_self]
  · rw [hring, (hcounts g).2, if_pos rfl]
    exact Nat.succ_pos _
  · intro ring hne
    rw [(hcounts ring).2, if_neg (by rw [hring] at hne; exact hne), Nat.add_zero]

/-- **A round begins.** -/
theorem acquired (h : PcInv d tr s) (hf : PcFits d) (hg : g < d.globalSessionNum)
    (hseen : (s.session g).info.acqFlag.counter = (s.session g).info.acqNum + 1)
    (hstate : (s.session g).info.state ≠ .initFlags) {info : PcSessInfo}
    (hinfo : info = { (s.session g).info with
      nodeToWrite := { (s.session g).info.nodeToWrite with
        timesWritten := (s.session g).info.nodeToWrite.timesWritten + 1 }
      relFlag := { (s.session g).info.relFlag with
        counter := (s.session g).info.relFlag.counter + 1 }
      acqNum := (s.session g).info.acqNum + 1
      relNum := (s.session g).info.relNum + 1
      state := .pollLocalStore })
    {requests : List PcReq} (hreq : requests = .readFlag (d.flagToAcquire g) ::
      d.roundRequests g info.nodeToWrite info.relFlag) :
    PcInv d (tr ++ [(.client g, .acquired)]) ⟨s.store, s.shared, Function.update s.session g
      ⟨info, (s.session g).queue ++ requests, (s.session g).issued + requests.length⟩⟩ := by
  have hlocal := h.here g hg
  have hfrom := h.here _ (hf.from_lt hg)
  have hcounts := counts_acquired tr g
  have hrel : ∀ y, releases (tr ++ [(.client g, .acquired)]) y
      = releases tr y + if y = g then 1 else 0 := fun y => by
    rw [releases, releases, (hcounts y).1, (hcounts y).2]
    omega
  -- the flag that was seen is the one of the round that is next
  obtain ⟨c, hc, hlo, hhi⟩ := hlocal.acqFlag
  have hle := h.releases_le hg
  have hsum := hfrom.releases_eq
  have hnext : c = acquires tr g + 1 := by
    by_contra hne
    have hsame : c = acquires tr g := by omega
    rw [hc, hlocal.acqNum, hsame] at hseen
    exact uint64_ne_add_one _ hseen
  have htoken : acquires tr g < releases tr (d.sessionToAcquireFrom g) := by omega
  obtain ⟨t, ht, -, hall⟩ := h.token (g % d.sessionsPerMachine)
    (Nat.mod_lt _ d.sessionsPerMachine_pos)
  have hhere : 0 < inits tr (g % d.sessionsPerMachine) ∧ g = t := by
    by_contra hno
    rw [hall g hg rfl, if_neg hno] at htoken
    exact Nat.lt_irrefl _ htoken
  have hquiet : ∀ r ∈ (s.session g).queue, isRound r = false := fun r hr =>
    h.quiet_of_released hf hg (by omega) hg rfl hr
  refine ⟨fun g' hg' => ?_, h.token_moves hf hg (fun y => (hcounts y).1) hrel ?_ ?_ ?_,
    fun g' hg' => h.outside_of_ne hg hg'⟩
  · by_cases hne : g' = g
    · subst hne
      show PcLocal d _ g' s.store (Function.update s.session g' _ g')
      rw [Function.update_self, hreq]
      have hround := hf.roundRequests hg info.nodeToWrite info.relFlag
      have hrounds : acquires (tr ++ [(.client g', .acquired)]) g' = acquires tr g' + 1 := by
        rw [(hcounts g').1, if_pos rfl]
      refine h.issued hg [.readFlag (d.flagToAcquire g')] (Or.inl ⟨rfl, rfl⟩) hrounds
        (by rw [hrel, if_pos rfl]) hquiet (fun r hr => List.mem_singleton.mp hr) ?_ hround
        ?_ ?_ ?_ ?_ ?_ ?_ ⟨c, ?_, by omega, hhi⟩
      · rw [Deployment.lastRound, hrounds, if_neg (Nat.succ_ne_zero _)]
        rfl
      · rw [hinfo, UInt64.ofNat_add]
        exact congrArg (· + 1) hlocal.acqNum
      · rw [hinfo, UInt64.ofNat_add]
        exact congrArg (· + 1) hlocal.relNum
      · rw [hinfo, hlocal.nodeToWrite, UInt64.ofNat_add]
        rfl
      · rw [hinfo, UInt64.ofNat_add]
        exact congrArg (· + 1) hlocal.relFlag
      · rw [(hcounts g').2, hlocal.inits_eq]
        simp only [hstate, ne_eq, not_false_eq_true, and_true]
      · rw [hinfo]
        exact fun hcontra => nomatch hcontra
      · rw [hinfo]
        exact hc
    · show PcLocal d _ g' s.store (Function.update s.session g _ g')
      rw [Function.update_of_ne hne]
      exact h.pass_frame hg' hne
  · intro y hy hyring
    rw [hall y hy hyring, ← hhere.2]
    simp only [hhere.1, true_and]
  · rw [(hcounts _).2]
    exact hhere.1
  · intro ring _
    exact (hcounts ring).2

/-- **Every step keeps the invariant.** -/
theorem step (h : PcInv d tr s) (hf : PcFits d) {k : Turn} {s' : PcSys} {e : PcEvent}
    (hstep : d.pcService.step s k = .ok (s', e)) : PcInv d (tr ++ [(k, e)]) s' := by
  rcases Service.step_cases hstep with ⟨g, c, info, requests, rfl, hpass, rfl⟩ |
    ⟨g, b, req, queue, store, info, rfl, hqueue, hserve, rfl⟩
  · simp only [Deployment.pcService] at hpass
    split at hpass
    · rename_i hg
      obtain ⟨⟨info', requests', e'⟩, hmove, hret⟩ := bind_eq_ok.mp hpass
      cases hret
      clear hpass
      have hshared : Function.update s.shared (d.pcService.clientOf g) () = s.shared :=
        funext fun _ => rfl
      rw [hshared]
      unfold Deployment.pcPass at hmove
      split at hmove
      · rename_i hstate
        cases hmove
        exact h.initialised hf hg hstate rfl
      · rename_i hstate
        cases hmove
        exact h.moved hg (fun r hr => List.mem_singleton.mp hr) (by rw [hstate]; exact fun hc => by cases hc)
          (fun hc => by cases hc) rfl
      · rename_i hstate
        have hrunning : (s.session g).info.state ≠ .initFlags := by
          rw [hstate]
          exact fun hc => by cases hc
        obtain ⟨-, -, hmove⟩ := bind_eq_ok.mp hmove
        split at hmove
        · cases hmove
          exact h.moved hg (fun r hr => by cases hr) hrunning (fun hc => by cases hc) rfl
        · rename_i hseen
          simp only [Deployment.beginRound] at hmove
          split at hmove
          · cases hmove
          · split at hmove
            · cases hmove
            · cases hmove
              exact h.acquired hf hg (not_not.mp hseen) hrunning rfl rfl
    · cases hpass
  · have hg : g < d.globalSessionNum := by
      by_contra hg
      rw [h.outside g (Nat.le_of_not_lt hg)] at hqueue
      cases hqueue
    exact h.serve hf hg hqueue hserve

/-- The benchmark starts without a token. -/
theorem start (hf : PcFits d) : PcInv d [] d.pcStart := by
  refine ⟨fun g hg => ?_, fun ring hring => ?_, fun _ _ => rfl⟩
  · constructor
    case acqFlag => exact ⟨0, rfl, Nat.le_refl 0, Nat.zero_le _⟩
    case fresh =>
      intro hstate
      refine ⟨?_, rfl, rfl⟩
      by_contra hmachine
      simp only [Deployment.pcStart, Deployment.pcSessInfo, if_neg hmachine] at hstate
      nomatch hstate
    case inits_eq =>
      show 0 = if _ then 1 else 0
      rw [if_neg]
      rintro ⟨hmachine, hstate⟩
      simp only [Deployment.pcStart, Deployment.pcSessInfo, if_pos hmachine] at hstate
      exact hstate rfl
    case flags => exact fun _ hk => nomatch hk
    case waiting => exact List.nil_suffix
    case node => exact fun _ _ hpos => absurd hpos (Nat.lt_irrefl 0)
    case nodeToRead => exact Or.inl rfl
    case writes_eq => exact fun _ _ => rfl
    case reads_eq => exact fun _ _ => rfl
    all_goals rfl
  · have hrows := hf.two_rows
    refine ⟨ring, by omega, Nat.mod_eq_of_lt hring, fun g _ _ => ?_⟩
    rfl

/-- **Every run keeps the invariant.** -/
theorem run (hf : PcFits d) (hrun : Run d.pcService.step d.pcStart tr s) : PcInv d tr s :=
  hrun.invariant (fun tr s => PcInv d tr s) (start hf) fun _ _ _ _ _ _ h hstep => h.step hf hstep

end PcInv

/-! ## What the claim says -/

/-- `rel_num` of the producer of a session, less the `acq_num` of the session. -/
def Deployment.pcAhead (d : Deployment) (s : PcSys) (g : Nat) : UInt64 :=
  (s.session (d.sessionToAcquireFrom g)).info.relNum - (s.session g).info.acqNum

/-- The sessions of a ring, machine by machine. -/
theorem pc_ring_lt {ring k : Nat} (hring : ring < d.sessionsPerMachine)
    (hk : k < d.machineNum) : ring + d.sessionsPerMachine * k < d.globalSessionNum := by
  have hrow : (k + 1) * d.sessionsPerMachine ≤ d.globalSessionNum := Nat.mul_le_mul_right _ hk
  rw [Nat.succ_mul, Nat.mul_comm] at hrow
  omega

namespace PcInv

variable {tr : PcTrace} {s : PcSys}

/-- The token, in the counters of the sessions. -/
theorem ahead_eq (h : PcInv d tr s) (hf : PcFits d) {ring : Nat} (hring : ring < d.sessionsPerMachine)
    (hinit : (s.session ring).info.state ≠ .initFlags) : ∃ t, t < d.machineNum ∧
      ∀ k, k < d.machineNum → (d.pcAhead s (ring + d.sessionsPerMachine * k)).toNat
        = if k = t then 1 else 0 := by
  have hrows := hf.two_rows
  obtain ⟨t, ht, htr, hall⟩ := h.token ring hring
  have hmachine : d.machineId ring = 0 := Nat.div_eq_of_lt hring
  have hinits := (h.here ring (by omega)).inits_eq
  rw [if_pos ⟨hmachine, hinit⟩] at hinits
  have hsplit : ring + d.sessionsPerMachine * (t / d.sessionsPerMachine) = t := by
    have hdiv := Nat.mod_add_div t d.sessionsPerMachine
    rw [htr] at hdiv
    exact hdiv
  refine ⟨t / d.sessionsPerMachine, (Nat.div_lt_iff_lt_mul d.sessionsPerMachine_pos).mpr ht,
    fun k hk => ?_⟩
  have hg := pc_ring_lt hring hk
  have hcol : (ring + d.sessionsPerMachine * k) % d.sessionsPerMachine = ring := by
    rw [Nat.add_mul_mod_self_left, Nat.mod_eq_of_lt hring]
  have hnum := hall _ hg hcol
  rw [Deployment.pcAhead, (h.here _ (hf.from_lt hg)).relNum, (h.here _ hg).acqNum, hnum,
    UInt64.ofNat_add, UInt64.add_comm (.ofNat _), UInt64.add_sub_cancel]
  have hsame : ring + d.sessionsPerMachine * k = t ↔ k = t / d.sessionsPerMachine := by
    constructor
    · intro heq
      rw [← heq, Nat.add_mul_div_left _ _ d.sessionsPerMachine_pos, Nat.div_eq_of_lt hring,
        Nat.zero_add]
    · intro heq
      rw [heq, hsplit]
  by_cases hk' : k = t / d.sessionsPerMachine
  · rw [if_pos ⟨by omega, hsame.mpr hk'⟩, if_pos hk']
    rfl
  · rw [if_neg fun hc => hk' (hsame.mp hc.2), if_neg hk']
    rfl

end PcInv

/-- **THE BENCHMARK IS CORRECT**, over any number of rounds: in a ring that is initialised exactly
    one session is ahead of its consumer, and by one; the flag of a session in the store is its
    `rel_num`, or the release waits; and what a session reads in its `n`-th round is what its
    producer wrote for the `n`-th time. -/
theorem producer_consumer_correct (hf : PcFits d) {tr : PcTrace} {s : PcSys}
    (hrun : Run d.pcService.step d.pcStart tr s) :
    (∀ ring, ring < d.sessionsPerMachine → (s.session ring).info.state ≠ .initFlags →
      (∀ k, k < d.machineNum → (d.pcAhead s (ring + d.sessionsPerMachine * k)).toNat ≤ 1) ∧
      (Finset.range d.machineNum).sum
        (fun k => (d.pcAhead s (ring + d.sessionsPerMachine * k)).toNat) = 1) ∧
    (∀ g, g < d.globalSessionNum →
      ((s.store.flag (d.flagToRelease g)).counter = (s.session g).info.relNum ∨
        ((s.store.flag (d.flagToRelease g)).counter + 1 = (s.session g).info.relNum ∧
          ∃ f, .releaseFlag (d.flagToRelease g) f ∈ (s.session g).queue)) ∧
      (s.session g).info.relFlag.counter = (s.session g).info.relNum ∧
      (s.session g).info.nodeToWrite.timesWritten = (s.session g).info.relNum) ∧
    (∀ tr₁ g b i node tr₂, i < pcWritesNum →
      tr = tr₁ ++ (.store g b, .served (.readNode (u32 (d.rKey g + i))) (some node)) :: tr₂ →
      node = ⟨d.sessionToAcquireFrom g, .ofNat (acquires tr₁ g)⟩ ∧
        nodeReads d tr₁ g i + 1 = acquires tr₁ g ∧
        nodeWrites d tr₁ (d.sessionToAcquireFrom g) i = acquires tr₁ g) := by
  have hinv := PcInv.run hf hrun
  refine ⟨fun ring hring hinit => ?_, fun g hg => ?_, ?_⟩
  · obtain ⟨t, ht, hall⟩ := hinv.ahead_eq hf hring hinit
    refine ⟨fun k hk => ?_, ?_⟩
    · rw [hall k hk]
      split <;> omega
    · rw [Finset.sum_congr rfl fun k hk => hall k (Finset.mem_range.mp hk),
        Finset.sum_ite_eq' (Finset.range d.machineNum) t fun _ => 1,
        if_pos (Finset.mem_range.mpr ht)]
  · have hlocal := hinv.here g hg
    refine ⟨?_, by rw [hlocal.relFlag, hlocal.relNum], by rw [hlocal.nodeToWrite, hlocal.relNum]⟩
    obtain ⟨reads, -, hround⟩ := hf.lastRound hg tr (s.session g).info
    have hone := hlocal.countP_le round_of_release
    rw [hround.oneRelease] at hone
    have hsum := hlocal.releases_eq
    rcases Nat.eq_zero_or_pos ((s.session g).queue.countP isRelease) with hzero | hpos
    · left
      rw [hlocal.flag, hlocal.relNum, ← hsum, hzero, Nat.add_zero]
    · right
      obtain ⟨r, hr, hrel⟩ := List.countP_pos_iff.mp hpos
      obtain ⟨k, f, rfl⟩ : ∃ k f, r = .releaseFlag k f := by
        cases r <;> first | exact ⟨_, _, rfl⟩ | exact absurd hrel (by simp [isRelease])
      obtain ⟨hk, -⟩ := hround.release k f (hlocal.mem_round hr rfl)
      refine ⟨?_, f, by rw [← hk]; exact hr⟩
      have hnext : releases tr g = released tr g + 1 := by omega
      rw [hlocal.flag, hlocal.relNum, hnext, UInt64.ofNat_add]
      rfl
  · rintro tr₁ g b i node tr₂ hi rfl
    obtain ⟨s₁, s₂, hrun₁, hstep⟩ := hrun.split_step
    have hinv₁ := PcInv.run hf hrun₁
    rcases Service.step_cases hstep with ⟨_, _, _, _, hk, _⟩ |
      ⟨g', b', req, queue, store, info, hk, hqueue, hserve, -⟩
    · nomatch hk
    · cases hk
      have hg : g < d.globalSessionNum := by
        by_contra hg
        rw [hinv₁.outside g (Nat.le_of_not_lt hg)] at hqueue
        nomatch hqueue
      obtain ⟨rfl, rfl⟩ : req = .readNode (u32 (d.rKey g + i)) ∧
          node = s₁.store.node (u32 (d.rKey g + i)) := by
        cases req <;> cases hserve
        exact ⟨rfl, rfl⟩
      obtain ⟨hwrites, hreads, hnode⟩ := hinv₁.reads_round hf hg hi (by
        rw [hqueue]
        exact List.mem_cons_self)
      exact ⟨hnode, hreads, hwrites⟩

/-- Session `g` polls the flag, and sees it. -/
def seeFlag (g : Nat) : List Turn := [.client g, .store g false, .client g]

/-- The first round of the session on machine 1, up to the first node that it reads. -/
theorem producer_consumer_correct_two : ∃ tr s,
    Run Deployment.two.pcService.step Deployment.two.pcStart tr s ∧ acquires tr 1 = 1 ∧
      nodeReads Deployment.two tr 1 0 = 1 ∧
      (Finset.range 2).sum (fun k => (Deployment.two.pcAhead s (0 + 1 * k)).toNat) = 1 := by
  have h : (do
      let p ← exec Deployment.two.pcService.step Deployment.two.pcStart
        ([Turn.client 0] ++ serves 0 6 ++ [Turn.client 1] ++ seeFlag 1 ++ serves 1 2)
      return (acquires p.1 1 = 1 ∧ nodeReads Deployment.two p.1 1 0 = 1 ∧
        (p.2.session 0).info.state ≠ PcState.initFlags : Bool)) = .ok true := by decide +kernel
  obtain ⟨⟨tr, s⟩, hexec, h⟩ := bind_eq_ok.mp h
  obtain ⟨hacq, hread, hinit⟩ := of_decide_eq_true (Except.ok.inj h)
  have hrun := run_of_exec hexec
  have hf : PcFits Deployment.two := ⟨by decide, by decide, by decide⟩
  exact ⟨tr, s, hrun, hacq, hread,
    ((producer_consumer_correct hf hrun).1 0 (by decide) hinit).2⟩

/-- Two machines with 32769 sessions each: session 65536 has the number of session 0. -/
def Deployment.wide : Deployment where
  machineNum := 2
  sessionsPerMachine := 32769
  sessionsPerClient := 32769
  clientsPerMachine := 1
  numOfRmwKeys := 60000
  clientAssertions := false
  sessionsPerMachine_pos := by decide
  sessionsPerMachine_le := by decide

/-- **With more sessions than 16 bits can number** a consumer reads a node that was written for
    another round: in its second round, session 32769 reads what session 65536 has written to the
    nodes of session 0 in its first. -/
theorem stale_node : ∃ tr s b node,
    Run Deployment.wide.pcService.step Deployment.wide.pcStart
      (tr ++ [(.store 32769 b, .served (.readNode (u32 (Deployment.wide.rKey 32769 + 0)))
        (some node))]) s ∧
      acquires tr 32769 = 2 ∧ node.timesWritten = 1 := by
  have h : (do
      let p ← exec Deployment.wide.pcService.step Deployment.wide.pcStart
        ([Turn.client 0] ++ serves 0 6 ++ [Turn.client 32769] ++ seeFlag 32769 ++ serves 32769 12 ++
          [Turn.client 0] ++ seeFlag 0 ++ [Turn.client 65536] ++ seeFlag 65536 ++
          serves 0 12 ++ serves 65536 11 ++ seeFlag 32769 ++ serves 32769 1)
      let q ← Deployment.wide.pcService.step p.2 (Turn.store 32769 false)
      return (acquires p.1 32769 = 2 ∧ q.2 = PcEvent.served
        (.readNode (u32 (Deployment.wide.rKey 32769 + 0))) (some ⟨0, 1⟩) : Bool)) = .ok true := by
    decide +kernel
  obtain ⟨⟨tr, s⟩, hexec, h⟩ := bind_eq_ok.mp h
  obtain ⟨⟨s', e⟩, hstep, h⟩ := bind_eq_ok.mp h
  obtain ⟨hacq, rfl⟩ := of_decide_eq_true (Except.ok.inj h)
  exact ⟨tr, s', false, ⟨0, 1⟩, .snoc (run_of_exec hexec) hstep, hacq, rfl⟩

/-- **No assertion fails**, with `CLIENT_ASSERTIONS` or without. -/
theorem pcPass_not_undefined (hf : PcFits d) {tr : PcTrace} {s : PcSys}
    (hrun : Run d.pcService.step d.pcStart tr s) {g : Nat} (hg : g < d.globalSessionNum) :
    d.pcPass g (s.session g) ≠ .error .undefined := by
  have hinv := PcInv.run hf hrun
  have hlocal := hinv.here g hg
  unfold Deployment.pcPass
  cases hstate : (s.session g).info.state with
  | initFlags => exact fun h => nomatch h
  | pollLocalStore => exact fun h => nomatch h
  | tryToAcquire =>
    simp only [Deployment.tryToAcquire, pollAReqBlocking]
    split
    · show (if _ then _ else _) ≠ _
      split
      · exact fun h => nomatch h
      · rename_i hseen
        rw [not_not] at hseen
        -- the reads of the round before were executed
        obtain ⟨c, hc, hlo, hhi⟩ := hlocal.acqFlag
        have hnext : c ≠ acquires tr g := by
          rintro rfl
          rw [hc, hlocal.acqNum] at hseen
          exact uint64_ne_add_one _ hseen
        have hread : acquires tr g = 0 ∨ (s.session g).info.nodeToRead
            = ⟨d.sessionToAcquireFrom g, .ofNat (acquires tr g)⟩ := by
          rcases hlocal.nodeToRead with hzero | ⟨k, hk⟩ | hread
          · exact Or.inl hzero
          · exact absurd (hinv.quiet_of_released hf hg (by omega) hg rfl hk) (by simp [isRound])
          · exact Or.inr hread
        have hnodes : d.nodesChecked g (s.session g).info = true := by
          unfold Deployment.nodesChecked
          rw [hlocal.nodeToWrite, hlocal.relNum, hlocal.acqNum]
          rcases hread with hzero | hread
          · simp [hzero]
          · simp [hread]
        unfold Deployment.beginRound
        rw [if_neg fun h => by rw [hnodes] at h; nomatch h.2]
        rw [if_neg (not_not.mpr (by rw [hlocal.relFlag, hlocal.relNum]))]
        exact fun h => nomatch h
    · exact fun h => nomatch h

end Odyssey
