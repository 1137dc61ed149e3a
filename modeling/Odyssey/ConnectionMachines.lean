/-
  WHAT A MACHINE KNOWS while the machines are being connected.

  An attribute `Describes` a QP if it holds what `fill_qps` writes for it, and a remote QP `Reaches`
  it if the handle leads to its port and the number is its number.  Over ranges of the array
  (`RightIn`) and of a stream (`RightFrom`) this is said of every index; the QP of an index is
  `qpAt`, and the indices of two QPs differ.

  `MachineInv` is what a machine knows, by the stage of its worker 0.  Nobody but the workers count
  themselves, so past the wait the own block is filled in; the server holds the blocks of the
  machines it has received, and whoever makes handles holds the whole array.  A step of worker 0
  past the wait has to show only what is new in it (`MachineInv.advance`), and before the wait most
  of the invariant says nothing (`MachineInv.early`).
-/
import Odyssey.Connections
import Odyssey.Lib.Sessions

namespace Odyssey

open Lib

/-! ## What is right -/

/-- The attribute is that of the QP. -/
structure QpAttr.Describes (isRoce : Bool) (a : QpAttr) (qp : QpIdent) : Prop where
  lid : a.lid = qp.lid.toUInt32.toInt32
  qpn : a.qpn = qp.qpn.toInt32
  sl : a.sl = defaultSl
  gid : isRoce = true →
    a.gidGlobalInterfaceId = qp.interfaceId ∧ a.gidGlobalSubnetPrefix = qp.subnetPrefix

/-- **The handle leads to the port of the QP, and the number is its number**: by the local id, or by
    the gid for RoCE. -/
structure RemoteQp.Reaches (isRoce : Bool) (r : RemoteQp) (qp : QpIdent) : Prop where
  qpn : r.qpn.toUInt32 = qp.qpn
  sl : r.ah.sl = defaultSl
  isGlobal : r.ah.isGlobal = isRoce
  local_id : isRoce = false → r.ah.dlid = qp.lid
  gid : isRoce = true →
    r.ah.dlid = 0 ∧ r.ah.interfaceId = qp.interfaceId ∧ r.ah.subnetPrefix = qp.subnetPrefix

namespace ConnConf

variable {conf : ConnConf}

theorem fillAttr_describes (old : QpAttr) (qp : QpIdent) :
    (conf.fillAttr old qp).Describes conf.isRoce qp := by
  by_cases h : conf.isRoce = true
  · constructor <;> simp [fillAttr, h]
  · constructor <;> simp [fillAttr, h]

theorem remoteQp_reaches {a : QpAttr} {qp : QpIdent} (h : a.Describes conf.isRoce qp) :
    (conf.remoteQp a).Reaches conf.isRoce qp := by
  have hlid : a.lid.toUInt32.toUInt16 = qp.lid := by
    rw [h.lid]
    simp
  by_cases hroce : conf.isRoce = true
  · have hgid := h.gid hroce
    constructor <;> simp [remoteQp, hroce, h.qpn, h.sl, hgid.1, hgid.2]
  · constructor <;> simp [remoteQp, hroce, h.qpn, h.sl, hlid]

/-! ## The array -/

variable (conf)

/-- The QP that an index of the array stands for. -/
def qpAt (x : Nat) : QpIdent :=
  conf.qp (x / conf.blockSize) (x % conf.blockSize / conf.qpNum) (x % conf.blockSize % conf.qpNum)

theorem qpIndex_eq (m w q : Nat) :
    conf.qpIndex m w q = m * conf.blockSize + (w * conf.qpNum + q) := by
  simp only [qpIndex, blockSize, Nat.mul_assoc, Nat.add_assoc]

theorem qpIndex_zero (m : Nat) : conf.qpIndex m 0 0 = m * conf.blockSize := by
  simp [qpIndex_eq]

variable {conf} {m w q : Nat}

theorem in_block (hw : w < conf.workersPerMachine) (hq : q < conf.qpNum) :
    w * conf.qpNum + q < conf.blockSize := by
  have hle : (w + 1) * conf.qpNum ≤ conf.workersPerMachine * conf.qpNum :=
    Nat.mul_le_mul_right _ hw
  rw [Nat.succ_mul] at hle
  unfold blockSize
  omega

/-- **An index of the array is one QP.** -/
theorem qpAt_qpIndex (hw : w < conf.workersPerMachine) (hq : q < conf.qpNum) :
    conf.qpAt (conf.qpIndex m w q) = conf.qp m w q := by
  have hin := in_block hw hq
  have hpos : 0 < conf.blockSize := Nat.lt_of_le_of_lt (Nat.zero_le _) hin
  have hrow : (w * conf.qpNum + q) / conf.qpNum = w := by
    rw [Nat.mul_comm, Nat.mul_add_div (by omega), Nat.div_eq_of_lt hq, Nat.add_zero]
  have hcol : (w * conf.qpNum + q) % conf.qpNum = q := by
    rw [Nat.mul_comm, Nat.mul_add_mod, Nat.mod_eq_of_lt hq]
  have hblock : (m * conf.blockSize + (w * conf.qpNum + q)) / conf.blockSize = m := by
    rw [Nat.mul_comm, Nat.mul_add_div hpos, Nat.div_eq_of_lt hin, Nat.add_zero]
  have hplace : (m * conf.blockSize + (w * conf.qpNum + q)) % conf.blockSize
      = w * conf.qpNum + q := by
    rw [Nat.mul_comm, Nat.mul_add_mod, Nat.mod_eq_of_lt hin]
  rw [qpAt, qpIndex_eq, hblock, hplace, hrow, hcol]

theorem qpIndex_lt {n : Nat} (hm : m < n) (hw : w < conf.workersPerMachine) (hq : q < conf.qpNum) :
    conf.qpIndex m w q < n * conf.blockSize := by
  have hin := in_block hw hq
  have hle : (m + 1) * conf.blockSize ≤ n * conf.blockSize := Nat.mul_le_mul_right _ hm
  rw [Nat.succ_mul] at hle
  rw [qpIndex_eq]
  omega

/-- **Every index is that of a QP.** -/
theorem exists_qpIndex {x n : Nat} (hx : x < n * conf.blockSize) :
    ∃ m w q, m < n ∧ w < conf.workersPerMachine ∧ q < conf.qpNum ∧ x = conf.qpIndex m w q := by
  have hpos : 0 < conf.blockSize := by
    rcases Nat.eq_zero_or_pos conf.blockSize with h | h
    · rw [h, Nat.mul_zero] at hx
      omega
    · exact h
  have hin : x % conf.blockSize < conf.blockSize := Nat.mod_lt _ hpos
  have hcol : 0 < conf.qpNum := by
    rcases Nat.eq_zero_or_pos conf.qpNum with h | h
    · rw [blockSize, h, Nat.mul_zero] at hpos
      omega
    · exact h
  refine ⟨x / conf.blockSize, x % conf.blockSize / conf.qpNum, x % conf.blockSize % conf.qpNum,
    Nat.div_lt_of_lt_mul (by rwa [Nat.mul_comm]),
    Nat.div_lt_of_lt_mul (by rwa [Nat.mul_comm]), Nat.mod_lt _ hcol, ?_⟩
  rw [qpIndex_eq, Nat.mul_comm (x % conf.blockSize / conf.qpNum), Nat.div_add_mod,
    Nat.mul_comm, Nat.div_add_mod]

variable (conf)

/-- A range of the array is filled in. -/
def RightIn (buf : Nat → QpAttr) (lo hi : Nat) : Prop :=
  ∀ x, lo ≤ x → x < hi → (buf x).Describes conf.isRoce (conf.qpAt x)

/-- A stream holds `n` attributes, those from index `lo` on. -/
def RightFrom (lo n : Nat) (l : List QpAttr) : Prop :=
  l.length = n ∧ ∀ j (h : j < l.length), (l.get ⟨j, h⟩).Describes conf.isRoce (conf.qpAt (lo + j))

variable {conf} {buf : Nat → QpAttr} {lo hi n : Nat} {l : List QpAttr}

/-- What is right in the array is right in the stream it is sent over. -/
theorem RightIn.readAt (h : conf.RightIn buf lo (lo + n)) :
    conf.RightFrom lo n (readAt buf lo n) := by
  constructor
  · simp
  · intro j hj
    rw [length_readAt] at hj
    have hright := h (lo + j) (by omega) (by omega)
    simpa [Lib.readAt] using hright

/-- What is right in a stream is right where it is received. -/
theorem RightFrom.writeAt (h : conf.RightFrom lo n l) :
    conf.RightIn (writeAt buf lo l) lo (lo + n) := by
  intro x hlo hhi
  have hlen := h.1
  have hj : x - lo < l.length := by omega
  have hright := h.2 (x - lo) hj
  rw [show lo + (x - lo) = x by omega] at hright
  have hin : lo ≤ x ∧ x < lo + l.length := by omega
  simpa [Lib.writeAt, hin] using hright

/-- What was right stays right where nothing or something right is written. -/
theorem RightIn.writeAt_outside {lo' : Nat} (h : conf.RightIn buf lo hi)
    (hout : hi ≤ lo' ∨ lo' + l.length ≤ lo) : conf.RightIn (writeAt buf lo' l) lo hi := by
  intro x hlo hhi
  rcases hout with hout | hout
  · rw [writeAt_of_lt (by omega)]
    exact h x hlo hhi
  · rw [writeAt_of_ge (by omega)]
    exact h x hlo hhi

theorem RightIn.append {mid : Nat} (h₁ : conf.RightIn buf lo mid) (h₂ : conf.RightIn buf mid hi) :
    conf.RightIn buf lo hi := by
  intro x hlo hhi
  rcases Nat.lt_or_ge x mid with hx | hx
  · exact h₁ x hlo hx
  · exact h₂ x hx hhi

theorem RightIn.describes (h : conf.RightIn buf 0 (n * conf.blockSize)) (hm : m < n)
    (hw : w < conf.workersPerMachine) (hq : q < conf.qpNum) :
    (buf (conf.qpIndex m w q)).Describes conf.isRoce (conf.qp m w q) := by
  have hright := h _ (Nat.zero_le _) (qpIndex_lt hm hw hq)
  rwa [qpAt_qpIndex hw hq] at hright

/-- The blocks of the workers of a machine make up its block. -/
theorem rightIn_block (h : ∀ w < conf.workersPerMachine, ∀ q < conf.qpNum,
      (buf (conf.qpIndex m w q)).Describes conf.isRoce (conf.qp m w q)) :
    conf.RightIn buf (m * conf.blockSize) ((m + 1) * conf.blockSize) := by
  intro x hlo hhi
  rw [Nat.succ_mul] at hhi
  have hin : x - m * conf.blockSize < 1 * conf.blockSize := by omega
  obtain ⟨m', w, q, hm', hw, hq, hx⟩ := exists_qpIndex hin
  have hzero : m' = 0 := by omega
  subst hzero
  have hidx : x = conf.qpIndex m w q := by
    rw [qpIndex_eq] at hx ⊢
    omega
  rw [hidx, qpAt_qpIndex hw hq]
  exact h w hw q hq

end ConnConf

/-! ## Filling in and looking up -/

namespace ConnGlobals

variable {conf : ConnConf} {g : ConnGlobals}

@[simp] theorem setStage_stage (t : Nat) (stage : ConnStage) :
    (g.setStage t stage).stage = Function.update g.stage t stage := rfl

@[simp] theorem setStage_buf (t : Nat) (stage : ConnStage) : (g.setStage t stage).buf = g.buf := rfl

@[simp] theorem setStage_remQp (t : Nat) (stage : ConnStage) :
    (g.setStage t stage).remQp = g.remQp := rfl

@[simp] theorem setStage_workers (t : Nat) (stage : ConnStage) :
    (g.setStage t stage).workersWithFilledQpAttr = g.workersWithFilledQpAttr := rfl

@[simp] theorem setStage_flag (t : Nat) (stage : ConnStage) :
    (g.setStage t stage).qpsAreSetUp = g.qpsAreSetUp := rfl

@[simp] theorem setStage_remoteIps (t : Nat) (stage : ConnStage) :
    (g.setStage t stage).remoteIps = g.remoteIps := rfl

/-- **`fill_qps` fills in the QPs of a worker** and leaves those of the others as they are. -/
theorem fillQps_spec (conf : ConnConf) (g : ConnGlobals) (i t : Nat) :
    (∀ q < conf.qpNum,
      ((g.fillQps conf i t).buf (conf.qpIndex i t q)).Describes conf.isRoce (conf.qp i t q)) ∧
    ∀ t' q, t' < conf.workersPerMachine → t < conf.workersPerMachine → q < conf.qpNum → t' ≠ t →
      (g.fillQps conf i t).buf (conf.qpIndex i t' q) = g.buf (conf.qpIndex i t' q) := by
  let body : (Nat → QpAttr) → Nat → Nat → QpAttr := fun buf q =>
    Function.update buf (conf.qpIndex i t q)
      (conf.fillAttr (buf (conf.qpIndex i t q)) (conf.qp i t q))
  let P : Nat → (Nat → QpAttr) → Prop := fun n buf =>
    (∀ q < n, (buf (conf.qpIndex i t q)).Describes conf.isRoce (conf.qp i t q)) ∧
      ∀ x, (∀ q < n, x ≠ conf.qpIndex i t q) → buf x = g.buf x
  have hfold : P conf.qpNum ((List.range conf.qpNum).foldl body g.buf) := by
    apply foldl_range_rule
    · exact ⟨fun q hq => absurd hq (Nat.not_lt_zero q), fun _ _ => rfl⟩
    · rintro n buf hn ⟨hdone, hkeep⟩
      constructor
      · intro q hq
        by_cases hx : conf.qpIndex i t q = conf.qpIndex i t n
        · have hqn : q = n := by
            rw [ConnConf.qpIndex_eq, ConnConf.qpIndex_eq] at hx
            omega
          subst hqn
          simp only [body, Function.update_self]
          exact ConnConf.fillAttr_describes _ _
        · simp only [body, Function.update_of_ne hx]
          have hlt : q < n := by
            rcases Nat.lt_succ_iff_lt_or_eq.mp hq with hlt | heq
            · exact hlt
            · exact absurd (by rw [heq]) hx
          exact hdone q hlt
      · intro x hx
        simp only [body, Function.update_of_ne (hx n (Nat.lt_succ_self n))]
        exact hkeep x fun q hq => hx q (Nat.lt_succ_of_lt hq)
  refine ⟨hfold.1, fun t' q ht' ht hq hne => hfold.2 _ fun q' hq' heq => hne ?_⟩
  -- two indices of one machine are equal only within one worker
  rw [ConnConf.qpIndex_eq, ConnConf.qpIndex_eq] at heq
  have hrow : t' * conf.qpNum + q = t * conf.qpNum + q' := by omega
  have hdiv : ∀ a b : Nat, b < conf.qpNum → (a * conf.qpNum + b) / conf.qpNum = a := by
    intro a b hb
    rw [Nat.mul_comm, Nat.mul_add_div (by omega), Nat.div_eq_of_lt hb, Nat.add_zero]
  rw [← hdiv t' q hq, hrow, hdiv t q' hq']

/-- **`get_qps_from_all_other_machines` keeps a handle for every QP of every other machine.** -/
theorem getQps_spec {i m w q : Nat} (hm : m < conf.machineNum) (hne : m ≠ i)
    (hw : w < conf.workersPerMachine) (hq : q < conf.qpNum) :
    (g.getQpsFromAllOtherMachines conf i).remQp (m, w, q)
      = conf.remoteQp (g.buf (conf.qpIndex m w q)) := by
  let W := conf.workersPerMachine
  let look : Nat → Nat → Nat → RemoteQp := fun m w q =>
    conf.remoteQp (g.buf (conf.qpIndex m w q))
  let row : Nat → Nat → (Nat × Nat × Nat → RemoteQp) → Nat → Nat × Nat × Nat → RemoteQp :=
    fun m w remQp q => Function.update remQp (m, w, q) (look m w q)
  have hrow : ∀ (m w : Nat) (remQp : Nat × Nat × Nat → RemoteQp),
      (∀ q < conf.qpNum, (List.range conf.qpNum).foldl (row m w) remQp (m, w, q) = look m w q) ∧
      ∀ x, (x.1, x.2.1) ≠ (m, w) → (List.range conf.qpNum).foldl (row m w) remQp x = remQp x := by
    intro m w remQp
    refine foldl_range_rule
      (P := fun n (f : Nat × Nat × Nat → RemoteQp) => (∀ q < n, f (m, w, q) = look m w q) ∧
        ∀ x, (x.1, x.2.1) ≠ (m, w) → f x = remQp x) conf.qpNum
      ⟨fun q hq => absurd hq (Nat.not_lt_zero q), fun _ _ => rfl⟩ ?_
    rintro n f - ⟨hdone, hkeep⟩
    constructor
    · intro q hq
      rcases Nat.lt_succ_iff_lt_or_eq.mp hq with hlt | rfl
      · have hx : (m, w, q) ≠ (m, w, n) := by simp; omega
        simp only [row, Function.update_of_ne hx]
        exact hdone q hlt
      · simp only [row, Function.update_self]
    · intro x hx
      have hxn : x ≠ (m, w, n) := fun h => hx (by rw [h])
      simp only [row, Function.update_of_ne hxn]
      exact hkeep x hx
  have hfold : ∀ m w q, w < W → q < conf.qpNum → m ≠ i → m * W + w < conf.workerNum →
      (List.range conf.workerNum).foldl (fun remQp gI => if gI / W = i then remQp
        else (List.range conf.qpNum).foldl (row (gI / W) (gI % W)) remQp) g.remQp (m, w, q)
        = look m w q := by
    refine foldl_range_rule
      (P := fun n (f : Nat × Nat × Nat → RemoteQp) => ∀ m w q, w < W → q < conf.qpNum →
        m ≠ i → m * W + w < n → f (m, w, q) = look m w q) conf.workerNum
      (fun m w q _ _ _ h => absurd h (Nat.not_lt_zero _)) ?_
    intro n f _ hdone m w q hw hq hne hlt
    have hWpos : 0 < W := Nat.lt_of_le_of_lt (Nat.zero_le _) hw
    by_cases hnew : m * W + w = n
    · have hdiv : n / W = m := by
        rw [← hnew, Nat.mul_comm, Nat.mul_add_div hWpos, Nat.div_eq_of_lt hw, Nat.add_zero]
      have hmod : n % W = w := by
        rw [← hnew, Nat.mul_comm, Nat.mul_add_mod, Nat.mod_eq_of_lt hw]
      simp only [hdiv, hmod, if_neg hne]
      exact (hrow m w f).1 q hq
    · have hold := hdone m w q hw hq hne (by omega)
      by_cases hself : n / W = i
      · simp only [hself, if_true]
        exact hold
      · simp only [if_neg hself]
        rw [(hrow _ _ f).2 _ ?_]
        · exact hold
        · intro hx
          simp only [Prod.mk.injEq] at hx
          apply hnew
          rw [hx.1, hx.2, Nat.mul_comm, Nat.div_add_mod]
  refine hfold m w q hw hq hne ?_
  have hle : (m + 1) * W ≤ conf.machineNum * W := Nat.mul_le_mul_right _ hm
  rw [Nat.succ_mul] at hle
  have hnum : conf.workerNum = conf.machineNum * W := Nat.mul_comm _ _
  have hw' : w < W := hw
  omega

end ConnGlobals

/-! ## What a stage says -/

namespace ConnStage

/-- Whether the worker has counted itself. -/
def counted : ConnStage → Bool
  | .fill | .signal => false
  | _ => true

/-- Whether worker 0 has seen that all workers of its machine have counted themselves. -/
def waited : ConnStage → Bool
  | .fill | .signal | .await => false
  | _ => true

/-- Whether worker 0 holds the attributes of all machines. -/
def gotAll : ConnStage → Bool
  | .getQps | .setFlag | .done => true
  | _ => false

/-- Whether a client has sent its attributes. -/
def sentUp : ConnStage → Bool
  | .recvAll => true
  | stage => stage.gotAll

/-- Whether a client has connected. -/
def connected : ConnStage → Bool
  | .send => true
  | stage => stage.sentUp

/-- How many of its `R` ports the server has opened. -/
def opened (R : Nat) : ConnStage → Nat
  | .listen k => k
  | .accept k | .recv k => k + 1
  | .sendAll _ | .getQps | .setFlag | .done => R
  | _ => 0

/-- How many connections the server has accepted. -/
def accepted (R : Nat) : ConnStage → Nat
  | .listen k | .accept k => k
  | .recv k => k + 1
  | .sendAll _ | .getQps | .setFlag | .done => R
  | _ => 0

/-- From how many machines the server has received the attributes. -/
def received (R : Nat) : ConnStage → Nat
  | .listen k | .accept k | .recv k => k
  | .sendAll _ | .getQps | .setFlag | .done => R
  | _ => 0

/-- To how many machines the server has sent everything. -/
def sent (R : Nat) : ConnStage → Nat
  | .sendAll k => k
  | .getQps | .setFlag | .done => R
  | _ => 0

/-- The stages of worker `t` of machine `i`. -/
def Allowed (R i t : Nat) : ConnStage → Prop
  | .fill | .signal | .done => True
  | .await | .getQps | .setFlag => t = 0
  | .awaitFlag => t ≠ 0
  | .listen k | .accept k | .recv k | .sendAll k => t = 0 ∧ i = 0 ∧ k < R
  | .connect | .send | .recvAll => t = 0 ∧ i ≠ 0

/-- No socket sees the difference between two stages. -/
structure Alike (R : Nat) (stage stage' : ConnStage) : Prop where
  opened : stage.opened R = stage'.opened R
  accepted : stage.accepted R = stage'.accepted R
  received : stage.received R = stage'.received R
  sent : stage.sent R = stage'.sent R
  connected : stage.connected = stage'.connected
  sentUp : stage.sentUp = stage'.sentUp
  gotAll : stage.gotAll = stage'.gotAll

variable {R : Nat} {stage stage' : ConnStage}

theorem Alike.refl : Alike R stage stage := ⟨rfl, rfl, rfl, rfl, rfl, rfl, rfl⟩

/-- Before the exchange a machine has neither opened a port nor connected. -/
theorem alike_of_not_waited (h : stage.waited = false) (h' : stage'.waited = false) :
    Alike R stage stage' := by
  cases stage <;> simp [waited] at h <;> cases stage' <;> simp [waited] at h' <;>
    constructor <;> rfl

/-- After the exchange it is through with its sockets. -/
theorem alike_of_gotAll (h : stage.gotAll = true) (h' : stage'.gotAll = true) :
    Alike R stage stage' := by
  cases stage <;> simp [gotAll] at h <;> cases stage' <;> simp [gotAll] at h' <;>
    constructor <;> rfl

theorem connected_of_sentUp (h : stage.sentUp = true) : stage.connected = true := by
  cases stage <;> simp_all [connected, sentUp, gotAll]

theorem waited_of_gotAll (h : stage.gotAll = true) : stage.waited = true := by
  cases stage <;> simp_all [waited, gotAll]

theorem counted_of_waited (h : stage.waited = true) : stage.counted = true := by
  cases stage <;> simp_all [waited, counted]

end ConnStage

/-! ## What a machine knows -/

/-- **Machine `i`**, from what it knows at the stage of its worker 0. -/
structure MachineInv (conf : ConnConf) (i : Nat) (g : ConnGlobals) : Prop where
  allowed : ∀ t < conf.workersPerMachine, (g.stage t).Allowed conf.remMachNum i t
  count : g.workersWithFilledQpAttr
    = (List.range conf.workersPerMachine).countP fun t => (g.stage t).counted
  /-- the workers that are past `fill_qps` have filled in their QPs -/
  published : ∀ t < conf.workersPerMachine, g.stage t ≠ .fill → ∀ q < conf.qpNum,
    (g.buf (conf.qpIndex i t q)).Describes conf.isRoce (conf.qp i t q)
  all_counted : (g.stage 0).waited = true →
    ∀ t < conf.workersPerMachine, (g.stage t).counted = true
  /-- the server holds its block and those it received -/
  server : i = 0 → (g.stage 0).waited = true →
    conf.RightIn g.buf 0 (((g.stage 0).received conf.remMachNum + 1) * conf.blockSize)
  holds_all : (g.stage 0).gotAll = true →
    conf.RightIn g.buf 0 (conf.machineNum * conf.blockSize)
  handles : g.stage 0 = .setFlag ∨ g.stage 0 = .done →
    ∀ m < conf.machineNum, m ≠ i → ∀ w < conf.workersPerMachine, ∀ q < conf.qpNum,
      (g.remQp (m, w, q)).Reaches conf.isRoce (conf.qp m w q)
  flag : g.qpsAreSetUp = true ↔ g.stage 0 = .done
  flagged : ∀ t < conf.workersPerMachine, t ≠ 0 → g.stage t = .done → g.qpsAreSetUp = true

namespace MachineInv

variable {conf : ConnConf} {i : Nat} {g g' : ConnGlobals}

/-- Once all workers have counted themselves the block of the machine is filled in. -/
theorem own_block (h : MachineInv conf i g)
    (hnow : ∀ t < conf.workersPerMachine, (g.stage t).counted = true) :
    conf.RightIn g.buf (i * conf.blockSize) ((i + 1) * conf.blockSize) := by
  apply ConnConf.rightIn_block
  intro w hlt q hq
  apply h.published w hlt _ q hq
  intro hfill
  have hcount := hnow w hlt
  rw [hfill] at hcount
  cases hcount

/-- **Worker 0 goes on**, past the wait: what is left to show of the machine. -/
theorem advance {stage : ConnStage} (h : MachineInv conf i g)
    (hnow : ∀ t < conf.workersPerMachine, (g.stage t).counted = true)
    (hstage : g'.stage = Function.update g.stage 0 stage)
    (hworkers : g'.workersWithFilledQpAttr = g.workersWithFilledQpAttr)
    (hallowed : stage.Allowed conf.remMachNum i 0) (hwaited : stage.waited = true)
    (hown : conf.RightIn g'.buf (i * conf.blockSize) ((i + 1) * conf.blockSize))
    (hserver : i = 0 →
      conf.RightIn g'.buf 0 ((stage.received conf.remMachNum + 1) * conf.blockSize))
    (hall : stage.gotAll = true → conf.RightIn g'.buf 0 (conf.machineNum * conf.blockSize))
    (hhandles : stage = .setFlag ∨ stage = .done →
      ∀ m < conf.machineNum, m ≠ i → ∀ w < conf.workersPerMachine, ∀ q < conf.qpNum,
        (g'.remQp (m, w, q)).Reaches conf.isRoce (conf.qp m w q))
    (hflag : g'.qpsAreSetUp = true ↔ stage = .done)
    (hnot : g.stage 0 ≠ .done) : MachineInv conf i g' := by
  have hself : g'.stage 0 = stage := by rw [hstage, Function.update_self]
  have hother : ∀ t, t ≠ 0 → g'.stage t = g.stage t := fun t ht => by
    rw [hstage, Function.update_of_ne ht]
  have hcount : ∀ t < conf.workersPerMachine, (g'.stage t).counted = true := by
    intro t ht
    by_cases h0 : t = 0
    · rw [h0, hself]
      exact ConnStage.counted_of_waited hwaited
    · rw [hother t h0]
      exact hnow t ht
  constructor
  · intro t ht
    by_cases h0 : t = 0
    · rw [h0, hself]
      exact hallowed
    · rw [hother t h0]
      exact h.allowed t ht
  · rw [hworkers, h.count]
    apply List.countP_congr
    intro t ht
    have hlt := List.mem_range.mp ht
    rw [hnow t hlt, hcount t hlt]
  · intro t ht _ q hq
    have hidx := ConnConf.qpIndex_lt (Nat.lt_succ_self i) ht hq
    have hlow : i * conf.blockSize ≤ conf.qpIndex i t q := by
      rw [ConnConf.qpIndex_eq]
      omega
    have hright := hown _ hlow hidx
    rwa [ConnConf.qpAt_qpIndex ht hq] at hright
  · intro _
    exact hcount
  · intro hi _
    rw [hself]
    exact hserver hi
  · intro hgot
    rw [hself] at hgot
    exact hall hgot
  · intro hst
    rw [hself] at hst
    exact hhandles hst
  · rw [hself]
    exact hflag
  · intro t ht h0 hdone
    rw [hother t h0] at hdone
    have hset := h.flagged t ht h0 hdone
    exact absurd (h.flag.mp hset) hnot

/-- Worker 0 goes on to a stage of the exchange. -/
theorem exchange {stage : ConnStage} {buf : Nat → QpAttr} (h : MachineInv conf i g)
    (hnow : ∀ t < conf.workersPerMachine, (g.stage t).counted = true)
    (hnot : g.stage 0 ≠ .done)
    (hallowed : stage.Allowed conf.remMachNum i 0) (hwaited : stage.waited = true)
    (hgot : stage.gotAll = false)
    (hown : conf.RightIn buf (i * conf.blockSize) ((i + 1) * conf.blockSize))
    (hserver : i = 0 →
      conf.RightIn buf 0 ((stage.received conf.remMachNum + 1) * conf.blockSize)) :
    MachineInv conf i ({ g with buf := buf }.setStage 0 stage) := by
  refine h.advance hnow rfl rfl hallowed hwaited hown hserver ?_ ?_ ?_ hnot
  · intro hall
    rw [hgot] at hall
    cases hall
  · rintro (hc | hc)
    · rw [hc] at hgot
      cases hgot
    · rw [hc] at hgot
      cases hgot
  · constructor
    · intro hflag
      exact absurd (h.flag.mp hflag) hnot
    · intro hc
      rw [hc] at hgot
      cases hgot

/-- Worker 0 holds the attributes of all machines. -/
theorem gotAll {buf : Nat → QpAttr} (h : MachineInv conf i g)
    (hnow : ∀ t < conf.workersPerMachine, (g.stage t).counted = true)
    (hnot : g.stage 0 ≠ .done) (hi : i < conf.machineNum)
    (hright : conf.RightIn buf 0 (conf.machineNum * conf.blockSize)) :
    MachineInv conf i ({ g with buf := buf }.setStage 0 .getQps) := by
  have hrem : conf.machineNum = conf.remMachNum + 1 := by
    unfold ConnConf.remMachNum
    omega
  refine h.advance hnow rfl rfl rfl rfl ?_ ?_ ?_ ?_ ?_ hnot
  · intro x hlo hhi
    have hle : (i + 1) * conf.blockSize ≤ conf.machineNum * conf.blockSize :=
      Nat.mul_le_mul_right _ hi
    exact hright x (Nat.zero_le _) (by omega)
  · intro _
    rw [hrem] at hright
    exact hright
  · intro _
    exact hright
  · rintro (hc | hc) <;> cases hc
  · constructor
    · intro hflag
      exact absurd (h.flag.mp hflag) hnot
    · intro hc
      cases hc

/-- **Before the wait** of worker 0: what is left to show of the machine. -/
theorem early (hwaited : (g'.stage 0).waited = false) (hflag : g'.qpsAreSetUp = false)
    (hallowed : ∀ t < conf.workersPerMachine, (g'.stage t).Allowed conf.remMachNum i t)
    (hcount : g'.workersWithFilledQpAttr
      = (List.range conf.workersPerMachine).countP fun t => (g'.stage t).counted)
    (hpublished : ∀ t < conf.workersPerMachine, g'.stage t ≠ .fill → ∀ q < conf.qpNum,
      (g'.buf (conf.qpIndex i t q)).Describes conf.isRoce (conf.qp i t q))
    (hnone : ∀ t < conf.workersPerMachine, t ≠ 0 → g'.stage t ≠ .done) : MachineInv conf i g' := by
  have hdone : g'.stage 0 ≠ .done := by
    intro h
    rw [h] at hwaited
    cases hwaited
  constructor
  · exact hallowed
  · exact hcount
  · exact hpublished
  · intro h
    rw [hwaited] at h
    cases h
  · intro _ h
    rw [hwaited] at h
    cases h
  · intro h
    have hw := ConnStage.waited_of_gotAll h
    rw [hwaited] at hw
    cases hw
  · rintro (h | h)
    · rw [h] at hwaited
      cases hwaited
    · exact absurd h hdone
  · rw [hflag]
    simp [hdone]
  · intro t ht h0 h
    exact absurd h (hnone t ht h0)

/-- Nobody is done before worker 0 has waited. -/
theorem not_done (h : MachineInv conf i g) (hw : (g.stage 0).waited = false) :
    g.qpsAreSetUp = false ∧ ∀ t < conf.workersPerMachine, g.stage t ≠ .done := by
  have hflag : g.qpsAreSetUp = false := by
    by_contra hc
    have hset := h.flag.mp (by simpa using hc)
    rw [hset] at hw
    cases hw
  refine ⟨hflag, fun t ht hdone => ?_⟩
  by_cases h0 : t = 0
  · rw [← h0, hdone] at hw
    cases hw
  · have hset := h.flagged t ht h0 hdone
    rw [hflag] at hset
    cases hset

/-- Worker 0 has not waited while a worker has not counted itself. -/
theorem not_waited {t : Nat} (h : MachineInv conf i g) (ht : t < conf.workersPerMachine)
    (hst : (g.stage t).counted = false) : (g.stage 0).waited = false := by
  by_contra hc
  have hcount := h.all_counted (by simpa using hc) t ht
  rw [hst] at hcount
  cases hcount

/-- A worker writes its QPs. -/
theorem fill {t : Nat} (h : MachineInv conf i g) (ht : t < conf.workersPerMachine)
    (hst : g.stage t = .fill) :
    MachineInv conf i ((g.fillQps conf i t).setStage t .signal) := by
  obtain ⟨hnew, hold⟩ := ConnGlobals.fillQps_spec conf g i t
  have hw := h.not_waited ht (by rw [hst]; rfl)
  obtain ⟨hflag, hnone⟩ := h.not_done hw
  apply early
  · simp only [ConnGlobals.setStage_stage]
    by_cases h0 : 0 = t
    · rw [← h0, Function.update_self]
      rfl
    · rw [Function.update_of_ne h0]
      exact hw
  · exact hflag
  · intro t' ht'
    simp only [ConnGlobals.setStage_stage]
    by_cases heq : t' = t
    · rw [heq, Function.update_self]
      trivial
    · rw [Function.update_of_ne heq]
      exact h.allowed t' ht'
  · show g.workersWithFilledQpAttr = _
    rw [h.count]
    apply List.countP_congr
    intro t' _
    simp only [ConnGlobals.setStage_stage]
    by_cases heq : t' = t
    · rw [heq, Function.update_self, hst]
      exact Iff.rfl
    · rw [Function.update_of_ne heq]
      exact Iff.rfl
  · intro t' ht' hne q hq
    simp only [ConnGlobals.setStage_stage, ConnGlobals.setStage_buf] at hne ⊢
    by_cases heq : t' = t
    · rw [heq]
      exact hnew q hq
    · rw [Function.update_of_ne heq] at hne
      rw [hold t' q ht' ht hq heq]
      exact h.published t' ht' hne q hq
  · intro t' ht' h0
    simp only [ConnGlobals.setStage_stage]
    by_cases heq : t' = t
    · rw [heq, Function.update_self]
      simp
    · rw [Function.update_of_ne heq]
      exact hnone t' ht'

/-- A worker counts itself. -/
theorem signal {t : Nat} (h : MachineInv conf i g) (ht : t < conf.workersPerMachine)
    (hst : g.stage t = .signal) :
    MachineInv conf i ({ g with
      workersWithFilledQpAttr := g.workersWithFilledQpAttr + 1 }.setStage t
        (if t = 0 then .await else .awaitFlag)) := by
  have hw := h.not_waited ht (by rw [hst]; rfl)
  obtain ⟨hflag, hnone⟩ := h.not_done hw
  apply early
  · simp only [ConnGlobals.setStage_stage]
    by_cases h0 : 0 = t
    · rw [← h0, Function.update_self]
      rfl
    · rw [Function.update_of_ne h0]
      exact hw
  · exact hflag
  · intro t' ht'
    simp only [ConnGlobals.setStage_stage]
    by_cases heq : t' = t
    · rw [heq, Function.update_self]
      split
      · assumption
      · assumption
    · rw [Function.update_of_ne heq]
      exact h.allowed t' ht'
  · show g.workersWithFilledQpAttr + 1 = _
    have hcount := countP_range_update (fun t' => (g.stage t').counted)
      (fun t' => (Function.update g.stage t (if t = 0 then .await else .awaitFlag) t').counted)
      conf.workersPerMachine ht fun t' hne => by simp only [Function.update_of_ne hne]
    have hnow : (if t = 0 then ConnStage.await else .awaitFlag).counted = true := by
      split <;> rfl
    have hbefore : (g.stage t).counted = false := by
      rw [hst]
      rfl
    simp only [Function.update_self, hnow, hbefore, if_true] at hcount
    rw [h.count]
    simp only [ConnGlobals.setStage_stage]
    simpa using hcount.symm
  · intro t' ht' hne q hq
    simp only [ConnGlobals.setStage_stage, ConnGlobals.setStage_buf] at hne ⊢
    by_cases heq : t' = t
    · subst heq
      exact h.published t' ht' (by rw [hst]; simp) q hq
    · rw [Function.update_of_ne heq] at hne
      exact h.published t' ht' hne q hq
  · intro t' ht' h0
    simp only [ConnGlobals.setStage_stage]
    by_cases heq : t' = t
    · subst heq
      rw [Function.update_self, if_neg h0]
      simp
    · rw [Function.update_of_ne heq]
      exact hnone t' ht'

/-- Another worker sees the flag. -/
theorem awaitFlag {t : Nat} (h : MachineInv conf i g) (ht : t < conf.workersPerMachine)
    (hst : g.stage t = .awaitFlag) (hflag : g.qpsAreSetUp = true) :
    MachineInv conf i (g.setStage t .done) := by
  have ht0 : t ≠ 0 := by
    have hallowed := h.allowed t ht
    rwa [hst] at hallowed
  have hzero : (g.setStage t .done).stage 0 = g.stage 0 := by
    simp only [ConnGlobals.setStage_stage, Function.update_of_ne (Ne.symm ht0)]
  have hcounted : ∀ t', ((g.setStage t .done).stage t').counted = (g.stage t').counted := by
    intro t'
    simp only [ConnGlobals.setStage_stage]
    by_cases heq : t' = t
    · rw [heq, Function.update_self, hst]
      rfl
    · rw [Function.update_of_ne heq]
  constructor
  · intro t' ht'
    simp only [ConnGlobals.setStage_stage]
    by_cases heq : t' = t
    · rw [heq, Function.update_self]
      trivial
    · rw [Function.update_of_ne heq]
      exact h.allowed t' ht'
  · simp only [hcounted]
    exact h.count
  · intro t' ht' hne
    by_cases heq : t' = t
    · subst heq
      exact h.published t' ht' (by rw [hst]; simp)
    · simp only [ConnGlobals.setStage_stage, Function.update_of_ne heq] at hne
      exact h.published t' ht' hne
  · intro hw t' ht'
    rw [hzero] at hw
    rw [hcounted]
    exact h.all_counted hw t' ht'
  · rw [hzero]
    exact h.server
  · rw [hzero]
    exact h.holds_all
  · rw [hzero]
    exact h.handles
  · rw [hzero]
    exact h.flag
  · intro _ _ _ _
    exact hflag

end MachineInv

end Odyssey
