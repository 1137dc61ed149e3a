/-
  THE BUILD AND THE CLUSTER: the constants of `od_top.h`, `od_sizes.h` and
  `od_generic_opcodes.h`, and the two numberings of the machines.

  Names follow the source throughout, in camel case: `MACHINE_NUM` is `machineNum`,
  `ctx_send_broadcasts` is `ctxSendBroadcasts`, `quorum_info_t` is `QuorumInfo`.

  A build is as shipped (`ENABLE_ASSERTIONS` 0, `ENABLE_MULTICAST` 0) except where a module takes
  a macro as a parameter.  `MACHINE_NUM` and `machine_id` stay parameters everywhere: they are
  the fields of `Cluster`.

  Machines are numbered `0, …, machineNum - 1`; the remote machines are numbered a second time,
  without a gap at the own id, by `rmId = 0, …, remMachNum - 1`.  `rmidToMid` is increasing and
  lists the remote machines in order (`remotes_eq_map`), `midToRmid` is its inverse.  Both compute
  in `uint8_t`, which is exact as long as `remMachNum` fits a `uint8_t`: the loops of
  `ctx_set_up_q_info` do not terminate in any larger cluster.
-/
import Odyssey.Lib.Outcome
import Mathlib.Data.List.Sort

namespace Odyssey

open Lib

/-! ## Constants -/

def enableMulticast : Bool := false

/-- `K_64_` -/
def k64_ : UInt16 := 65535
/-- `CREDIT_TIMEOUT`, which is `M_16` -/
def creditTimeout : Nat := 16777216
/-- `MTU` -/
def mtu : Nat := 4096
/-- `MIN_SS_BATCH`: the minimum selective-signalling batch -/
def minSsBatch : Nat := 127
/-- `MAX_BCAST_BATCH`: how many broadcasts can fit in a batch -/
def maxBcastBatch : Nat := 4

/-- `OP_ACK` -/
def opAck : UInt8 := 115
/-- `ACK_NOT_YET_SENT` -/
def ackNotYetSent : UInt8 := 117

/-! ## The cluster -/

/-- `MACHINE_NUM` and the own `machine_id`.  A cluster has a remote machine: with none,
    `qp_meta_ss_batch_q_depth` divides by the number of recipients of a broadcast, which is 0. -/
structure Cluster where
  machineNum : Nat
  machineId : Nat
  two_le : 2 ≤ machineNum
  id_lt : machineId < machineNum

namespace Cluster

/-- Machine 0 of three machines, the smallest cluster that survives a failure. -/
def three : Cluster := ⟨3, 0, by decide, by decide⟩

variable (cl : Cluster)

/-- `REM_MACH_NUM`: number of remote machines. -/
def remMachNum : Nat := cl.machineNum - 1
def quorumNum : Nat := cl.machineNum / 2 + 1
def remoteQuorum : Nat := cl.quorumNum - 1
def messagesInBcast : Nat := if enableMulticast then 1 else cl.remMachNum
def messagesInBcastBatch : Nat := maxBcastBatch * cl.messagesInBcast

/-- Convert a machine id to a "remote machine id"; `m_id - 1` is computed in `uint8_t`. -/
def midToRmid (mId : Nat) : Nat := if mId < cl.machineId then mId else u8 (mId + 255)

/-- Convert a "remote machine id" to a machine id. -/
def rmidToMid (rmId : Nat) : Nat := if rmId < cl.machineId then rmId else u8 (rmId + 1)

/-- The remote machines, in increasing order of their ids. -/
def remotes : List Nat := (List.range cl.machineNum).filter (· ≠ cl.machineId)

/-! ## The two numberings agree -/

@[simp] theorem messagesInBcast_eq : cl.messagesInBcast = cl.remMachNum := rfl

theorem remMachNum_pos : 0 < cl.remMachNum := by
  have := cl.two_le
  unfold remMachNum
  omega

theorem remoteQuorum_pos : 0 < cl.remoteQuorum := by
  have := cl.two_le
  unfold remoteQuorum quorumNum
  omega

theorem mem_remotes {m : Nat} : m ∈ cl.remotes ↔ m < cl.machineNum ∧ m ≠ cl.machineId := by
  simp [remotes]

theorem remotes_pairwise : cl.remotes.Pairwise (· < ·) :=
  List.Pairwise.filter _ List.pairwise_lt_range

theorem remotes_nodup : cl.remotes.Nodup :=
  cl.remotes_pairwise.imp (fun h => Nat.ne_of_lt h)

variable {cl} (hfit : cl.remMachNum < 2 ^ 8)

include hfit

/-- `rmidToMid` without the `uint8_t`. -/
theorem rmidToMid_eq {rm : Nat} (h : rm < cl.remMachNum) :
    cl.rmidToMid rm = if rm < cl.machineId then rm else rm + 1 := by
  unfold rmidToMid u8
  split
  · rfl
  · omega

theorem rmidToMid_mem {rm : Nat} (h : rm < cl.remMachNum) : cl.rmidToMid rm ∈ cl.remotes := by
  have hid := cl.id_lt
  have hrem : cl.remMachNum = cl.machineNum - 1 := rfl
  rw [mem_remotes, rmidToMid_eq hfit h]
  split <;> omega

theorem rmidToMid_lt {a b : Nat} (hab : a < b) (hb : b < cl.remMachNum) :
    cl.rmidToMid a < cl.rmidToMid b := by
  rw [rmidToMid_eq hfit (by omega), rmidToMid_eq hfit hb]
  split <;> split <;> omega

theorem midToRmid_rmidToMid {rm : Nat} (h : rm < cl.remMachNum) :
    cl.midToRmid (cl.rmidToMid rm) = rm := by
  rw [rmidToMid_eq hfit h]
  unfold midToRmid u8
  by_cases hlt : rm < cl.machineId
  · rw [if_pos hlt, if_pos hlt]
  · rw [if_neg hlt, if_neg (by omega)]
    omega

/-- Every remote machine has a remote id. -/
theorem exists_rmid {m : Nat} (h : m ∈ cl.remotes) :
    ∃ rm, rm < cl.remMachNum ∧ cl.rmidToMid rm = m ∧ cl.midToRmid m = rm := by
  have hid := cl.id_lt
  have hrem : cl.remMachNum = cl.machineNum - 1 := rfl
  obtain ⟨hlt, hne⟩ := cl.mem_remotes.mp h
  have key : ∀ rm, rm < cl.remMachNum → cl.rmidToMid rm = m →
      ∃ rm, rm < cl.remMachNum ∧ cl.rmidToMid rm = m ∧ cl.midToRmid m = rm := by
    intro rm hrm hm
    exact ⟨rm, hrm, hm, by rw [← hm]; exact midToRmid_rmidToMid hfit hrm⟩
  by_cases hm : m < cl.machineId
  · refine key m (by omega) ?_
    rw [rmidToMid_eq hfit (by omega), if_pos hm]
  · refine key (m - 1) (by omega) ?_
    rw [rmidToMid_eq hfit (by omega), if_neg (by omega)]
    omega

/-- Counting the remote ids up lists the remote machines in order: the loops over `rm_id` and
    the loops over machine ids that skip the own id visit the same machines. -/
theorem remotes_eq_map : cl.remotes = (List.range cl.remMachNum).map cl.rmidToMid := by
  have hmap : ((List.range cl.remMachNum).map cl.rmidToMid).Pairwise (· < ·) := by
    rw [List.pairwise_map]
    refine List.pairwise_lt_range.imp_of_mem ?_
    intro a b _ hb hab
    exact rmidToMid_lt hfit hab (List.mem_range.mp hb)
  apply cl.remotes_pairwise.eq_of_mem_iff hmap
  intro m
  constructor
  · intro hm
    obtain ⟨rm, hrm, heq, -⟩ := exists_rmid hfit hm
    exact List.mem_map.mpr ⟨rm, List.mem_range.mpr hrm, heq⟩
  · intro hm
    obtain ⟨rm, hrm, rfl⟩ := List.mem_map.mp hm
    exact rmidToMid_mem hfit (List.mem_range.mp hrm)

end Cluster

end Odyssey
