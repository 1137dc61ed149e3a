/-
  SETTING UP MULTICAST: `create_mcast_cb` of `od_multicast.c`.

  A multicast flow has one group for each machine that broadcasts in it.  A machine that receives
  from a flow joins a receive QP to all groups of the flow but the one it sends to; a machine that
  sends in a flow keeps the parameters of its group.  Flows are numbered, the groups of all flows
  are numbered once more one flow after the other (`groupIndex`), and three arrays of pointers are
  in use:

  * the ids `cma_id`, one for each group, and a spare one that has no QP: groups that nothing is
    received from are joined with id `recv_qp_num`;
  * the QPs `recv_qp`, of the first `recv_qp_num` ids;
  * the parameters `mcast_ud_param`, `send_qp_num` of them.

  Groups are joined with the id of their flow, parameters are stored under their flow, and the QP
  and the parameters are looked up by flow.  So the first `recv_qp_num` flows had better be the ones
  that are received from, and the first `send_qp_num` those that are sent to.

  Every call of the library succeeds, and a group is named by its index: `dst_addr` at the index is
  its address, and `ud` the parameters that come with the event of joining it.  A pointer that is
  `NULL` is `none`, and using it is undefined, as is an index behind the end of an array.
-/
import Odyssey.Lib.Arrays
import Odyssey.Lib.Blocks
import Mathlib.Logic.Function.Basic

namespace Odyssey

open Lib

/-! ## The data -/

/-- The arguments of `create_mcast_cb` that say which groups there are. -/
structure McastInputs where
  flowNum : Nat
  recvQpNum : Nat
  sendNum : Nat
  groupsPerFlow : Nat → Nat
  recvQDepth : Nat → Nat
  groupToSendTo : Nat → Nat
  recvsFromFlow : Nat → Bool
  /-- they are `uint16_t`s -/
  flowNum_lt : flowNum < 2 ^ 16
  recvQpNum_lt : recvQpNum < 2 ^ 16

/-- `rdma_ud_param`: what a sender needs of a group. -/
structure UdParam where
  ahAttr : Nat
  qpNum : Nat
  qkey : Nat
  deriving Repr, DecidableEq

/-- A receive QP, with the groups that it is joined to. -/
structure McastQp where
  maxRecvWr : Nat
  groups : List Nat
  deriving Repr, DecidableEq

/-- `rdma_cm_id` -/
structure CmaId where
  qp : Option McastQp

/-- `mcast_init_t`, with the counter of groups of `setup_multicast`. -/
structure McastInit where
  cmaId : Nat → Option CmaId
  mcastUdParam : Nat → UdParam
  groupI : Nat

/-- `mcast_cb_t` -/
structure McastCb where
  recvQp : List (Option McastQp)
  sendAh : List Nat
  qpn : List Nat
  qkey : List Nat

namespace McastInputs

variable (c : McastInputs)

/-- `check_context_inputs` -/
def CheckContextInputs : Prop :=
  0 < c.flowNum ∧ (0 < c.recvQpNum ∨ 0 < c.sendNum) ∧ c.recvQpNum ≤ c.flowNum ∧
  c.sendNum ≤ c.flowNum ∧ (∀ i < c.flowNum, 0 < c.groupsPerFlow i) ∧
  (0 < c.sendNum →
    (List.range c.flowNum).countP (fun i => decide (c.groupToSendTo i < c.groupsPerFlow i)) =
      c.sendNum) ∧
  (0 < c.recvQpNum →
    (∀ i < c.flowNum, 1 ≤ c.recvQDepth i ∧ (c.recvsFromFlow i = true → 1 < c.recvQDepth i)) ∧
    (List.range c.flowNum).countP c.recvsFromFlow = c.recvQpNum)

instance : Decidable c.CheckContextInputs := inferInstanceAs (Decidable (_ ∧ _))

/-- `groups_num`, a `uint16_t` -/
def groupsNum : Nat := (List.range c.flowNum).foldl (fun n j => u16 (n + c.groupsPerFlow j)) 0

/-- `cma_id_num`, a `uint16_t` -/
def cmaIdNum : Nat := u16 (max c.groupsNum (c.recvQpNum + 1))

/-- `is_sender` -/
def isSender (flowI subGroupI : Nat) : Bool :=
  decide (0 < c.sendNum) && decide (subGroupI = c.groupToSendTo flowI)

/-- `qp_i`: the id that joins a group -/
def qpI (flowI subGroupI : Nat) : Nat :=
  if c.recvQpNum = 0 then 0
  else if c.isSender flowI subGroupI || !c.recvsFromFlow flowI then c.recvQpNum
  else flowI

end McastInputs

/-! ## `create_mcast_cb` -/

section

variable (c : McastInputs) (ud : Nat → UdParam)

/-- `rdma_create_id` for `cma_id[i]` -/
def createId (s : McastInit) (i : Nat) : Outcome McastInit :=
  if i < c.cmaIdNum then .ok { s with cmaId := Function.update s.cmaId i (some ⟨none⟩) }
  else .error .undefined

/-- `rdma_create_qp` for `cma_id[i]` -/
def createQp (s : McastInit) (i : Nat) : Outcome McastInit :=
  match s.cmaId i with
  | some _ => .ok { s with
      cmaId := Function.update s.cmaId i (some ⟨some ⟨c.recvQDepth i, []⟩⟩) }
  | none => .error .undefined

/-- `set_up_mcast_qps` -/
def setUpMcastQps (s : McastInit) : Outcome McastInit :=
  match s.cmaId 0 with
  | some _ => (List.range c.recvQpNum).foldlM (createQp c) s
  | none => .error .undefined

/-- `rdma_join_multicast`: the QP of the id, if it has one, is joined to the group. -/
def CmaId.join (id : CmaId) (group : Nat) : CmaId where
  qp := id.qp.map fun qp => { qp with groups := qp.groups ++ [group] }

/-- `init->mcast_ud_param[flow_i] = event->param.ud` -/
def McastInit.setUdParam (s : McastInit) (flowI : Nat) (param : UdParam) : Outcome McastInit :=
  if flowI < c.sendNum then
    .ok { s with mcastUdParam := Function.update s.mcastUdParam flowI param }
  else .error .undefined

/-- A round of the inner loop of `setup_multicast`: the address of the group is resolved with its
    own id, and the group is joined with id `qp_i`. -/
def joinGroup (flowI : Nat) (s : McastInit) (subGroupI : Nat) : Outcome McastInit :=
  if s.groupI < c.groupsNum ∧ (s.cmaId s.groupI).isSome then
    match s.cmaId (c.qpI flowI subGroupI) with
    | none => .error .undefined
    | some id => do
      let s := { s with
        cmaId := Function.update s.cmaId (c.qpI flowI subGroupI) (some (id.join s.groupI)) }
      let s ← if c.isSender flowI subGroupI then s.setUdParam c flowI (ud s.groupI) else .ok s
      return { s with groupI := s.groupI + 1 }
  else .error .undefined

/-- `setup_multicast` -/
def setupMulticast (s : McastInit) : Outcome McastInit := do
  let s ← (List.range c.groupsNum).foldlM (createId c) s
  let s ← setUpMcastQps c s
  (List.range c.flowNum).foldlM
    (fun s flowI => (List.range (c.groupsPerFlow flowI)).foldlM (joinGroup c ud flowI) s) s

/-- `construct_mcast_cont`: the arrays are zeroed. -/
def constructMcastCont : McastInit where
  cmaId := fun _ => none
  mcastUdParam := fun _ => ⟨0, 0, 0⟩
  groupI := 0

/-- `create_mcast_cb`; the ids that it reads have passed an assertion of `set_up_mcast_qps`. -/
def createMcastCb : Outcome McastCb :=
  if c.CheckContextInputs then do
    let s ← setupMulticast c ud constructMcastCont
    return {
      recvQp := (List.range c.recvQpNum).map fun i => (s.cmaId i).bind CmaId.qp
      sendAh := (List.range c.sendNum).map fun i => (s.mcastUdParam i).ahAttr
      qpn := (List.range c.sendNum).map fun i => (s.mcastUdParam i).qpNum
      qkey := (List.range c.sendNum).map fun i => (s.mcastUdParam i).qkey }
  else .error .undefined

/-- `set_up_ctx_qps`, on the receive QP of a QP that receives multicasts -/
def McastCb.setUpCtxQps (cb : McastCb) (mcastQpId : Nat) : Outcome (Option McastQp) :=
  match cb.recvQp[mcastQpId]? with
  | some qp => .ok qp
  | none => .error .undefined

/-- `const_set_up_wr`, on the destination of a multicast -/
def McastCb.constSetUpWr (cb : McastCb) (mcastQpId : Nat) : Outcome UdParam :=
  match cb.sendAh[mcastQpId]?, cb.qpn[mcastQpId]?, cb.qkey[mcastQpId]? with
  | some ah, some qpn, some qkey => .ok ⟨ah, qpn, qkey⟩
  | _, _, _ => .error .undefined

end

/-! ## Ids and QPs -/

variable {c : McastInputs} {ud : Nat → UdParam}

/-- The first `n` ids are created. -/
def withIds (n : Nat) : McastInit :=
  { constructMcastCont with cmaId := fun i => if i < n then some ⟨none⟩ else none }

theorem createIds_eq_ok {s : McastInit} :
    (List.range c.groupsNum).foldlM (createId c) constructMcastCont = .ok s ↔
      (∀ i < c.groupsNum, i < c.cmaIdNum) ∧ s = withIds c.groupsNum := by
  let next : McastInit → Nat → McastInit := fun s i =>
    { s with cmaId := Function.update s.cmaId i (some ⟨none⟩) }
  have hfold : (List.range c.groupsNum).foldl next constructMcastCont = withIds c.groupsNum := by
    refine foldl_range_rule (P := fun k s => s = withIds k) c.groupsNum rfl ?_
    rintro k s - rfl
    exact congrArg (fun f => { constructMcastCont with cmaId := f }) (update_below _ _ k)
  rw [← hfold]
  refine foldlM_range_eq_ok c.groupsNum fun i t _ => ?_
  unfold createId
  by_cases hi : i < c.cmaIdNum
  · rw [if_pos hi]
    constructor
    · intro h
      cases h
      exact ⟨hi, rfl⟩
    · rintro ⟨-, rfl⟩
      rfl
  · rw [if_neg hi]
    exact iff_of_false (fun h => nomatch h) fun h => hi h.1

/-- The first `n` of `g` ids have their QPs. -/
def withQps (c : McastInputs) (g n : Nat) : McastInit :=
  { constructMcastCont with
    cmaId := fun i => if i < n then some ⟨some ⟨c.recvQDepth i, []⟩⟩ else (withIds g).cmaId i }

theorem createQps_eq_ok {g : Nat} {s : McastInit} :
    (List.range c.recvQpNum).foldlM (createQp c) (withIds g) = .ok s ↔
      (∀ i < c.recvQpNum, i < g) ∧ s = withQps c g c.recvQpNum := by
  let next : McastInit → Nat → McastInit := fun s i =>
    { s with cmaId := Function.update s.cmaId i (some ⟨some ⟨c.recvQDepth i, []⟩⟩) }
  have hfold : ∀ n, (List.range n).foldl next (withIds g) = withQps c g n := by
    intro n
    refine foldl_range_rule (P := fun k s => s = withQps c g k) n rfl ?_
    rintro k s - rfl
    exact congrArg (fun f => { constructMcastCont with cmaId := f }) (update_below _ _ k)
  rw [← hfold]
  refine foldlM_range_eq_ok c.recvQpNum fun i t _ => ?_
  rw [hfold]
  have hid : (withQps c g i).cmaId i = if i < g then some ⟨none⟩ else none :=
    if_neg (Nat.lt_irrefl i)
  unfold createQp
  by_cases hi : i < g
  · rw [hid, if_pos hi]
    constructor
    · intro h
      cases h
      exact ⟨hi, rfl⟩
    · rintro ⟨-, rfl⟩
      rfl
  · rw [hid, if_neg hi]
    exact iff_of_false (fun h => nomatch h) fun h => hi h.1

theorem isSome_withQps {g n : Nat} (h : n ≤ g) (i : Nat) :
    ((withQps c g n).cmaId i).isSome = true ↔ i < g := by
  unfold withQps withIds
  dsimp only
  split
  · exact iff_of_true rfl (by omega)
  · split
    · exact iff_of_true rfl ‹_›
    · exact iff_of_false (fun h => nomatch h) ‹_›

/-- **`set_up_mcast_qps`.** -/
theorem setUpMcastQps_eq_ok {g : Nat} {s : McastInit} :
    setUpMcastQps c (withIds g) = .ok s ↔
      (0 < g ∧ ∀ i < c.recvQpNum, i < g) ∧ s = withQps c g c.recvQpNum := by
  have hid : (withIds g).cmaId 0 = if 0 < g then some ⟨none⟩ else none := rfl
  unfold setUpMcastQps
  by_cases hg : 0 < g
  · rw [hid, if_pos hg]
    dsimp only
    rw [createQps_eq_ok, and_iff_right hg]
  · rw [hid, if_neg hg]
    exact iff_of_false (fun h => nomatch h) fun h => hg h.1.1

/-! ## One group -/

/-- The state after a group was joined. -/
def McastInit.joined (c : McastInputs) (ud : Nat → UdParam) (flowI : Nat) (s : McastInit)
    (subGroupI : Nat) : McastInit where
  cmaId := Function.update s.cmaId (c.qpI flowI subGroupI)
    ((s.cmaId (c.qpI flowI subGroupI)).map fun id => id.join s.groupI)
  mcastUdParam :=
    if c.isSender flowI subGroupI then Function.update s.mcastUdParam flowI (ud s.groupI)
    else s.mcastUdParam
  groupI := s.groupI + 1

/-- **What it takes to join a group**, and what it does. -/
theorem joinGroup_eq_ok {flowI subGroupI : Nat} {s s' : McastInit} :
    joinGroup c ud flowI s subGroupI = .ok s' ↔
      (s.groupI < c.groupsNum ∧ (s.cmaId s.groupI).isSome) ∧
      (s.cmaId (c.qpI flowI subGroupI)).isSome ∧
      (c.isSender flowI subGroupI = true → flowI < c.sendNum) ∧
      s' = s.joined c ud flowI subGroupI := by
  unfold joinGroup McastInit.joined
  by_cases hgroup : s.groupI < c.groupsNum ∧ (s.cmaId s.groupI).isSome
  · rw [if_pos hgroup]
    cases hid : s.cmaId (c.qpI flowI subGroupI) with
    | none =>
      refine iff_of_false (fun h => nomatch h) ?_
      rintro ⟨-, h, -⟩
      nomatch h
    | some id =>
      dsimp only
      by_cases hsender : c.isSender flowI subGroupI = true
      · rw [if_pos hsender, if_pos hsender]
        unfold McastInit.setUdParam
        by_cases hflow : flowI < c.sendNum
        · rw [if_pos hflow]
          constructor
          · intro h
            cases h
            exact ⟨hgroup, rfl, fun _ => hflow, rfl⟩
          · rintro ⟨-, -, -, rfl⟩
            rfl
        · rw [if_neg hflow]
          refine iff_of_false (fun h => nomatch h) ?_
          rintro ⟨-, -, h, -⟩
          exact hflow (h hsender)
      · rw [if_neg hsender, if_neg hsender]
        constructor
        · intro h
          cases h
          exact ⟨hgroup, rfl, fun h => absurd h hsender, rfl⟩
        · rintro ⟨-, -, -, rfl⟩
          rfl
  · rw [if_neg hgroup]
    refine iff_of_false (fun h => nomatch h) ?_
    rintro ⟨h, -⟩
    exact hgroup h

/-- The same pointers are `NULL`. -/
theorem isSome_joined {flowI subGroupI : Nat} {s : McastInit} (i : Nat) :
    ((s.joined c ud flowI subGroupI).cmaId i).isSome = (s.cmaId i).isSome := by
  show (Function.update s.cmaId _ _ i).isSome = _
  by_cases hi : i = c.qpI flowI subGroupI
  · subst hi
    rw [Function.update_self, Option.isSome_map]
  · rw [Function.update_of_ne hi]

/-! ## All groups -/

/-- The ids are there, and the next group is `g`. -/
def IdsReady (c : McastInputs) (s : McastInit) (g : Nat) : Prop :=
  s.groupI = g ∧ ∀ i, (s.cmaId i).isSome = true ↔ i < c.groupsNum

theorem IdsReady.joined {s : McastInit} {g : Nat} (h : IdsReady c s g) (flowI subGroupI : Nat) :
    IdsReady c (s.joined c ud flowI subGroupI) (g + 1) := by
  refine ⟨congrArg (· + 1) h.1, fun i => ?_⟩
  rw [isSome_joined]
  exact h.2 i

/-- The groups of one flow are joined. -/
def joinFlow (c : McastInputs) (ud : Nat → UdParam) (s : McastInit) (flowI : Nat) : McastInit :=
  (List.range (c.groupsPerFlow flowI)).foldl (fun s => s.joined c ud flowI) s

theorem IdsReady.joinedTo {s : McastInit} {g : Nat} (h : IdsReady c s g) (ud : Nat → UdParam)
    (flowI n : Nat) :
    IdsReady c ((List.range n).foldl (fun s => s.joined c ud flowI) s) (g + n) :=
  foldl_range_rule (P := fun k t => IdsReady c t (g + k)) n h fun _ _ _ ht => ht.joined flowI _

/-- Where the groups of a flow begin. -/
def McastInputs.groupIndex (c : McastInputs) (flowI subGroupI : Nat) : Nat :=
  offset c.groupsPerFlow flowI + subGroupI

theorem IdsReady.joinedFlows {s : McastInit} (h : IdsReady c s 0) (ud : Nat → UdParam) (n : Nat) :
    IdsReady c ((List.range n).foldl (joinFlow c ud) s) (offset c.groupsPerFlow n) :=
  foldl_range_rule (P := fun k t => IdsReady c t (offset c.groupsPerFlow k)) n h
    fun k _ _ ht => ht.joinedTo ud k _

/-- The pointers that joining a group follows are there. -/
def McastInputs.Joinable (c : McastInputs) (flowI subGroupI : Nat) : Prop :=
  c.groupIndex flowI subGroupI < c.groupsNum ∧ c.qpI flowI subGroupI < c.groupsNum ∧
    (c.isSender flowI subGroupI = true → flowI < c.sendNum)

/-- **The loops of `setup_multicast`.** -/
theorem join_eq_ok {s s' : McastInit} (h : IdsReady c s 0) :
    (List.range c.flowNum).foldlM
        (fun s flowI => (List.range (c.groupsPerFlow flowI)).foldlM (joinGroup c ud flowI) s) s =
      .ok s' ↔
    (∀ f < c.flowNum, ∀ sub < c.groupsPerFlow f, c.Joinable f sub) ∧
      s' = (List.range c.flowNum).foldl (joinFlow c ud) s := by
  refine foldlM_range_eq_ok c.flowNum fun f t _ => ?_
  have hflows := h.joinedFlows ud f
  refine foldlM_range_eq_ok (c.groupsPerFlow f) fun sub t _ => ?_
  obtain ⟨hgroup, hids⟩ := hflows.joinedTo ud f sub
  rw [joinGroup_eq_ok, hids, hids, hgroup, and_self_iff]
  unfold McastInputs.Joinable McastInputs.groupIndex
  rw [and_assoc, and_assoc]

/-- **`setup_multicast`** returns exactly when every pointer that it follows is there. -/
theorem setupMulticast_eq_ok {s : McastInit} :
    setupMulticast c ud constructMcastCont = .ok s ↔
      (∀ i < c.groupsNum, i < c.cmaIdNum) ∧ (0 < c.groupsNum ∧ c.recvQpNum ≤ c.groupsNum) ∧
      (∀ f < c.flowNum, ∀ sub < c.groupsPerFlow f, c.Joinable f sub) ∧
      s = (List.range c.flowNum).foldl (joinFlow c ud) (withQps c c.groupsNum c.recvQpNum) := by
  have hle : (∀ i < c.recvQpNum, i < c.groupsNum) ↔ c.recvQpNum ≤ c.groupsNum := by
    constructor
    · intro h
      rcases Nat.eq_zero_or_pos c.recvQpNum with hzero | hpos
      · omega
      · have hlast := h (c.recvQpNum - 1) (by omega)
        omega
    · intro h i hi
      omega
  unfold setupMulticast
  constructor
  · intro h
    obtain ⟨t, hids, h⟩ := bind_eq_ok.mp h
    obtain ⟨hbound, rfl⟩ := createIds_eq_ok.mp hids
    obtain ⟨t, hqps, h⟩ := bind_eq_ok.mp h
    obtain ⟨⟨hpos, hrecv⟩, rfl⟩ := setUpMcastQps_eq_ok.mp hqps
    have hready : IdsReady c (withQps c c.groupsNum c.recvQpNum) 0 :=
      ⟨rfl, isSome_withQps (hle.mp hrecv)⟩
    obtain ⟨hjoin, hs⟩ := (join_eq_ok hready).mp h
    exact ⟨hbound, ⟨hpos, hle.mp hrecv⟩, hjoin, hs⟩
  · rintro ⟨hbound, ⟨hpos, hrecv⟩, hjoin, hs⟩
    have hready : IdsReady c (withQps c c.groupsNum c.recvQpNum) 0 :=
      ⟨rfl, isSome_withQps hrecv⟩
    refine bind_eq_ok.mpr ⟨_, createIds_eq_ok.mpr ⟨hbound, rfl⟩, ?_⟩
    refine bind_eq_ok.mpr ⟨_, setUpMcastQps_eq_ok.mpr ⟨⟨hpos, hle.mpr hrecv⟩, rfl⟩, ?_⟩
    exact (join_eq_ok hready).mpr ⟨hjoin, hs⟩

/-! ## What is joined -/

/-- Group `x` is joined with id `i`. -/
def McastInputs.JoinedWith (c : McastInputs) (i x : Nat) : Prop :=
  ∃ f, ∃ sub < c.groupsPerFlow f, c.qpI f sub = i ∧ x = c.groupIndex f sub

/-- The first `g` groups are joined, and the parameters of those that are sent to are stored. -/
structure JoinInv (c : McastInputs) (ud : Nat → UdParam) (s : McastInit) (g : Nat) : Prop where
  groupI : s.groupI = g
  qps : ∀ i < c.recvQpNum, ∃ groups, s.cmaId i = some ⟨some ⟨c.recvQDepth i, groups⟩⟩ ∧
    ∀ x, x ∈ groups ↔ x < g ∧ c.JoinedWith i x
  params : ∀ f, ∀ sub < c.groupsPerFlow f, c.isSender f sub = true → c.groupIndex f sub < g →
    s.mcastUdParam f = ud (c.groupIndex f sub)

/-- A sender sends to one group of a flow. -/
theorem eq_of_isSender {f sub sub' : Nat} (h : c.isSender f sub = true)
    (h' : c.isSender f sub' = true) : sub = sub' := by
  have hgroup := of_decide_eq_true (Bool.and_eq_true_iff.mp h).2
  have hgroup' := of_decide_eq_true (Bool.and_eq_true_iff.mp h').2
  exact hgroup.trans hgroup'.symm

/-- **One more group.** -/
theorem JoinInv.joined {s : McastInit} {f sub : Nat} (hsub : sub < c.groupsPerFlow f)
    (h : JoinInv c ud s (c.groupIndex f sub)) :
    JoinInv c ud (s.joined c ud f sub) (c.groupIndex f sub + 1) := by
  have hnew : ∀ {i x}, c.qpI f sub ≠ i → c.JoinedWith i x → x ≠ c.groupIndex f sub := by
    rintro i x hne ⟨f', sub', hsub', hi, rfl⟩ heq
    obtain ⟨rfl, rfl⟩ := offset_add_inj hsub' hsub heq
    exact hne hi
  refine ⟨congrArg (· + 1) h.groupI, fun i hi => ?_, fun f' sub' hsub' hsender hlt => ?_⟩
  · obtain ⟨groups, hid, hgroups⟩ := h.qps i hi
    show ∃ groups, Function.update s.cmaId _ _ i = _ ∧ _
    by_cases hjoin : c.qpI f sub = i
    · -- the id of this group
      rw [hjoin, Function.update_self, hid, h.groupI]
      refine ⟨groups ++ [c.groupIndex f sub], rfl, fun x => ?_⟩
      rw [List.mem_append, hgroups, List.mem_singleton]
      constructor
      · rintro (⟨hlt, hx⟩ | rfl)
        · exact ⟨by omega, hx⟩
        · exact ⟨by omega, f, sub, hsub, hjoin, rfl⟩
      · rintro ⟨hlt, hx⟩
        by_cases hx' : x = c.groupIndex f sub
        · exact .inr hx'
        · exact .inl ⟨by omega, hx⟩
    · rw [Function.update_of_ne (Ne.symm hjoin)]
      refine ⟨groups, hid, fun x => ?_⟩
      rw [hgroups]
      constructor
      · rintro ⟨hlt, hx⟩
        exact ⟨by omega, hx⟩
      · rintro ⟨hlt, hx⟩
        have hne := hnew hjoin hx
        exact ⟨by omega, hx⟩
  · show (if c.isSender f sub then _ else s.mcastUdParam) f' = _
    by_cases hlast : c.groupIndex f' sub' = c.groupIndex f sub
    · obtain ⟨rfl, rfl⟩ := offset_add_inj hsub' hsub hlast
      rw [if_pos hsender, Function.update_self, h.groupI]
    · have hold := h.params f' sub' hsub' hsender (by omega)
      split
      · rename_i hsends
        have hflow : f' ≠ f := by
          rintro rfl
          exact hlast (by rw [eq_of_isSender hsender hsends])
        rw [Function.update_of_ne hflow]
        exact hold
      · exact hold

/-- **All groups.** -/
theorem joinFlows_inv (c : McastInputs) (ud : Nat → UdParam) (n : Nat) :
    JoinInv c ud
      ((List.range n).foldl (joinFlow c ud) (withQps c c.groupsNum c.recvQpNum))
      (offset c.groupsPerFlow n) := by
  have hstart : JoinInv c ud (withQps c c.groupsNum c.recvQpNum) (offset c.groupsPerFlow 0) := by
    refine ⟨rfl, fun i hi => ⟨[], if_pos hi, fun x => ?_⟩, fun f sub _ _ hlt => ?_⟩
    · exact iff_of_false (fun h => nomatch h) fun h => absurd h.1 (Nat.not_lt_zero x)
    · exact absurd hlt (Nat.not_lt_zero _)
  refine foldl_range_rule (P := fun k s => JoinInv c ud s (offset c.groupsPerFlow k)) n hstart ?_
  intro f s _ hs
  exact foldl_range_rule (P := fun k s => JoinInv c ud s (c.groupIndex f k)) _ hs
    fun sub t hsub ht => ht.joined hsub

/-! ## Which inputs are set up right -/

namespace McastInputs

variable (c : McastInputs)

/-- The flow is received from. -/
def Receives (f : Nat) : Prop := 0 < c.recvQpNum ∧ c.recvsFromFlow f = true

/-- The flow is sent to. -/
def SendsTo (f : Nat) : Prop := 0 < c.sendNum ∧ c.groupToSendTo f < c.groupsPerFlow f

/-- How many groups there are. -/
def totalGroups : Nat := offset c.groupsPerFlow c.flowNum

/-- Flows that are received from come first, and flows that are sent to come first; the numbers of
    groups and ids fit a `uint16_t`; and there is an id to join the own groups with. -/
structure Dense : Prop where
  recv : ∀ f < c.flowNum, c.Receives f → f < c.recvQpNum
  send : ∀ f < c.flowNum, c.SendsTo f → f < c.sendNum
  groups16 : c.totalGroups < 2 ^ 16
  ids16 : c.recvQpNum + 1 < 2 ^ 16
  spare : c.recvQpNum = c.totalGroups → c.sendNum = 0

theorem groupsNum_eq : c.groupsNum = u16 c.totalGroups := foldl_u16_eq_offset _ _

end McastInputs

theorem isSender_iff {f sub : Nat} :
    c.isSender f sub = true ↔ 0 < c.sendNum ∧ sub = c.groupToSendTo f := by
  unfold McastInputs.isSender
  rw [Bool.and_eq_true_iff, decide_eq_true_iff, decide_eq_true_iff]

/-- The id of a group that is received from, and of the others. -/
theorem qpI_of_pos (h : 0 < c.recvQpNum) (f sub : Nat) :
    c.qpI f sub =
      if c.isSender f sub || !c.recvsFromFlow f then c.recvQpNum else f :=
  if_neg (by omega)

theorem flowNum_le (hc : c.CheckContextInputs) : c.flowNum ≤ c.totalGroups :=
  le_offset hc.2.2.2.2.1

/-- **Every pointer is there** if the inputs are dense. -/
theorem McastInputs.Dense.setUp (hc : c.CheckContextInputs) (h : c.Dense) :
    (∀ i < c.groupsNum, i < c.cmaIdNum) ∧ (0 < c.groupsNum ∧ c.recvQpNum ≤ c.groupsNum) ∧
      ∀ f < c.flowNum, ∀ sub < c.groupsPerFlow f, c.Joinable f sub := by
  obtain ⟨hflow, -, hrecv, -, -, -, hcount⟩ := id hc
  have hle := flowNum_le hc
  have hgroups : c.groupsNum = c.totalGroups := by
    rw [c.groupsNum_eq]
    exact u16_of_lt h.groups16
  have hids : c.cmaIdNum = max c.totalGroups (c.recvQpNum + 1) := by
    unfold McastInputs.cmaIdNum
    rw [hgroups]
    exact u16_of_lt (max_lt h.groups16 h.ids16)
  rw [hgroups, hids]
  refine ⟨fun i hi => lt_of_lt_of_le hi (le_max_left _ _), ⟨by omega, by omega⟩, ?_⟩
  intro f hf sub hsub
  unfold McastInputs.Joinable
  rw [hgroups]
  refine ⟨offset_add_lt hf hsub, ?_, fun hsender => ?_⟩
  · by_cases hpos : 0 < c.recvQpNum
    · rw [qpI_of_pos hpos]
      split
      · rename_i hspare
        -- the spare id exists, or all groups are received from
        refine Nat.lt_of_le_of_ne (by omega) fun hfull => ?_
        have hnone := h.spare hfull
        have hall := (hcount hpos).2
        have hlen : c.recvQpNum = (List.range c.flowNum).length := by
          rw [List.length_range]
          omega
        rw [hlen, List.countP_eq_length] at hall
        have hrecvs := hall f (List.mem_range.mpr hf)
        rw [hrecvs, Bool.not_true, Bool.or_false, isSender_iff] at hspare
        omega
      · omega
    · unfold McastInputs.qpI
      rw [if_pos (by omega)]
      omega
  · obtain ⟨hsends, rfl⟩ := isSender_iff.mp hsender
    exact h.send f hf ⟨hsends, hsub⟩

/-- What the pointers say about the numbers. -/
theorem bounds_of_setUp (hc : c.CheckContextInputs) (hbound : ∀ i < c.groupsNum, i < c.cmaIdNum)
    (hpos : 0 < c.groupsNum)
    (hjoin : ∀ f < c.flowNum, ∀ sub < c.groupsPerFlow f, c.Joinable f sub) :
    c.totalGroups < 2 ^ 16 ∧ c.recvQpNum + 1 < 2 ^ 16 ∧
      (c.recvQpNum = c.totalGroups → c.sendNum = 0) := by
  obtain ⟨hflow, -, -, -, hsize, hsend, -⟩ := id hc
  have hmod : c.groupsNum < 2 ^ 16 := by
    rw [c.groupsNum_eq]
    exact Nat.mod_lt _ (by decide)
  have htotal : c.totalGroups < 2 ^ 16 := by
    -- the last group is joined
    obtain ⟨n, hn⟩ := Nat.exists_eq_add_of_lt hflow
    have hsizeN := hsize n (by omega)
    have hlast := (hjoin n (by omega) (c.groupsPerFlow n - 1) (by omega)).1
    have hsum : c.totalGroups = offset c.groupsPerFlow n + c.groupsPerFlow n := by
      unfold McastInputs.totalGroups
      rw [hn, Nat.zero_add, offset_succ]
    unfold McastInputs.groupIndex at hlast
    omega
  refine ⟨htotal, ?_, fun hfull => ?_⟩
  · refine Nat.lt_of_le_of_ne c.recvQpNum_lt fun hwrap => ?_
    have hzero : c.cmaIdNum = 0 := by
      unfold McastInputs.cmaIdNum
      rw [hwrap, max_eq_right (Nat.le_of_lt hmod)]
      rfl
    have hfirst := hbound 0 hpos
    omega
  · by_contra hsome
    have hle := flowNum_le hc
    have hcount := hsend (by omega)
    obtain ⟨f, hf, hsends⟩ := List.countP_pos_iff.mp
      (show 0 < (List.range c.flowNum).countP _ by rw [hcount]; omega)
    have hgroup := of_decide_eq_true hsends
    have hsender : c.isSender f (c.groupToSendTo f) = true := isSender_iff.mpr ⟨by omega, rfl⟩
    have hid := (hjoin f (List.mem_range.mp hf) _ hgroup).2.1
    rw [qpI_of_pos (by omega), hsender, Bool.true_or, if_pos rfl, c.groupsNum_eq,
      u16_of_lt htotal] at hid
    omega

/-! ## The result -/

/-- The multicast that a configuration asks for. -/
structure McastRight (c : McastInputs) (ud : Nat → UdParam) (cb : McastCb) : Prop where
  /-- the QP of a flow that is received from: its depth, and the groups that it is joined to -/
  recv : ∀ f < c.flowNum, c.Receives f → ∃ qp, cb.setUpCtxQps f = .ok (some qp) ∧
    qp.maxRecvWr = c.recvQDepth f ∧
    ∀ x, x ∈ qp.groups ↔ ∃ sub < c.groupsPerFlow f,
      ¬ (c.SendsTo f ∧ sub = c.groupToSendTo f) ∧ x = c.groupIndex f sub
  /-- the parameters of a flow that is sent to -/
  send : ∀ f < c.flowNum, c.SendsTo f →
    cb.constSetUpWr f = .ok (ud (c.groupIndex f (c.groupToSendTo f)))

/-- What `create_mcast_cb` takes from the set-up. -/
theorem createMcastCb_eq_ok (hc : c.CheckContextInputs) {cb : McastCb} :
    createMcastCb c ud = .ok cb ↔ ∃ s, setupMulticast c ud constructMcastCont = .ok s ∧
      cb = {
        recvQp := (List.range c.recvQpNum).map fun i => (s.cmaId i).bind CmaId.qp
        sendAh := (List.range c.sendNum).map fun i => (s.mcastUdParam i).ahAttr
        qpn := (List.range c.sendNum).map fun i => (s.mcastUdParam i).qpNum
        qkey := (List.range c.sendNum).map fun i => (s.mcastUdParam i).qkey } := by
  unfold createMcastCb
  rw [if_pos hc, bind_eq_ok]
  constructor
  · rintro ⟨s, hs, h⟩
    cases h
    exact ⟨s, hs, rfl⟩
  · rintro ⟨s, hs, rfl⟩
    exact ⟨s, hs, rfl⟩

/-- The groups that are joined with the id of a flow that is received from. -/
theorem joinedWith_iff {f x : Nat} (hf : f < c.recvQpNum) (hrecvs : c.recvsFromFlow f = true) :
    c.JoinedWith f x ↔ ∃ sub < c.groupsPerFlow f,
      ¬ (c.SendsTo f ∧ sub = c.groupToSendTo f) ∧ x = c.groupIndex f sub := by
  have hpos : 0 < c.recvQpNum := by omega
  constructor
  · rintro ⟨f', sub, hsub, hqp, rfl⟩
    rw [qpI_of_pos hpos] at hqp
    split at hqp
    · omega
    · rename_i hnot
      subst hqp
      refine ⟨sub, hsub, fun hown => hnot ?_, rfl⟩
      rw [isSender_iff.mpr ⟨hown.1.1, hown.2⟩, Bool.true_or]
  · rintro ⟨sub, hsub, hown, rfl⟩
    refine ⟨f, sub, hsub, ?_, rfl⟩
    have hsender : c.isSender f sub = false := by
      refine eq_false_of_ne_true fun hsender => hown ?_
      obtain ⟨hsend, rfl⟩ := isSender_iff.mp hsender
      exact ⟨⟨hsend, hsub⟩, rfl⟩
    rw [qpI_of_pos hpos, hsender, hrecvs]
    rfl

/-- **Multicast is set up right** exactly for dense inputs. -/
theorem multicast_right (hc : c.CheckContextInputs) :
    (∃ cb, createMcastCb c ud = .ok cb ∧ McastRight c ud cb) ↔ c.Dense := by
  constructor
  · rintro ⟨cb, hcb, hright⟩
    obtain ⟨s, hs, rfl⟩ := (createMcastCb_eq_ok hc).mp hcb
    obtain ⟨hbound, ⟨hpos, -⟩, hjoin, -⟩ := setupMulticast_eq_ok.mp hs
    obtain ⟨hgroups, hids, hspare⟩ := bounds_of_setUp hc hbound hpos hjoin
    refine ⟨fun f hf hrecv => ?_, fun f hf hsend => ?_, hgroups, hids, hspare⟩
    · -- the QP is in the array
      obtain ⟨qp, hqp, -⟩ := hright.recv f hf hrecv
      by_contra hout
      unfold McastCb.setUpCtxQps at hqp
      rw [List.getElem?_eq_none (by simpa using hout)] at hqp
      nomatch hqp
    · exact (hjoin f hf _ hsend.2).2.2 (isSender_iff.mpr ⟨hsend.1, rfl⟩)
  · intro hdense
    obtain ⟨hbound, hready, hjoin⟩ := hdense.setUp hc
    have hs : setupMulticast c ud constructMcastCont = .ok _ :=
      setupMulticast_eq_ok.mpr ⟨hbound, hready, hjoin, rfl⟩
    refine ⟨_, (createMcastCb_eq_ok hc).mpr ⟨_, hs, rfl⟩, ?_⟩
    have hinv := joinFlows_inv c ud c.flowNum
    constructor
    · intro f hf hrecv
      have hlt := hdense.recv f hf hrecv
      obtain ⟨groups, hid, hgroups⟩ := hinv.qps f hlt
      refine ⟨⟨c.recvQDepth f, groups⟩, ?_, rfl, fun x => ?_⟩
      · unfold McastCb.setUpCtxQps
        rw [List.getElem?_map, List.getElem?_range hlt, Option.map_some, hid]
        rfl
      · rw [hgroups, joinedWith_iff hlt hrecv.2]
        refine and_iff_right_of_imp ?_
        rintro ⟨sub, hsub, -, rfl⟩
        exact offset_add_lt hf hsub
    · intro f hf hsend
      have hlt := hdense.send f hf hsend
      have hparam := hinv.params f _ hsend.2 (isSender_iff.mpr ⟨hsend.1, rfl⟩)
        (offset_add_lt hf hsend.2)
      unfold McastCb.constSetUpWr
      simp only [List.getElem?_map, List.getElem?_range hlt, Option.map_some, hparam]

/-- Two flows of one group each; nothing is sent, and only flow 1 is received from. -/
def secondFlow : McastInputs where
  flowNum := 2
  recvQpNum := 1
  sendNum := 0
  groupsPerFlow := fun _ => 1
  recvQDepth := fun _ => 2
  groupToSendTo := fun _ => 0
  recvsFromFlow := fun f => f == 1
  flowNum_lt := by decide
  recvQpNum_lt := by decide

/-- The same flows; nothing is received, and only flow 1 is sent to. -/
def secondFlowSent : McastInputs :=
  { secondFlow with
    recvQpNum := 0
    sendNum := 1
    groupToSendTo := fun f => 1 - f
    recvQpNum_lt := by decide }

/-- The parameters of a group, all different. -/
def groupParams (g : Nat) : UdParam := ⟨3 * g, 3 * g + 1, 3 * g + 2⟩

/-- **Flow 1 alone.**  The one receive QP is joined to nothing, and there is none at index 1; and
    the parameters of the group are stored behind the end of their array. -/
theorem multicast_second_flow :
    (secondFlow.CheckContextInputs ∧ secondFlow.Receives 1 ∧
      (∃ cb, createMcastCb secondFlow groupParams = .ok cb ∧
        cb.setUpCtxQps 0 = .ok (some ⟨2, []⟩) ∧ cb.setUpCtxQps 1 = .error .undefined) ∧
      ¬ ∃ cb, createMcastCb secondFlow groupParams = .ok cb ∧
        McastRight secondFlow groupParams cb) ∧
    (secondFlowSent.CheckContextInputs ∧ secondFlowSent.SendsTo 1 ∧
      createMcastCb secondFlowSent groupParams = .error .undefined) := by
  have hundefined : ∃ cb, createMcastCb secondFlow groupParams = .ok cb ∧
      cb.setUpCtxQps 0 = .ok (some ⟨2, []⟩) ∧ cb.setUpCtxQps 1 = .error .undefined :=
    ⟨_, rfl, rfl, rfl⟩
  refine ⟨⟨by decide, ⟨by decide, by decide⟩, hundefined, ?_⟩, by decide,
    ⟨by decide, by decide⟩, rfl⟩
  rintro ⟨cb, hcb, hright⟩
  obtain ⟨cb', hcb', -, hbehind⟩ := hundefined
  rw [hcb'] at hcb
  cases hcb
  obtain ⟨qp, hqp, -⟩ := hright.recv 1 (by decide) ⟨by decide, by decide⟩
  rw [hbehind] at hqp
  nomatch hqp

/-- Flow 0 has two groups, and is received from and sent to; flow 1 is neither. -/
def firstFlow : McastInputs where
  flowNum := 2
  recvQpNum := 1
  sendNum := 1
  groupsPerFlow := fun f => 2 - f
  recvQDepth := fun _ => 2
  groupToSendTo := fun f => 1 + 8 * f
  recvsFromFlow := fun f => f == 0
  flowNum_lt := by decide
  recvQpNum_lt := by decide

theorem multicast_first_flow :
    ∃ cb, createMcastCb firstFlow groupParams = .ok cb ∧ McastRight firstFlow groupParams cb := by
  refine (multicast_right (by decide)).mpr ⟨?_, ?_, by decide, by decide, by decide⟩
  · intro f _ hrecv
    have hfirst : f = 0 := by simpa [firstFlow] using hrecv.2
    subst hfirst
    decide
  · intro f hf hsend
    have hflow : firstFlow.flowNum = 2 := rfl
    obtain rfl | rfl : f = 0 ∨ f = 1 := by omega
    · decide
    · exact absurd hsend.2 (by decide)

end Odyssey
