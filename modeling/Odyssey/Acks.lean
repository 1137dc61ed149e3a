/-
  COALESCED ACKS.

  An ack stands for a range of ids, stored as its first id and a count, and for a number of
  credits.  `ctx_ack_insert` extends the ack of a machine by a message; `od_send_acks` sends all
  pending acks.  What an ack should stand for is the inserts that were accepted since it was last
  sent: the same ids, in the same order, and one credit each (`Covers`).

  That works as long as each insert continues the range.  `ctx_ack_insert` promises to refuse one
  that does not, "if the machine lost some messages", but the test is compiled out with the
  assertions.  In such a build a gap in the ids is bridged silently, and the ack covers ids that
  were never inserted.  `acks_correct_iff` says that this is the only way to go wrong.
-/
import Odyssey.Sending
import Mathlib.Algebra.BigOperators.Group.List.Basic

namespace Odyssey

open Lib

variable {μ : Type}

/-! ## Ranges of ids -/

/-- The ids `l_id`, `l_id + 1`, …, `num` of them, as a `uint64_t` counts. -/
def ids (lId : UInt64) (num : Nat) : List UInt64 :=
  (List.range num).map fun i => lId + UInt64.ofNat i

@[simp] theorem length_ids (lId : UInt64) (num : Nat) : (ids lId num).length = num := by
  simp [ids]

/-- A range, and the range that continues it. -/
theorem ids_add (lId : UInt64) (a b : Nat) :
    ids lId (a + b) = ids lId a ++ ids (lId + UInt64.ofNat a) b := by
  unfold ids
  rw [List.range_add, List.map_append, List.map_map]
  congr 1
  apply List.map_congr_left
  intro i _
  show lId + UInt64.ofNat (a + i) = lId + UInt64.ofNat a + UInt64.ofNat i
  rw [UInt64.ofNat_add, UInt64.add_assoc]

/-- An insert that was accepted. -/
structure Insert where
  lId : UInt64
  mesNum : UInt32

/-- The ids of some inserts, in order. -/
def insertedIds (acc : List Insert) : List UInt64 :=
  acc.flatMap fun i => ids i.lId i.mesNum.toNat

/-- Fewer than `2 ^ 16` inserts, and fewer than `2 ^ 32` ids. -/
def Fits (acc : List Insert) : Prop := acc.length < 2 ^ 16 ∧ (insertedIds acc).length < 2 ^ 32

/-- The ack of a slot stands for the inserts `acc`. -/
structure Covers (ack : CtxAckMes) (acc : List Insert) : Prop where
  pending : ack.opcode = opAck ↔ acc = []
  ids_eq : acc ≠ [] → ids ack.lId ack.ackNum.toNat = insertedIds acc
  credits : acc ≠ [] → ack.credits.toNat = acc.length

/-- An insert continues the range, if there is an ack pending. -/
def Continues (ack : CtxAckMes) (lId : UInt64) : Prop :=
  ack.opcode ≠ opAck → ack.lId + ack.ackNum.toUInt64 = lId

namespace Covers

variable {ack : CtxAckMes} {acc : List Insert}

/-- A free slot. -/
theorem free (h : ack.opcode = opAck) : Covers ack [] :=
  ⟨⟨fun _ => rfl, fun _ => h⟩, fun hne => absurd rfl hne, fun hne => absurd rfl hne⟩

/-- **An insert that starts the range or continues it** is accepted. -/
theorem insert {lId : UInt64} (enableAssertions : Bool) (mesNum : UInt32) (h : Covers ack acc)
    (hcont : Continues ack lId) :
    ∃ ack', Context.ackInsert enableAssertions ack mesNum lId = (ack', true) ∧
      (Fits (acc ++ [⟨lId, mesNum⟩]) → Covers ack' (acc ++ [⟨lId, mesNum⟩])) := by
  have hids : insertedIds (acc ++ [⟨lId, mesNum⟩]) = insertedIds acc ++ ids lId mesNum.toNat := by
    simp [insertedIds]
  unfold Context.ackInsert
  by_cases hfree : ack.opcode = opAck
  · -- a new ack
    rw [if_neg fun hc => hc.2.1 hfree, if_pos hfree]
    have hnil := h.pending.mp hfree
    subst hnil
    refine ⟨_, rfl, fun _ => ⟨?_, fun _ => ?_, fun _ => rfl⟩⟩
    · constructor
      · intro hc
        exact absurd hc (show ackNotYetSent ≠ opAck by decide)
      · intro hc
        nomatch hc
    · rw [hids]
      rfl
  · -- one more message for the old ack
    have hcont' := hcont hfree
    rw [if_neg fun hc => hc.2.2 hcont', if_neg hfree]
    refine ⟨_, rfl, ?_⟩
    rintro ⟨hnum, htotal⟩
    rw [hids, List.length_append, length_ids] at htotal
    rw [List.length_append, List.length_singleton] at hnum
    have hne : acc ≠ [] := fun hnil => hfree (h.pending.mpr hnil)
    have hold := h.ids_eq hne
    have hlen : ack.ackNum.toNat = (insertedIds acc).length := by
      rw [← hold, length_ids]
    have hsum : (ack.ackNum + mesNum).toNat = ack.ackNum.toNat + mesNum.toNat := by
      rw [UInt32.toNat_add]
      exact Nat.mod_eq_of_lt (by omega)
    have hone : (ack.credits + 1).toNat = ack.credits.toNat + 1 := by
      have hcred := h.credits hne
      rw [UInt16.toNat_add]
      exact Nat.mod_eq_of_lt (show ack.credits.toNat + 1 < 2 ^ 16 by omega)
    have hfirst : ack.lId + UInt64.ofNat ack.ackNum.toNat = lId := by
      rw [← hcont', UInt64.ofNat_uInt32ToNat]
    refine ⟨?_, fun _ => ?_, fun _ => ?_⟩
    · constructor
      · intro hc
        exact absurd hc hfree
      · intro hc
        exact absurd hc (by simp)
    · show ids ack.lId (ack.ackNum + mesNum).toNat = _
      rw [hsum, ids_add, hids, hold, hfirst]
    · show (ack.credits + 1).toNat = _
      rw [hone, h.credits hne, List.length_append, List.length_singleton]

/-- **An insert that does not continue the range** is refused with the assertions, and accepted
    without them. -/
theorem insert_gap {lId : UInt64} (enableAssertions : Bool) (mesNum : UInt32)
    (hpend : ack.opcode ≠ opAck) (hgap : ack.lId + ack.ackNum.toUInt64 ≠ lId) :
    (enableAssertions = true → Context.ackInsert enableAssertions ack mesNum lId = (ack, false)) ∧
    (enableAssertions = false → (Context.ackInsert enableAssertions ack mesNum lId).2 = true) := by
  unfold Context.ackInsert
  constructor
  · intro hon
    rw [if_pos ⟨hon, hpend, hgap⟩]
  · rintro rfl
    rw [if_neg fun hc => Bool.false_ne_true hc.1, if_neg hpend]

end Covers

/-! ## The ack QP -/

/-- What `create_ack_qp_meta` sets: a work request for each slot, which points to it. -/
structure AckQp (c : Context μ) (qp : Nat) : Prop where
  lt : qp < c.qpNum
  flow : (c.qpMeta qp).flowType = .sendAckRecvAck
  sendWrNum : (c.qpMeta qp).sendWrNum = (c.qpMeta qp).receipientNum + 1
  addr : ∀ i, ((c.qpMeta qp).send.sendSgl i).addr = i

/-- The slots of the QP, one for each recipient and one for itself. -/
def Context.slots (c : Context μ) (qp : Nat) : Nat := (c.qpMeta qp).receipientNum + 1

/-- The ack QP between two calls: the work request of a slot carries the ack in it to the machine
    of that number. -/
structure AckReady (c : Context μ) (qp : Nat) : Prop where
  ready : Ready c
  lt : qp < c.qpNum
  flow : (c.qpMeta qp).flowType = .sendAckRecvAck
  sendWrNum : (c.qpMeta qp).sendWrNum = c.slots qp
  target : ∀ i, i < c.slots qp → ((c.qpMeta qp).send.posted i).ah = i % c.cl.machineNum ∧
    ((c.qpMeta qp).send.posted i).sge.addr = i

/-- Set-up points the work request of a slot to the machine of that number. -/
theorem initAckWrs_spec {c : Context μ} {m : PerQpMeta μ} {s : SendQueue}
    (hft : m.flowType = .sendAckRecvAck) (h : c.initQpSendWrs m = .ok s) :
    ∀ i, i < m.sendWrNum → (s.posted i).ah = i % c.cl.machineNum ∧
      (s.posted i).sge.addr = (m.send.sendSgl i).addr := by
  unfold Context.initQpSendWrs at h
  rw [hft] at h
  obtain ⟨hwr, hsgl⟩ : (∀ i, i < m.sendWrNum → (s.sendWr i).ah = i % c.cl.machineNum ∧
      (s.sendWr i).sgList = i) ∧ ∀ i, (s.sendSgl i).addr = (m.send.sendSgl i).addr := by
    refine forPure_rule (fun n (t : SendQueue) =>
      (∀ i, i < n → (t.sendWr i).ah = i % c.cl.machineNum ∧ (t.sendWr i).sgList = i) ∧
      ∀ i, (t.sendSgl i).addr = (m.send.sendSgl i).addr) h
      ⟨fun i hi => absurd hi (Nat.not_lt_zero i), fun _ => rfl⟩ ?_
    rintro n t - ⟨hwr, hsgl⟩
    refine ⟨fun i hi => ?_, fun i => ?_⟩
    · by_cases hin : i = n
      · subst hin
        simp [Context.constSetUpWr]
      · have hold := hwr i (by omega)
        simpa [Context.constSetUpWr, SendQueue.setSge, hin] using hold
    · have hold := hsgl i
      by_cases hin : i = n
      · subst hin
        simpa [Context.constSetUpWr, SendQueue.setSge] using hold
      · simpa [Context.constSetUpWr, SendQueue.setSge, hin] using hold
  intro i hi
  obtain ⟨hah, hlist⟩ := hwr i hi
  refine ⟨hah, ?_⟩
  show (s.sendSgl (s.sendWr i).sgList).addr = _
  rw [hlist, hsgl]

/-- After the set-up. -/
theorem ackReady_setUp {c c₁ c₀ : Context μ} {qp : Nat} (hnew : Created c) (hack : AckQp c qp)
    (hinit : c.initCtxSendWrs = .ok c₁) (hset : c₁.setUpQInfo = .ok c₀) : AckReady c₀ qp := by
  have hready := ready_setUp hnew hinit hset
  obtain ⟨hcl, hnum, -, hdone⟩ := initCtxSendWrs_spec hinit
  obtain ⟨s, hs, hm⟩ := hdone qp hack.lt
  have hspec := initAckWrs_spec hack.flow hs
  obtain ⟨q, -, hset⟩ := bind_eq_ok.mp hset
  cases hset
  have hslots : ({ c₁ with qInfo := q } : Context μ).slots qp = c.slots qp := by
    show (c₁.qpMeta qp).receipientNum + 1 = _
    rw [hm]
    rfl
  refine ⟨hready, by show qp < c₁.qpNum; rw [hnum]; exact hack.lt, ?_, ?_, fun i hi => ?_⟩
  · show (c₁.qpMeta qp).flowType = _
    rw [hm]
    exact hack.flow
  · rw [hslots]
    show (c₁.qpMeta qp).sendWrNum = _
    rw [hm]
    exact hack.sendWrNum
  · rw [hslots] at hi
    obtain ⟨hah, haddr⟩ := hspec i (by rw [hack.sendWrNum]; exact hi)
    show ((c₁.qpMeta qp).send.posted i).ah = i % c₁.cl.machineNum ∧
      ((c₁.qpMeta qp).send.posted i).sge.addr = i
    rw [hm, hcl]
    exact ⟨hah, haddr.trans (hack.addr i)⟩

namespace AckReady

variable {c c' : Context μ} {qp : Nat}

/-- A call that keeps the pace and the targets of the QP. -/
theorem frame (h : AckReady c qp) (hf : Frame qp c c')
    (hk : Keeps (c.qpMeta qp).send (c'.qpMeta qp).send) (hr : Ready c') : AckReady c' qp := by
  have hslots : c'.slots qp = c.slots qp := congrArg (·.receipientNum + 1) (hf.conf qp)
  refine ⟨hr, by rw [hf.qpNum]; exact h.lt, by rw [hf.conf qp]; exact h.flow, ?_, fun i hi => ?_⟩
  · rw [hslots, hf.conf qp]
    exact h.sendWrNum
  · rw [hslots] at hi
    obtain ⟨-, hah, hsge⟩ := hk.posted i
    rw [hah, hsge, hf.cl]
    exact h.target i hi

/-- Nothing but the acks, or the receives, changed. -/
theorem frame_same (h : AckReady c qp) (hf : Frame qp c c')
    (hsend : (c'.qpMeta qp).send = (c.qpMeta qp).send) : AckReady c' qp := by
  refine h.frame hf (by rw [hsend]; exact Keeps.refl _) (h.ready.frame hf (fun hsh => ?_) ?_)
  · have hbcast := (h.ready.bcasts qp hsh).bcast
    rw [h.flow] at hbcast
    nomatch hbcast
  · rw [hsend]
    exact h.ready.paced qp

/-- **`od_send_acks`** on an ack QP. -/
theorem send (h : AckReady c qp) :
    Ends Proceeds (c.odSendAcks qp) fun c' => AcksSent qp c c' ∧ AckReady c' qp := by
  have hu : (c.qpMeta qp).flowType.sendsUnicasts = true := by
    rw [h.flow]
    rfl
  have hpace := h.ready.paced qp
  rw [Ready.window_uni hu] at hpace
  refine (odSendAcks_ends (h.ready.uni_margin h.lt hu) hpace).mono ?_
  rintro c' ⟨hsent, hpace'⟩
  rw [← Ready.window_uni hu] at hpace'
  refine ⟨hsent, h.frame hsent.frame hsent.keeps (h.ready.frame hsent.frame (fun hsh => ?_)
    hpace')⟩
  have hbcast := (h.ready.bcasts qp hsh).bcast
  rw [h.flow] at hbcast
  nomatch hbcast

end AckReady

/-! ## Runs -/

/-- What can happen next on an ack QP.  The receives belong to the QPs that get the messages. -/
inductive AckCmd (μ : Type)
  | insert (mId : Nat) (lId : UInt64) (mesNum : UInt32)
  | send
  | receives (recv : Nat → RecvQueue μ)

/-- An ack that was posted: the machine it goes to, its slot, and the ack. -/
structure SentAck where
  machine : Nat
  slot : Nat
  ack : CtxAckMes

/-- What a step shows: the slot before and after an insert, with the answer, or the acks that
    were posted. -/
inductive AckEvent
  | inserted (before after : CtxAckMes) (answer : Bool)
  | sent (acks : List SentAck)
  | received

/-- The acks that were posted between two states.  The NIC reads an ack from its slot. -/
def sentAcks (qp : Nat) (c c' : Context μ) : List SentAck :=
  (((posts (c'.qpMeta qp).send.log).drop (posts (c.qpMeta qp).send.log).length).flatMap
    Prod.snd).map fun p => ⟨p.ah, p.sge.addr, (c'.qpMeta qp).acks p.sge.addr⟩

/-- A step, in a build with or without assertions. -/
def ackStep (enableAssertions : Bool) (qp : Nat) (c : Context μ) :
    AckCmd μ → Outcome (Context μ × AckEvent)
  | .insert mId lId mesNum => do
    let (c', answer) ← c.ctxAckInsert qp enableAssertions mesNum lId mId
    return (c', .inserted ((c.qpMeta qp).acks mId) ((c'.qpMeta qp).acks mId) answer)
  | .send => do
    let c' ← c.odSendAcks qp
    return (c', .sent (sentAcks qp c c'))
  | .receives recv =>
    .ok ({ c with qpMeta := fun i => { c.qpMeta i with recv := recv i } }, .received)

/-- The trace of a run of the ack QP. -/
abbrev AckTrace (μ : Type) := List (AckCmd μ × AckEvent)

/-- The inserts that were accepted for each slot since its ack was last sent. -/
def accepted (tr : AckTrace μ) : Nat → List Insert :=
  tr.foldl (fun acc p =>
    match p with
    | (.insert mId lId mesNum, .inserted _ _ true) =>
        Function.update acc mId (acc mId ++ [⟨lId, mesNum⟩])
    | (.send, _) => fun _ => []
    | _ => acc) fun _ => []

theorem accepted_snoc (tr : AckTrace μ) (p : AckCmd μ × AckEvent) :
    accepted (tr ++ [p]) =
      match p with
      | (.insert mId lId mesNum, .inserted _ _ true) =>
          Function.update (accepted tr) mId (accepted tr mId ++ [⟨lId, mesNum⟩])
      | (.send, _) => fun _ => []
      | _ => accepted tr := by
  unfold accepted
  rw [List.foldl_append]
  rfl

/-- Every insert of a run continues the range. -/
def InOrder (tr : AckTrace μ) : Prop :=
  ∀ mId lId mesNum ack ack' answer,
    (.insert mId lId mesNum, .inserted ack ack' answer) ∈ tr → Continues ack lId

/-- The acks that are posted stand for the inserts `acc`: each pending one once, no other, to the
    machine of its slot. -/
structure SentRight (machineNum n : Nat) (acc : Nat → List Insert) (l : List SentAck) :
    Prop where
  slots : l.map (·.slot) = (List.range n).filter fun m => acc m ≠ []
  machine : ∀ a ∈ l, a.machine = a.slot % machineNum
  opcode : ∀ a ∈ l, a.ack.opcode = opAck
  ids_eq : ∀ a ∈ l, ids a.ack.lId a.ack.ackNum.toNat = insertedIds (acc a.slot)
  credits : ∀ a ∈ l, a.ack.credits.toNat = (acc a.slot).length

/-- **What acks should do**, over a run of an ack QP that ends in `c`. -/
structure AcksCorrect (qp : Nat) (tr : AckTrace μ) (c : Context μ) : Prop where
  /-- the pending acks stand for what was accepted since they were last sent -/
  covers : ∀ m, m < c.slots qp → Covers ((c.qpMeta qp).acks m) (accepted tr m)
  /-- an insert that does not continue the range was refused -/
  refused : ∀ mId lId mesNum ack ack' answer,
    (.insert mId lId mesNum, .inserted ack ack' answer) ∈ tr → ¬ Continues ack lId →
      answer = false ∧ ack' = ack
  /-- what was sent at any time stood for what was accepted until then -/
  sent : ∀ tr₁ l tr₂, tr = tr₁ ++ (.send, .sent l) :: tr₂ →
    SentRight c.cl.machineNum (c.slots qp) (accepted tr₁) l

/-- `od_send_acks` posts what the pending acks stand for, and frees their slots. -/
theorem AcksSent.right {c c' : Context μ} {qp : Nat} {acc : Nat → List Insert}
    (h : AckReady c qp) (hs : AcksSent qp c c')
    (hcov : ∀ m, m < c.slots qp → Covers ((c.qpMeta qp).acks m) (acc m)) :
    SentRight c.cl.machineNum (c.slots qp) acc (sentAcks qp c c') ∧
      ∀ m, m < c.slots qp → Covers ((c'.qpMeta qp).acks m) [] := by
  obtain ⟨new, hposts, hchain⟩ := hs.posts
  let pend := pendingAcks (c.qpMeta qp).acks (c.slots qp)
  have hpend : ∀ m, m ∈ pend ↔ m < c.slots qp ∧ ((c.qpMeta qp).acks m).opcode ≠ opAck :=
    fun m => mem_pendingAcks
  have hslot : ∀ m, m < c.slots qp →
      (c'.qpMeta qp).acks m = { (c.qpMeta qp).acks m with opcode := opAck } := by
    intro m hm
    rw [hs.acks]
    exact if_pos hm
  have hsent : sentAcks qp c c' =
      pend.map fun m => ⟨m % c.cl.machineNum, m, (c'.qpMeta qp).acks m⟩ := by
    have hmap := congrArg (List.map fun p : Nat × Nat × Sge =>
      (⟨p.2.1, p.2.2.addr, (c'.qpMeta qp).acks p.2.2.addr⟩ : SentAck)) hchain
    rw [List.map_map, List.map_map] at hmap
    unfold sentAcks
    rw [hposts, List.drop_left]
    refine hmap.trans (List.map_congr_left fun m hm => ?_)
    obtain ⟨hah, haddr⟩ := h.target m ((hpend m).mp hm).1
    dsimp only [Function.comp_apply]
    rw [hah, haddr]
  have hmem : ∀ a ∈ sentAcks qp c c', a.slot ∈ pend ∧ a.machine = a.slot % c.cl.machineNum ∧
      a.ack = (c'.qpMeta qp).acks a.slot := by
    intro a ha
    rw [hsent] at ha
    obtain ⟨m, hm, rfl⟩ := List.mem_map.mp ha
    exact ⟨hm, rfl, rfl⟩
  have hcovers : ∀ a ∈ sentAcks qp c c',
      a.ack = { (c.qpMeta qp).acks a.slot with opcode := opAck } ∧ acc a.slot ≠ [] ∧
        Covers ((c.qpMeta qp).acks a.slot) (acc a.slot) := by
    intro a ha
    obtain ⟨hm, -, hack⟩ := hmem a ha
    obtain ⟨hlt, hop⟩ := (hpend _).mp hm
    have hc := hcov _ hlt
    exact ⟨by rw [hack, hslot _ hlt], fun hnil => hop (hc.pending.mpr hnil), hc⟩
  refine ⟨⟨?_, fun a ha => (hmem a ha).2.1, fun a ha => ?_, fun a ha => ?_, fun a ha => ?_⟩,
    fun m hm => Covers.free (by rw [hslot m hm])⟩
  · rw [hsent, List.map_map]
    show pend.map id = _
    rw [List.map_id]
    refine List.filter_congr fun m hm => ?_
    rw [decide_eq_decide]
    exact not_congr (hcov m (List.mem_range.mp hm)).pending
  · rw [(hcovers a ha).1]
  · obtain ⟨hack, hne, hc⟩ := hcovers a ha
    rw [hack]
    exact hc.ids_eq hne
  · obtain ⟨hack, hne, hc⟩ := hcovers a ha
    rw [hack]
    exact hc.credits hne

/-- **One step** of a run that is right so far: an insert continues the range, or the build has
    assertions. -/
theorem AcksCorrect.step {enableAssertions : Bool} {qp : Nat} {tr : AckTrace μ}
    {c c' : Context μ} {k : AckCmd μ} {e : AckEvent} (h : AckReady c qp)
    (hc : AcksCorrect qp tr c) (hs : ackStep enableAssertions qp c k = .ok (c', e))
    (hfits : ∀ m, Fits (accepted (tr ++ [(k, e)]) m))
    (hgo : enableAssertions = true ∨ InOrder (tr ++ [(k, e)])) :
    AckReady c' qp ∧ AcksCorrect qp (tr ++ [(k, e)]) c' := by
  have hlast : ∀ p, p = (k, e) → p ∈ tr ++ [(k, e)] := by
    rintro p rfl
    exact List.mem_append_right _ (List.mem_singleton_self _)
  cases k with
  | insert mId lId mesNum =>
    obtain ⟨⟨c₁, answer⟩, hins, hs⟩ := bind_eq_ok.mp hs
    cases hs
    unfold Context.ctxAckInsert at hins
    dsimp only at hins
    split at hins
    · nomatch hins
    · rename_i hslot
      have hm : mId < c.slots qp := Nat.lt_succ_of_le (Nat.le_of_not_lt hslot)
      have hcov := hc.covers mId hm
      obtain ⟨⟨ack', answer'⟩, hack⟩ : ∃ r, Context.ackInsert enableAssertions
        ((c.qpMeta qp).acks mId) mesNum lId = r := ⟨_, rfl⟩
      rw [hack] at hins
      cases hins
      let f : PerQpMeta μ → PerQpMeta μ := ({ · with
        acks := Function.update (c.qpMeta qp).acks mId ack' })
      have hframe : Frame qp c (c.modify qp f) := Frame.modify rfl (Or.inl rfl)
      have hacks : ((c.modify qp f).qpMeta qp).acks =
          Function.update (c.qpMeta qp).acks mId ack' := by
        rw [Context.qpMeta_modify_self]
      have hafter : ((c.modify qp f).qpMeta qp).acks mId = ack' := by
        rw [hacks, Function.update_self]
      have hslots : (c.modify qp f).slots qp = c.slots qp :=
        congrArg (·.receipientNum + 1) (hframe.conf qp)
      rw [hafter] at hfits hgo hlast ⊢
      -- an insert is accepted if it continues the range, and refused if not
      have hcases : (answer' = true ∧ Continues ((c.qpMeta qp).acks mId) lId ∧
            Covers ack' (accepted tr mId ++ [⟨lId, mesNum⟩])) ∨
          (answer' = false ∧ ¬ Continues ((c.qpMeta qp).acks mId) lId ∧
            ack' = (c.qpMeta qp).acks mId) := by
        by_cases hcont : Continues ((c.qpMeta qp).acks mId) lId
        · left
          obtain ⟨ack'', hins, hcov'⟩ := hcov.insert enableAssertions mesNum hcont
          rw [hack] at hins
          cases hins
          refine ⟨rfl, hcont, hcov' ?_⟩
          have hfit := hfits mId
          rw [accepted_snoc] at hfit
          dsimp only at hfit
          rwa [Function.update_self] at hfit
        · right
          obtain ⟨hpend, hgap⟩ := Classical.not_imp.mp hcont
          have hon : enableAssertions = true := by
            rcases hgo with hon | horder
            · exact hon
            · exact absurd (horder _ _ _ _ _ _ (hlast _ rfl)) hcont
          have hno := (Covers.insert_gap enableAssertions mesNum hpend hgap).1 hon
          rw [hack] at hno
          cases hno
          exact ⟨rfl, hcont, rfl⟩
      refine ⟨h.frame_same hframe (by rw [Context.qpMeta_modify_self]), ⟨?_, ?_, ?_⟩⟩
      · rw [hslots, hacks, accepted_snoc]
        intro m hlt
        rcases hcases with ⟨rfl, -, hcov'⟩ | ⟨rfl, -, rfl⟩
        · by_cases hmm : m = mId
          · subst hmm
            rw [Function.update_self]
            dsimp only
            rw [Function.update_self]
            exact hcov'
          · rw [Function.update_of_ne hmm]
            dsimp only
            rw [Function.update_of_ne hmm]
            exact hc.covers m hlt
        · rw [Function.update_eq_self]
          exact hc.covers m hlt
      · intro mId' lId' mesNum' a a' ans hmem hgap
        rcases List.mem_append.mp hmem with hold | hnew
        · exact hc.refused _ _ _ _ _ _ hold hgap
        · rw [List.mem_singleton] at hnew
          cases hnew
          rcases hcases with ⟨-, hcont, -⟩ | ⟨hans, -, hsame⟩
          · exact absurd hcont hgap
          · exact ⟨hans, hsame⟩
      · intro tr₁ l tr₂ htr
        rw [hframe.cl, hslots]
        rcases split_concat htr with ⟨tr₃, htr⟩ | ⟨-, heq⟩
        · exact hc.sent _ _ _ htr
        · nomatch heq
  | send =>
    obtain ⟨c₁, hsend, hs⟩ := bind_eq_ok.mp hs
    cases hs
    obtain ⟨hsent, hready⟩ := h.send.of_ok hsend
    obtain ⟨hright, hfree⟩ := hsent.right h hc.covers
    have hslots : c'.slots qp = c.slots qp :=
      congrArg (·.receipientNum + 1) (hsent.frame.conf qp)
    refine ⟨hready, ⟨?_, ?_, ?_⟩⟩
    · rw [hslots, accepted_snoc]
      exact hfree
    · intro mId lId mesNum a a' ans hmem hgap
      rcases List.mem_append.mp hmem with hold | hnew
      · exact hc.refused _ _ _ _ _ _ hold hgap
      · rw [List.mem_singleton] at hnew
        nomatch hnew
    · intro tr₁ l tr₂ htr
      rw [hsent.frame.cl, hslots]
      rcases split_concat htr with ⟨tr₃, htr⟩ | ⟨rfl, heq⟩
      · exact hc.sent _ _ _ htr
      · cases heq
        exact hright
  | receives recv =>
    cases hs
    have hframe : Frame qp c { c with qpMeta := fun i => { c.qpMeta i with recv := recv i } } :=
      ⟨rfl, rfl, rfl, fun _ => rfl, fun _ _ => rfl⟩
    refine ⟨h.frame_same hframe rfl, ⟨?_, ?_, ?_⟩⟩
    · rw [accepted_snoc]
      exact hc.covers
    · intro mId lId mesNum a a' ans hmem hgap
      rcases List.mem_append.mp hmem with hold | hnew
      · exact hc.refused _ _ _ _ _ _ hold hgap
      · rw [List.mem_singleton] at hnew
        nomatch hnew
    · intro tr₁ l tr₂ htr
      rcases split_concat htr with ⟨tr₃, htr⟩ | ⟨-, heq⟩
      · exact hc.sent _ _ _ htr
      · nomatch heq

/-- **Acks are right exactly when every insert continues its range**, or the build has assertions:
    over any run of inserts and sends, from free slots, with fewer than `2 ^ 16` inserts and
    `2 ^ 32` ids for each ack. -/
theorem acks_correct_iff {enableAssertions : Bool} {c c₁ c₀ c' : Context μ} {qp : Nat}
    {tr : AckTrace μ} (hnew : Created c) (hack : AckQp c qp)
    (hinit : c.initCtxSendWrs = .ok c₁) (hset : c₁.setUpQInfo = .ok c₀)
    (hfree : ∀ m, ((c₀.qpMeta qp).acks m).opcode = opAck)
    (hrun : Run (ackStep enableAssertions qp) c₀ tr c')
    (hfits : ∀ tr', tr' <+: tr → ∀ m, Fits (accepted tr' m)) :
    AcksCorrect qp tr c' ↔ enableAssertions = true ∨ InOrder tr := by
  constructor
  · intro hc
    by_cases hon : enableAssertions = true
    · exact Or.inl hon
    · right
      intro mId lId mesNum ack ack' answer hmem
      by_contra hgap
      obtain ⟨hno, -⟩ := hc.refused _ _ _ _ _ _ hmem hgap
      -- without assertions the insert was accepted
      have hyes : answer = true := by
        have hall := hrun.forall_steps (P := fun k e => ∀ mId lId mesNum ack ack' answer,
          k = AckCmd.insert mId lId mesNum → e = AckEvent.inserted ack ack' answer →
            answer = (Context.ackInsert enableAssertions ack mesNum lId).2) ?_
        · rw [hall _ hmem _ _ _ _ _ _ rfl rfl]
          obtain ⟨hpend, hne⟩ := Classical.not_imp.mp hgap
          exact (Covers.insert_gap enableAssertions mesNum hpend hne).2 (Bool.eq_false_of_not_eq_true hon)
        · rintro - c k c' e - hs mId lId mesNum ack ack' answer rfl rfl
          obtain ⟨⟨c₁, ans⟩, hins, hs⟩ := bind_eq_ok.mp hs
          cases hs
          unfold Context.ctxAckInsert at hins
          dsimp only at hins
          split at hins
          · nomatch hins
          · cases hins
            rfl
      rw [hyes] at hno
      nomatch hno
  · intro hgo
    have hinv : (∀ tr', tr' <+: tr → ∀ m, Fits (accepted tr' m)) →
        (enableAssertions = true ∨ InOrder tr) → AckReady c' qp ∧ AcksCorrect qp tr c' := by
      refine hrun.invariant (fun tr c => (∀ tr', tr' <+: tr → ∀ m, Fits (accepted tr' m)) →
        (enableAssertions = true ∨ InOrder tr) → AckReady c qp ∧ AcksCorrect qp tr c) ?_ ?_
      · intro _ _
        refine ⟨ackReady_setUp hnew hack hinit hset, fun m _ => Covers.free (hfree m), ?_, ?_⟩
        · intro _ _ _ _ _ _ hmem
          nomatch hmem
        · intro tr₁ l tr₂ htr
          exact absurd htr.symm (by simp)
      · intro tr c k c' e _ ih hs hfits hgo
        obtain ⟨hready, hc⟩ := ih
          (fun tr' htr' m => hfits tr' (htr'.trans (List.prefix_append _ _)) m)
          (hgo.imp id fun horder _ _ _ _ _ _ hmem =>
            horder _ _ _ _ _ _ (List.mem_append_left _ hmem))
        exact hc.step hready hs (hfits _ (List.prefix_refl _)) hgo
    exact (hinv hfits hgo).2

/-- The ack worker of `Sending`, with free slots. -/
def freshAckWorker : Context Unit :=
  { ackWorker with
    qpMeta := fun qp => { ackWorker.qpMeta qp with
      acks := fun _ => ⟨0, 0, 0, 0, opAck⟩
      send := { SendQueue.blank with sendSgl := fun i => ⟨i, 16⟩ } } }

theorem freshAckWorker_created : Created freshAckWorker := by
  have hbatch : 127 = qpMetaSsBatch .sendAckRecvAck 2 3 := by decide
  exact ⟨fun _ => hbatch, fun _ => rfl, fun _ => rfl⟩

theorem freshAckWorker_ackQp : AckQp freshAckWorker 0 :=
  ⟨Nat.one_pos, rfl, rfl, fun _ => rfl⟩

/-- Inserts for one slot, few of them: they fit. -/
theorem fits_two {i j : Insert} (hi : i.mesNum.toNat < 2 ^ 8) (hj : j.mesNum.toNat < 2 ^ 8) :
    Fits [] ∧ Fits [i] ∧ Fits [i, j] := by
  refine ⟨⟨by decide, by decide⟩, ⟨show 1 < 2 ^ 16 by decide, ?_⟩,
    ⟨show 2 < 2 ^ 16 by decide, ?_⟩⟩
  · simp only [insertedIds, List.flatMap_cons, List.flatMap_nil, List.append_nil, length_ids]
    omega
  · simp only [insertedIds, List.flatMap_cons, List.flatMap_nil, List.append_nil,
      List.length_append, length_ids]
    omega

/-- Two inserts for machine 1. -/
theorem fits_inserts {i j : Insert} {a a' b b' : CtxAckMes} (hi : i.mesNum.toNat < 2 ^ 8)
    (hj : j.mesNum.toNat < 2 ^ 8) : ∀ tr', tr' <+: ([(.insert 1 i.lId i.mesNum, .inserted a a' true),
      (.insert 1 j.lId j.mesNum, .inserted b b' true)] : AckTrace Unit) →
    ∀ m, Fits (accepted tr' m) := by
  obtain ⟨h₀, h₁, h₂⟩ := fits_two hi hj
  intro tr' htr' m
  have hcases : ∀ l, l = [] ∨ l = [i] ∨ l = [i, j] → Fits l := by
    rintro l (rfl | rfl | rfl) <;> assumption
  apply hcases
  rcases List.prefix_cons_iff.mp htr' with rfl | ⟨t, rfl, ht⟩
  · exact Or.inl rfl
  · rcases List.prefix_cons_iff.mp ht with rfl | ⟨t', rfl, ht'⟩
    · by_cases hm : m = 1
      · subst hm
        exact Or.inr (Or.inl rfl)
      · left
        simp [accepted, hm]
    · rw [List.prefix_nil] at ht'
      subst ht'
      by_cases hm : m = 1
      · subst hm
        exact Or.inr (Or.inr rfl)
      · left
        simp [accepted, hm]

/-- Two messages in order. -/
theorem acks_correct_two : ∃ c₁ c₀ tr c', freshAckWorker.initCtxSendWrs = .ok c₁ ∧
    c₁.setUpQInfo = .ok c₀ ∧ Run (ackStep false 0) c₀ tr c' ∧ AcksCorrect 0 tr c' := by
  obtain ⟨c₁, h₁⟩ : ∃ c₁, freshAckWorker.initCtxSendWrs = .ok c₁ := ⟨_, rfl⟩
  obtain ⟨c₀, h₀⟩ : ∃ c₀, c₁.setUpQInfo = .ok c₀ := by
    cases h₁
    exact ⟨_, rfl⟩
  have hfree : ∀ m, ((c₀.qpMeta 0).acks m).opcode = opAck := by
    cases h₁
    cases h₀
    exact fun _ => rfl
  obtain ⟨c₂, h₂⟩ : ∃ c₂, ackStep false 0 c₀ (.insert 1 10 1) = .ok (c₂,
      .inserted ⟨0, 0, 0, 0, opAck⟩ ⟨10, 1, 1, 0, ackNotYetSent⟩ true) := by
    cases h₁
    cases h₀
    exact ⟨_, rfl⟩
  obtain ⟨c₃, h₃⟩ : ∃ c₃, ackStep false 0 c₂ (.insert 1 11 2) = .ok (c₃,
      .inserted ⟨10, 1, 1, 0, ackNotYetSent⟩ ⟨10, 3, 2, 0, ackNotYetSent⟩ true) := by
    cases h₁
    cases h₀
    cases h₂
    exact ⟨_, rfl⟩
  have hrun := (Run.start.snoc h₂).snoc h₃
  refine ⟨c₁, c₀, _, c₃, h₁, h₀, hrun, ?_⟩
  refine (acks_correct_iff freshAckWorker_created freshAckWorker_ackQp h₁ h₀ hfree hrun
    (fits_inserts (i := ⟨10, 1⟩) (j := ⟨11, 2⟩) (by decide) (by decide))).mpr (Or.inr ?_)
  rintro mId lId mesNum ack ack' answer hmem
  simp only [List.nil_append, List.cons_append, List.mem_cons, List.not_mem_nil, or_false] at hmem
  rcases hmem with hmem | hmem <;> cases hmem
  · exact fun h => absurd rfl h
  · exact fun _ => rfl

/-- Two messages with a gap, in the build as shipped: the ack covers 10 and 11, but 10 and 20 were
    inserted. -/
theorem acks_incorrect : ∃ c₁ c₀ tr c', Created freshAckWorker ∧ AckQp freshAckWorker 0 ∧
    freshAckWorker.initCtxSendWrs = .ok c₁ ∧ c₁.setUpQInfo = .ok c₀ ∧
    (∀ m, ((c₀.qpMeta 0).acks m).opcode = opAck) ∧ Run (ackStep false 0) c₀ tr c' ∧
    (∀ tr', tr' <+: tr → ∀ m, Fits (accepted tr' m)) ∧ ¬ AcksCorrect 0 tr c' ∧
    ids ((c'.qpMeta 0).acks 1).lId ((c'.qpMeta 0).acks 1).ackNum.toNat = [10, 11] ∧
    insertedIds (accepted tr 1) = [10, 20] := by
  obtain ⟨c₁, h₁⟩ : ∃ c₁, freshAckWorker.initCtxSendWrs = .ok c₁ := ⟨_, rfl⟩
  obtain ⟨c₀, h₀⟩ : ∃ c₀, c₁.setUpQInfo = .ok c₀ := by
    cases h₁
    exact ⟨_, rfl⟩
  have hfree : ∀ m, ((c₀.qpMeta 0).acks m).opcode = opAck := by
    cases h₁
    cases h₀
    exact fun _ => rfl
  obtain ⟨c₂, h₂⟩ : ∃ c₂, ackStep false 0 c₀ (.insert 1 10 1) = .ok (c₂,
      .inserted ⟨0, 0, 0, 0, opAck⟩ ⟨10, 1, 1, 0, ackNotYetSent⟩ true) := by
    cases h₁
    cases h₀
    exact ⟨_, rfl⟩
  obtain ⟨c₃, h₃, hids⟩ : ∃ c₃, ackStep false 0 c₂ (.insert 1 20 1) = .ok (c₃,
      .inserted ⟨10, 1, 1, 0, ackNotYetSent⟩ ⟨10, 2, 2, 0, ackNotYetSent⟩ true) ∧
      ids ((c₃.qpMeta 0).acks 1).lId ((c₃.qpMeta 0).acks 1).ackNum.toNat = [10, 11] := by
    cases h₁
    cases h₀
    cases h₂
    exact ⟨_, rfl, rfl⟩
  have hrun := (Run.start.snoc h₂).snoc h₃
  refine ⟨c₁, c₀, _, c₃, freshAckWorker_created, freshAckWorker_ackQp, h₁, h₀, hfree, hrun,
    fits_inserts (i := ⟨10, 1⟩) (j := ⟨20, 1⟩) (by decide) (by decide), fun hc => ?_, hids, rfl⟩
  have hgap : ¬ Continues ⟨10, 1, 1, 0, ackNotYetSent⟩ 20 := by
    intro h
    exact absurd (h (by decide)) (by decide)
  have hno := (hc.refused 1 20 1 _ _ _
    (List.mem_append_right _ (List.mem_singleton_self _)) hgap).1
  nomatch hno

end Odyssey
