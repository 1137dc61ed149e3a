/-
  CREDITS OF UNICASTS.

  `qp_meta_set_up_credits` gives a QP a row of credits: one counter for each machine, or a single
  one where all messages go to the leader (`getCreditRows`).  `ctx_send_unicasts` sends as long as
  `ctx_can_send_unicasts` allows, and takes a credit of the destination of each message.

  The test looks at `*credits`, which is the counter of machine 0, and the credit is taken from
  `credits[rm_id]`.  For messages to machine 0 the two are the same.  For any other machine
  nothing looks at the counter, nor at its index.

  What a call sends is decided before it starts: the messages in the FIFOs, one FIFO after the
  other, as long as those among them for machine 0 do not use up its credits (`sendable`).  So the
  call spends only credits that are there exactly when, for every other machine, what it sends is
  covered by the counter of that machine (`CreditsCover`, `unicast_credits_iff`).
-/
import Odyssey.Sending

namespace Odyssey

open Lib

variable {μ : Type}

/-- `get_credit_rows`; its assertions are not compiled out. -/
def getCreditRows (cl : Cluster) (m : QpConf) : Outcome Nat :=
  match m.flowType with
  | .sendBcastLdrRecvUni | .sendBcastRecvUni | .sendBcastRecvBcast | .sendUniReqRecvUniReq
  | .sendUniRepToBcast | .sendUniRepRecvUniReq | .sendUniRepRecvUniRep =>
    if m.receipientNum = cl.remMachNum then .ok cl.machineNum else .error .undefined
  | .sendUniReqRecvLdrRep | .sendUniRepRecvLdrBcast =>
    if m.receipientNum = 1 then .ok 1 else .error .undefined
  | .sendUniRepLdrRecvUniReq | .recvCredits | .sendCreditsLdrRecvNone | .sendAckRecvAck =>
    .error .undefined

/-- There is a row for machine 0. -/
theorem getCreditRows_pos {cl : Cluster} {m : QpConf} {rows : Nat}
    (h : getCreditRows cl m = .ok rows) : 0 < rows := by
  have hcl := cl.two_le
  unfold getCreditRows at h
  split at h
  all_goals first
    | (split at h
       · cases h
         omega
       · nomatch h)
    | nomatch h

/-! ## The credits a call spends -/

/-- A message was sent: to which machine, and the credits of that machine before. -/
structure Spend where
  rmId : Nat
  credits : UInt16

/-- What the loop over one FIFO spends. -/
def unicastSpends (fifoI : Nat) : Nat → PerQpMeta μ → Nat → List Spend
  | 0, _, _ => []
  | n + 1, m, mesI =>
    if Context.ctxCanSendUnicasts m fifoI then
      match Context.unicastRound m fifoI mesI with
      | .ok m' =>
        let rmId := ((m.sendFifo fifoI).getFifoSlotMetaPull).rmId
        ⟨rmId, m.credits rmId⟩ :: unicastSpends fifoI n m' (mesI + 1)
      | .error _ => []
    else []

/-- The loops of `ctx_send_unicasts`, with what they spend. -/
def unicastLoops (m : PerQpMeta μ) : Outcome (PerQpMeta μ × Nat × List Spend) :=
  (List.range m.sendFifoNum).foldlM (fun (m, mesI, spends) fifoI => do
    let n := (m.sendFifo fifoI).capacity
    let (m', mesI') ← Context.unicastLoop fifoI n m mesI
    return (m', mesI', spends ++ unicastSpends fifoI n m mesI)) (m, 0, [])

/-! ## What a call can send -/

/-- The destinations of the next `n` messages of a FIFO, if there are as many. -/
def queuedIn : Nat → Fifo → List Nat
  | 0, _ => []
  | n + 1, f =>
    if 0 < f.capacity then f.getFifoSlotMetaPull.rmId :: queuedIn n f.fifoSendFromPullSlot
    else []

/-- The destinations of all messages, in the order of the loops. -/
def PerQpMeta.queued (m : PerQpMeta μ) : List Nat :=
  (List.range m.sendFifoNum).flatMap fun i => queuedIn (m.sendFifo i).capacity (m.sendFifo i)

/-- The messages that are sent with `c` credits for machine 0. -/
def sendable : Nat → List Nat → List Nat
  | 0, _ => []
  | _ + 1, [] => []
  | c + 1, d :: l => d :: sendable (if d = 0 then c else c + 1) l

/-- Every machine but machine 0 has a counter, and it covers the messages that will be sent. -/
def CreditsCover (rows : Nat) (m : PerQpMeta μ) : Prop :=
  let l := sendable (m.credits 0).toNat m.queued
  ∀ d ∈ l, d ≠ 0 → d < rows ∧ l.count d ≤ (m.credits d).toNat

@[simp] theorem sendable_nil (c : Nat) : sendable c [] = [] := by
  cases c <;> rfl

theorem sendable_cons (c d : Nat) (l : List Nat) : sendable c (d :: l) =
    if 0 < c then d :: sendable (if d = 0 then c - 1 else c) l else [] := by
  cases c with
  | zero => rfl
  | succ c => rw [if_pos (Nat.succ_pos c)]; rfl

/-- The credits of machine 0 cover what is sent to it. -/
theorem count_sendable_le (c : Nat) (l : List Nat) : (sendable c l).count 0 ≤ c := by
  induction l generalizing c with
  | nil => simp
  | cons d l ih =>
    rw [sendable_cons]
    by_cases hc : 0 < c
    · rw [if_pos hc]
      by_cases hd : d = 0
      · rw [if_pos hd, hd, List.count_cons_self]
        have hrest := ih (c - 1)
        omega
      · rw [if_neg hd, List.count_cons_of_ne hd]
        exact ih c
    · rw [if_neg hc]
      exact Nat.zero_le _

/-- One FIFO after the other. -/
theorem sendable_append (c : Nat) (l l' : List Nat) : sendable c (l ++ l') =
    sendable c l ++ sendable (c - (sendable c l).count 0) l' := by
  induction l generalizing c with
  | nil => simp
  | cons d l ih =>
    rw [List.cons_append, sendable_cons, sendable_cons]
    by_cases hc : 0 < c
    · rw [if_pos hc, if_pos hc, List.cons_append]
      by_cases hd : d = 0
      · rw [if_pos hd, ih, hd, List.count_cons_self, Nat.sub_sub, Nat.add_comm 1]
      · rw [if_neg hd, ih, List.count_cons_of_ne hd]
    · have hzero : c = 0 := by omega
      rw [if_neg hc, if_neg hc, hzero]
      cases l' <;> rfl

/-! ## Spending credits one by one -/

/-- The credits after messages to the machines of `l`. -/
def spend (credits : Nat → UInt16) (l : List Nat) : Nat → UInt16 :=
  l.foldl (fun credits d => Function.update credits d (credits d - 1)) credits

/-- What is spent on the way. -/
def spendsOf (credits : Nat → UInt16) : List Nat → List Spend
  | [] => []
  | d :: l => ⟨d, credits d⟩ :: spendsOf (Function.update credits d (credits d - 1)) l

theorem spend_append (credits : Nat → UInt16) (l l' : List Nat) :
    spend credits (l ++ l') = spend (spend credits l) l' := List.foldl_append ..

theorem spendsOf_append (credits : Nat → UInt16) (l l' : List Nat) :
    spendsOf credits (l ++ l') = spendsOf credits l ++ spendsOf (spend credits l) l' := by
  induction l generalizing credits with
  | nil => rfl
  | cons d l ih => exact congrArg (_ :: ·) (ih _)

theorem toNat_sub_one {c : UInt16} (h : 0 < c.toNat) : (c - 1).toNat = c.toNat - 1 := by
  have hle : (1 : UInt16) ≤ c := UInt16.le_iff_toNat_le.mpr h
  rw [UInt16.toNat_sub_of_le c 1 hle]
  rfl

/-- A counter that covers what is spent goes down by as much. -/
theorem toNat_spend {credits : Nat → UInt16} {l : List Nat} {d : Nat}
    (h : l.count d ≤ (credits d).toNat) :
    (spend credits l d).toNat = (credits d).toNat - l.count d := by
  induction l generalizing credits with
  | nil => rfl
  | cons x l ih =>
    show (spend (Function.update credits x (credits x - 1)) l d).toNat = _
    by_cases hx : x = d
    · subst hx
      rw [List.count_cons_self] at h ⊢
      have hone : (Function.update credits x (credits x - 1) x).toNat = (credits x).toNat - 1 := by
        rw [Function.update_self, toNat_sub_one (by omega)]
      rw [ih (by rw [hone]; omega), hone]
      omega
    · rw [List.count_cons_of_ne hx] at h ⊢
      have hsame : Function.update credits x (credits x - 1) d = credits d :=
        Function.update_of_ne (Ne.symm hx) ..
      rw [ih (by rw [hsame]; exact h), hsame]

/-- **Every credit that is spent is there** exactly when each counter covers all that is spent
    of it. -/
theorem spendsOf_iff (rows : Nat) (credits : Nat → UInt16) (l : List Nat) :
    (∀ s ∈ spendsOf credits l, s.rmId < rows ∧ 0 < s.credits) ↔
      ∀ d ∈ l, d < rows ∧ l.count d ≤ (credits d).toNat := by
  induction l generalizing credits with
  | nil => exact ⟨fun _ _ hd => (nomatch hd), fun _ _ hs => (nomatch hs)⟩
  | cons d l ih =>
    have hrest := ih (Function.update credits d (credits d - 1))
    have hself : Function.update credits d (credits d - 1) d = credits d - 1 :=
      Function.update_self ..
    have hother : ∀ x, x ≠ d → Function.update credits d (credits d - 1) x = credits x :=
      fun x hx => Function.update_of_ne hx ..
    constructor
    · intro hall
      obtain ⟨hlt, hpos⟩ := hall ⟨d, credits d⟩ List.mem_cons_self
      have hpos' : 0 < (credits d).toNat := UInt16.lt_iff_toNat_lt.mp hpos
      have hl := hrest.mp fun s hs => hall s (List.mem_cons_of_mem _ hs)
      intro x hx
      by_cases hxd : x = d
      · subst hxd
        refine ⟨hlt, ?_⟩
        rw [List.count_cons_self]
        by_cases hmem : x ∈ l
        · have hle := (hl x hmem).2
          rw [hself, toNat_sub_one hpos'] at hle
          omega
        · rw [List.count_eq_zero_of_not_mem hmem]
          omega
      · rcases List.mem_cons.mp hx with heq | hmem
        · exact absurd heq hxd
        · obtain ⟨hx', hle⟩ := hl x hmem
          rw [hother x hxd] at hle
          rw [List.count_cons_of_ne (Ne.symm hxd)]
          exact ⟨hx', hle⟩
    · intro hall s hs
      obtain ⟨hlt, hle⟩ := hall d List.mem_cons_self
      rw [List.count_cons_self] at hle
      rcases List.mem_cons.mp hs with rfl | hs
      · exact ⟨hlt, UInt16.lt_iff_toNat_lt.mpr (show 0 < (credits d).toNat by omega)⟩
      · refine hrest.mpr (fun x hx => ?_) s hs
        obtain ⟨hx', hlex⟩ := hall x (List.mem_cons_of_mem _ hx)
        refine ⟨hx', ?_⟩
        by_cases hxd : x = d
        · subst hxd
          rw [hself, toNat_sub_one (by omega)]
          omega
        · rw [hother x hxd]
          rwa [List.count_cons_of_ne (Ne.symm hxd)] at hlex

/-! ## What the loops do -/

/-- **One round** takes the message off its FIFO and a credit of its destination. -/
theorem unicastRound_spec {m m' : PerQpMeta μ} {fifoI mesI : Nat} (hneeds : m.needsCredits = true)
    (h : Context.unicastRound m fifoI mesI = .ok m') :
    m'.toQpConf = m.toQpConf ∧
    m'.credits = spend m.credits [((m.sendFifo fifoI).getFifoSlotMetaPull).rmId] ∧
    m'.sendFifo = Function.update m.sendFifo fifoI (m.sendFifo fifoI).fifoSendFromPullSlot := by
  obtain ⟨m₁, hforge, h⟩ := bind_eq_ok.mp h
  cases h
  -- forging touches the send queue only
  have hsame : ∃ s, m₁ = { m with send := s } := by
    unfold Context.ctxForgeUnicastWr at hforge
    split at hforge
    · obtain ⟨s, -, hforge⟩ := bind_eq_ok.mp hforge
      cases hforge
      exact ⟨_, rfl⟩
    · nomatch hforge
  obtain ⟨s, rfl⟩ := hsame
  refine ⟨rfl, ?_, rfl⟩
  dsimp only
  rw [if_pos hneeds]
  rfl

/-- **One FIFO**: what is sent is what the credits of machine 0 allow. -/
theorem unicastLoop_spec (fifoI : Nat) : ∀ (n : Nat) {m m' : PerQpMeta μ} {mesI mesI' : Nat},
    m.needsCredits = true → Context.unicastLoop fifoI n m mesI = .ok (m', mesI') →
    let l := sendable (m.credits 0).toNat (queuedIn n (m.sendFifo fifoI))
    unicastSpends fifoI n m mesI = spendsOf m.credits l ∧ mesI' = mesI + l.length ∧
    m'.toQpConf = m.toQpConf ∧ m'.credits = spend m.credits l ∧
    ∀ i, i ≠ fifoI → m'.sendFifo i = m.sendFifo i
  | 0, m, m', mesI, mesI', _, h => by
      cases h
      refine ⟨?_, ?_, rfl, ?_, fun _ _ => rfl⟩ <;> simp [queuedIn, unicastSpends, spendsOf, spend]
  | n + 1, m, m', mesI, mesI', hneeds, h => by
      have hcan : Context.ctxCanSendUnicasts m fifoI =
          (decide (0 < (m.sendFifo fifoI).capacity) && decide (0 < m.credits 0)) := by
        unfold Context.ctxCanSendUnicasts
        rw [if_pos hneeds]
      have hzero : (0 < m.credits 0) ↔ 0 < (m.credits 0).toNat := UInt16.lt_iff_toNat_lt
      unfold Context.unicastLoop at h
      by_cases hsend : Context.ctxCanSendUnicasts m fifoI = true
      · rw [if_pos hsend] at h
        obtain ⟨m₁, hround, h⟩ := bind_eq_ok.mp h
        obtain ⟨hconf, hcredits, hfifo⟩ := unicastRound_spec hneeds hround
        obtain ⟨hsp, hnum, hconf', hcredits', hother⟩ :=
          unicastLoop_spec fifoI n (by rw [hconf]; exact hneeds) h
        rw [hcan, Bool.and_eq_true, decide_eq_true_eq, decide_eq_true_eq, hzero] at hsend
        obtain ⟨hcap, hpos⟩ := hsend
        obtain ⟨d, hdest⟩ : ∃ d, ((m.sendFifo fifoI).getFifoSlotMetaPull).rmId = d := ⟨_, rfl⟩
        rw [hdest] at hcredits
        have hleft : (m₁.credits 0).toNat =
            if d = 0 then (m.credits 0).toNat - 1 else (m.credits 0).toNat := by
          rw [hcredits, toNat_spend]
          · by_cases hd : d = 0
            · rw [if_pos hd, hd, List.count_cons_self]
              rfl
            · rw [if_neg hd, List.count_cons_of_ne hd]
              rfl
          · exact Nat.le_trans List.count_le_length hpos
        have hl : sendable (m.credits 0).toNat (queuedIn (n + 1) (m.sendFifo fifoI)) =
            d :: sendable (m₁.credits 0).toNat (queuedIn n (m₁.sendFifo fifoI)) := by
          rw [queuedIn, if_pos hcap, hdest, sendable_cons, if_pos hpos, hleft, hfifo,
            Function.update_self]
        dsimp only
        rw [hl]
        refine ⟨?_, ?_, hconf'.trans hconf, ?_, fun i hi => ?_⟩
        · rw [unicastSpends, if_pos (by rw [hcan]; simp [hcap, hzero, hpos]), hround]
          dsimp only
          rw [hsp, hcredits, hdest]
          rfl
        · rw [hnum, List.length_cons]
          omega
        · rw [hcredits', hcredits, ← spend_append]
          rfl
        · rw [hother i hi, hfifo, Function.update_of_ne hi]
      · rw [if_neg hsend] at h
        cases h
        have hl : sendable (m.credits 0).toNat (queuedIn (n + 1) (m.sendFifo fifoI)) = [] := by
          rw [hcan, Bool.and_eq_true, decide_eq_true_eq, decide_eq_true_eq, hzero] at hsend
          rw [queuedIn]
          by_cases hcap : 0 < (m.sendFifo fifoI).capacity
          · rw [if_pos hcap, sendable_cons, if_neg fun hpos => hsend ⟨hcap, hpos⟩]
          · rw [if_neg hcap, sendable_nil]
        dsimp only
        rw [hl, unicastSpends, if_neg hsend]
        exact ⟨rfl, rfl, rfl, rfl, fun _ _ => rfl⟩

/-- **All FIFOs.** -/
theorem unicastLoops_spec {m m' : PerQpMeta μ} {mesI : Nat} {spends : List Spend}
    (hneeds : m.needsCredits = true) (h : unicastLoops m = .ok (m', mesI, spends)) :
    let l := sendable (m.credits 0).toNat m.queued
    spends = spendsOf m.credits l ∧ mesI = l.length ∧ m'.toQpConf = m.toQpConf ∧
    m'.credits = spend m.credits l := by
  let queued (n : Nat) := (List.range n).flatMap fun i =>
    queuedIn (m.sendFifo i).capacity (m.sendFifo i)
  let Inv (n : Nat) (t : PerQpMeta μ × Nat × List Spend) : Prop :=
    t.2.2 = spendsOf m.credits (sendable (m.credits 0).toNat (queued n)) ∧
    t.2.1 = (sendable (m.credits 0).toNat (queued n)).length ∧ t.1.toQpConf = m.toQpConf ∧
    t.1.credits = spend m.credits (sendable (m.credits 0).toNat (queued n)) ∧
    ∀ i, n ≤ i → t.1.sendFifo i = m.sendFifo i
  have hall : Inv m.sendFifoNum (m', mesI, spends) := by
    refine foldlM_range_rule (P := Inv) m.sendFifoNum ?_ ?_ h
    · simp [Inv, queued, spendsOf, spend]
    · rintro n ⟨t, k, sp⟩ ⟨t', k', sp'⟩ - ⟨hsp, hnum, hconf, hcredits, hrest⟩ hround
      obtain ⟨⟨t₁, k₁⟩, hloop, hround⟩ := bind_eq_ok.mp hround
      cases hround
      dsimp only at hsp hnum hconf hcredits hrest hloop ⊢
      obtain ⟨hsp', hnum', hconf', hcredits', hother⟩ :=
        unicastLoop_spec n _ (by rw [hconf]; exact hneeds) hloop
      let before := sendable (m.credits 0).toNat (queued n)
      have hleft : (t.credits 0).toNat = (m.credits 0).toNat - before.count 0 := by
        rw [hcredits, toNat_spend (count_sendable_le ..)]
      have hnext : sendable (m.credits 0).toNat (queued (n + 1)) = before ++
          sendable (t.credits 0).toNat (queuedIn (t.sendFifo n).capacity (t.sendFifo n)) := by
        have hq : queued (n + 1) = queued n ++ queuedIn (m.sendFifo n).capacity (m.sendFifo n) := by
          simp only [queued, List.range_succ, List.flatMap_append, List.flatMap_singleton]
        rw [hq, sendable_append, hleft, hrest n (Nat.le_refl n)]
      refine ⟨?_, ?_, hconf'.trans hconf, ?_, fun i hi => ?_⟩
      · rw [hnext, hsp', hsp, spendsOf_append, hcredits]
      · rw [hnext, hnum', hnum, List.length_append]
      · rw [hnext, hcredits', hcredits, spend_append]
      · rw [hother i (by omega), hrest i (by omega)]
  obtain ⟨hsp, hnum, hconf, hcredits, -⟩ := hall
  exact ⟨hsp, hnum, hconf, hcredits⟩

/-- The loops are those of `ctx_send_unicasts`. -/
theorem unicastLoops_eq {m m' : PerQpMeta μ} {mesI : Nat}
    (h : (List.range m.sendFifoNum).foldlM (fun (p : PerQpMeta μ × Nat) fifoI =>
      Context.unicastLoop fifoI (p.1.sendFifo fifoI).capacity p.1 p.2) (m, 0) = .ok (m', mesI)) :
    ∃ spends, unicastLoops m = .ok (m', mesI, spends) := by
  unfold unicastLoops
  generalize List.range m.sendFifoNum = l at h ⊢
  generalize (0 : Nat) = k at h ⊢
  generalize ([] : List Spend) = sp
  induction l generalizing m k sp with
  | nil =>
    cases h
    exact ⟨sp, rfl⟩
  | cons i l ih =>
    rw [List.foldlM_cons] at h ⊢
    obtain ⟨⟨m₁, k₁⟩, hloop, h⟩ := bind_eq_ok.mp h
    obtain ⟨spends, hrest⟩ := ih k₁ h (sp ++ unicastSpends i (m.sendFifo i).capacity m k)
    dsimp only at hloop ⊢
    refine ⟨spends, ?_⟩
    rw [hloop]
    exact hrest

/-! ## Runs -/

/-- What can happen next to a QP that sends unicasts.  Around the calls, the program returns
    credits, inserts messages and posts receives. -/
inductive UnicastCmd (μ : Type)
  | ctxSendUnicasts
  | around (credits : Nat → UInt16) (sendFifo : Nat → Fifo) (recv : Nat → RecvQueue μ)

/-- A call shows the QP as it was before, and what it spent. -/
inductive UnicastEvent (μ : Type)
  | sent (before : PerQpMeta μ) (spends : List Spend)
  | other

def unicastStep (qp : Nat) (c : Context μ) : UnicastCmd μ → Outcome (Context μ × UnicastEvent μ)
  | .ctxSendUnicasts => do
    let (_, _, spends) ← unicastLoops (c.qpMeta qp)
    let c' ← c.ctxSendUnicasts qp
    return (c', .sent (c.qpMeta qp) spends)
  | .around credits sendFifo recv =>
    let c' := c.modify qp ({ · with credits := credits, sendFifo := sendFifo })
    .ok ({ c' with qpMeta := fun i => { c'.qpMeta i with recv := recv i } }, .other)

/-- The configuration of the QP stays. -/
theorem unicastStep_conf {qp : Nat} {c c' : Context μ} {k : UnicastCmd μ} {e : UnicastEvent μ}
    (hneeds : (c.qpMeta qp).needsCredits = true) (h : unicastStep qp c k = .ok (c', e)) :
    (c'.qpMeta qp).toQpConf = (c.qpMeta qp).toQpConf := by
  cases k with
  | ctxSendUnicasts =>
    obtain ⟨⟨_, _, spends₀⟩, -, h⟩ := bind_eq_ok.mp h
    obtain ⟨c₁, hsend, h⟩ := bind_eq_ok.mp h
    cases h
    unfold Context.ctxSendUnicasts at hsend
    obtain ⟨⟨m', mesI⟩, hloops, hsend⟩ := bind_eq_ok.mp hsend
    obtain ⟨spends, hloops'⟩ := unicastLoops_eq hloops
    obtain ⟨-, -, hconf, -⟩ := unicastLoops_spec hneeds hloops'
    have hmod : ((c.modify qp fun _ => m').qpMeta qp).toQpConf = (c.qpMeta qp).toQpConf := by
      simp [Context.modify, hconf]
    dsimp only at hsend
    split at hsend
    · obtain ⟨r, -, hsend⟩ := bind_eq_ok.mp hsend
      obtain ⟨s, -, hsend⟩ := bind_eq_ok.mp hsend
      cases hsend
      rw [← hmod]
      by_cases hq : qp = m'.recvQpId
      · simp [Context.setSend, Context.setRecv, Context.modify, ← hq]
      · simp [Context.setSend, Context.setRecv, Context.modify, hq]
    · cases hsend
      exact hmod
  | around credits sendFifo recv =>
    cases h
    show ((c.modify qp _).qpMeta qp).toQpConf = _
    simp [Context.modify]

/-- **Credits are respected exactly when those of the other machines cover what will be sent**:
    over any run of a QP created with credits, every message is sent for a credit of its own
    destination, inside the row, if and only if before each call the messages that machine 0's
    credits let through are covered for every machine but machine 0. -/
theorem unicast_credits_iff {qp rows : Nat} {credits : UInt16} {m : PerQpMeta μ}
    {c₀ c : Context μ} {tr : List (UnicastCmd μ × UnicastEvent μ)}
    (hcreated : c₀.qpMeta qp = m.setUpCredits credits) (hpos : 0 < credits)
    (hrows : getCreditRows c₀.cl m.toQpConf = .ok rows)
    (hrun : Run (unicastStep qp) c₀ tr c) :
    (∀ k before spends, (k, .sent before spends) ∈ tr →
      ∀ s ∈ spends, s.rmId < rows ∧ 0 < s.credits) ↔
    ∀ k before spends, (k, .sent before spends) ∈ tr → CreditsCover rows before := by
  have hneeds₀ : (c₀.qpMeta qp).needsCredits = true := by
    rw [hcreated]
    show (m.needsCredits || decide (0 < credits)) = true
    rw [decide_eq_true hpos, Bool.or_true]
  have hrow := getCreditRows_pos hrows
  have hneeds : ∀ tr c, Run (unicastStep qp) c₀ tr c → (c.qpMeta qp).needsCredits = true := by
    intro tr c hrun
    refine hrun.invariant (fun _ c => (c.qpMeta qp).needsCredits = true) hneeds₀ ?_
    intro tr c k c' e _ ih hs
    rw [unicastStep_conf ih hs]
    exact ih
  have hcall := hrun.forall_steps (P := fun _ e => ∀ before spends,
    e = UnicastEvent.sent before spends →
      ((∀ s ∈ spends, s.rmId < rows ∧ 0 < s.credits) ↔ CreditsCover rows before)) ?_
  · constructor
    · intro hall k before spends hmem
      exact (hcall _ hmem before spends rfl).mp (hall k before spends hmem)
    · intro hall k before spends hmem
      exact (hcall _ hmem before spends rfl).mpr (hall k before spends hmem)
  · rintro tr c k c' e hrun' hs before spends rfl
    cases k with
    | around credits sendFifo recv => nomatch hs
    | ctxSendUnicasts =>
      obtain ⟨⟨m', mesI, sp⟩, hloops, hs⟩ := bind_eq_ok.mp hs
      obtain ⟨c₁, -, hs⟩ := bind_eq_ok.mp hs
      cases hs
      obtain ⟨hsp, -⟩ := unicastLoops_spec (hneeds tr c hrun') hloops
      rw [hsp, spendsOf_iff]
      constructor
      · intro hall d hd _
        exact hall d hd
      · intro hcover d hd
        by_cases hzero : d = 0
        · subst hzero
          exact ⟨hrow, count_sendable_le ..⟩
        · exact hcover d hd hzero

/-- The QP of a worker that sends requests to any machine, before it has credits, with two
    messages for machine 1. -/
def requestQp : PerQpMeta Unit where
  flowType := .sendUniReqRecvUniReq
  sendWrNum := 8
  recvQpId := 0
  receipientNum := 2
  leaderMId := 0
  ssBatch := 127
  maxCredits := 0
  needsCredits := false
  sendFifoNum := 1
  sendSize := 64
  enableInlining := true
  credits := fun _ => 0
  sendFifo := fun _ => { fifoConstructor 4 64 8 with
    slotMeta := fun _ => { coalesceNum := 1, byteSize := 16, respSize := 0, rmId := 1 }
    capacity := 2
    netCapacity := 2 }
  acks := fun _ => ⟨0, 0, 0, 0, opAck⟩
  send := .blank
  recv := { ctxInitRecvInfo Unit 1 1 with recvInfo := ⟨0, 1, 1⟩ }
  timeOutCnt := 0

/-- The worker, on machine 0 of three. -/
def requestWorker (credits : UInt16) : Context Unit where
  cl := .three
  qpNum := 1
  qpMeta := fun _ => requestQp.setUpCredits credits
  qInfo := .blank

/-- With two credits for each machine, both messages are sent for a credit. -/
theorem unicast_credits_two : ∃ c before spends,
    unicastStep 0 (requestWorker 2) .ctxSendUnicasts = .ok (c, .sent before spends) ∧
    spends.map (fun s => (s.rmId, s.credits)) = [(1, 2), (1, 1)] ∧
    ∀ s ∈ spends, s.rmId < 3 ∧ 0 < s.credits := by
  have hcall : (do
      let (_, e) ← unicastStep 0 (requestWorker 2) .ctxSendUnicasts
      return match e with
        | .sent _ spends => some (spends.map fun s => (s.rmId, s.credits))
        | .other => none : Outcome (Option (List (Nat × UInt16)))) = .ok (some [(1, 2), (1, 1)]) := by
    decide +kernel
  obtain ⟨⟨c, e⟩, hstep, hcall⟩ := bind_eq_ok.mp hcall
  cases e with
  | other => nomatch hcall
  | sent before spends =>
    have hspends := Option.some.inj (Except.ok.inj hcall)
    have hbefore : before = requestQp.setUpCredits 2 := by
      obtain ⟨p, -, hstep⟩ := bind_eq_ok.mp hstep
      obtain ⟨c₁, -, hstep⟩ := bind_eq_ok.mp hstep
      cases hstep
      rfl
    refine ⟨c, before, spends, hstep, hspends, ?_⟩
    refine (unicast_credits_iff rfl (by decide) rfl (.single hstep)).mpr ?_ _ _ _
      (List.mem_singleton_self _)
    intro k before' spends' hmem d hd _
    cases List.mem_singleton.mp hmem
    rw [hbefore] at hd ⊢
    have hall : ∀ d ∈ sendable ((requestQp.setUpCredits 2).credits 0).toNat
        (requestQp.setUpCredits 2).queued, d < 3 ∧
        (sendable ((requestQp.setUpCredits 2).credits 0).toNat
          (requestQp.setUpCredits 2).queued).count d ≤
          ((requestQp.setUpCredits 2).credits d).toNat := by
      decide +kernel
    exact hall d hd

/-- With one credit for each, the second message for machine 1 is sent without a credit, and
    the counter wraps. -/
theorem unicast_credits_wrap : ∃ c before spends,
    getCreditRows (requestWorker 1).cl requestQp.toQpConf = .ok 3 ∧
    unicastStep 0 (requestWorker 1) .ctxSendUnicasts = .ok (c, .sent before spends) ∧
    spends.map (fun s => (s.rmId, s.credits)) = [(1, 1), (1, 0)] ∧
    (c.qpMeta 0).credits 1 = 65535 := by
  have hcall : (do
      let (c, e) ← unicastStep 0 (requestWorker 1) .ctxSendUnicasts
      return match e with
        | .sent _ spends =>
          some (spends.map (fun s => (s.rmId, s.credits)), (c.qpMeta 0).credits 1)
        | .other => none : Outcome (Option (List (Nat × UInt16) × UInt16))) =
      .ok (some ([(1, 1), (1, 0)], 65535)) := by
    decide +kernel
  obtain ⟨⟨c, e⟩, hstep, hcall⟩ := bind_eq_ok.mp hcall
  cases e with
  | other => nomatch hcall
  | sent before spends =>
    obtain ⟨hspends, hcredits⟩ := Prod.mk.inj (Option.some.inj (Except.ok.inj hcall))
    exact ⟨c, before, spends, rfl, hstep, hspends, hcredits⟩

end Odyssey
