/-
  THE RECEIVE BUFFER IS A RING, and its three counters stay in step.

  From `pullPtr` on, the ring holds the messages that arrived and are not handled, oldest first,
  then the posted receives in posting order; `pushPtr` is where they end.  `RecvRing r pending`
  says so.  Refused messages and messages still in the completion queue are the same to the
  ring: both are pending, and only `completedButNotPolled + cq` counts them.

  Each function does one thing to the ring: posting receives appends slots (`RecvRing.post`), an
  arrival turns the first posted slot into the last pending one (`RecvRing.arrive`), and a poll
  drops pending messages from the front (`RecvRing.poll`).  Since the ring never holds more than
  `recv_wr_num` slots of it, and the buffer has at least as many, the slots are distinct, so no
  receive is posted under a message that is not handled.
-/
import Odyssey.Receive
import Odyssey.Lib.Cyclic
import Odyssey.Lib.Runs

namespace Odyssey

open Lib

variable {μ : Type}

/-- The ring: the pending messages, then the posted receives. -/
structure RecvRing (r : RecvQueue μ) (pending : List μ) : Prop where
  slots_lt : r.recvBufSlotNum < 2 ^ 32
  bufSlots : r.recvInfo.bufSlots = r.recvBufSlotNum
  wrNum_le : r.recvWrNum ≤ r.recvBufSlotNum
  wrNum_lt : r.recvWrNum < 2 ^ 16
  pull_lt : r.pullPtr < r.recvBufSlotNum
  push : r.recvInfo.pushPtr = slot r.recvBufSlotNum r.pullPtr r.recvInfo.postedRecvs
  posted_le : r.recvInfo.postedRecvs ≤ r.recvWrNum
  posted : r.recvInfo.postedRecvs = pending.length + r.rq.length
  unpolled : pending.length = r.completedButNotPolled + r.cq
  rq : r.rq = window r.recvBufSlotNum (slot r.recvBufSlotNum r.pullPtr pending.length) r.rq.length
  held : ∀ k (h : k < pending.length),
    r.buf (slot r.recvBufSlotNum r.pullPtr k) = some pending[k]

/-- The dimensions of a QP's receive side, which nothing changes. -/
def RecvQueue.dims (r : RecvQueue μ) : Nat × Nat := (r.recvWrNum, r.recvBufSlotNum)

/-- `MOD_INCR` is one step around the buffer. -/
theorem modIncr32_slot {N p k : Nat} (hN : N < 2 ^ 32) (hp : p < N) :
    modIncr32 (slot N p k) N = slot N p (k + 1) := by
  have hlt : slot N p k < N := slot_lt (by omega)
  have hstep := wrap_slot hlt
  unfold modIncr32
  rw [u32_of_lt (by omega), hstep, slot_slot]

theorem modIncr_one {N p : Nat} (hN : N < 2 ^ 32) (hp : p < N) : modIncr p N = slot N p 1 := by
  unfold modIncr slot
  rw [u32_of_lt (by omega)]

namespace RecvRing

variable {r r' : RecvQueue μ} {pending : List μ}

/-- The slots of the ring are distinct: no receive is posted under a pending message. -/
theorem nodup (h : RecvRing r pending) :
    (window r.recvBufSlotNum r.pullPtr pending.length ++ r.rq).Nodup := by
  have hposted := h.posted
  have hle := h.posted_le
  have hwr := h.wrNum_le
  have hall : window r.recvBufSlotNum r.pullPtr (pending.length + r.rq.length)
      = window r.recvBufSlotNum r.pullPtr pending.length ++ r.rq := by
    conv_rhs => rw [h.rq]
    exact window_append ..
  rw [← hall]
  exact window_nodup h.pull_lt (by omega)

/-- **Posting** appends slots. -/
theorem post (h : RecvRing r pending) {n : Nat}
    (hn : r.recvInfo.postedRecvs + n ≤ r.recvWrNum) :
    ∃ r', r.postRecvsWithRecvInfo n = .ok r' ∧ RecvRing r' pending ∧
      r'.recvInfo.postedRecvs = r.recvInfo.postedRecvs + n ∧ r'.dims = r.dims := by
  unfold RecvQueue.postRecvsWithRecvInfo
  by_cases hzero : n = 0
  · rw [if_pos hzero]
    exact ⟨r, rfl, h, by omega, rfl⟩
  · have hlt := h.wrNum_lt
    have hfit : n < 2 ^ 16 := by omega
    let body : RecvQueue μ → Nat → RecvQueue μ := fun r _ => { r with
      rq := r.rq ++ [r.recvInfo.pushPtr]
      recvInfo.pushPtr := modIncr32 r.recvInfo.pushPtr r.recvInfo.bufSlots }
    obtain ⟨r₁, hloop⟩ : ∃ r₁, forPure 16 n body r = .ok r₁ := ⟨_, if_pos hfit⟩
    -- after `i` rounds, `i` slots more
    have hinv : r₁ = { r with
        rq := window r.recvBufSlotNum (slot r.recvBufSlotNum r.pullPtr pending.length)
          (r.rq.length + n)
        recvInfo.pushPtr := slot r.recvBufSlotNum r.pullPtr (r.recvInfo.postedRecvs + n) } := by
      refine forPure_rule (fun i t => t = { r with
        rq := window r.recvBufSlotNum (slot r.recvBufSlotNum r.pullPtr pending.length)
          (r.rq.length + i)
        recvInfo.pushPtr := slot r.recvBufSlotNum r.pullPtr (r.recvInfo.postedRecvs + i) })
        hloop ?_ ?_
      · rw [Nat.add_zero, Nat.add_zero, ← h.rq, ← h.push]
      · rintro i t - rfl
        have hadd : slot r.recvBufSlotNum r.pullPtr (r.recvInfo.postedRecvs + i)
            = slot r.recvBufSlotNum (slot r.recvBufSlotNum r.pullPtr pending.length)
              (r.rq.length + i) := by
          rw [slot_slot, h.posted, Nat.add_assoc]
        simp only [body, h.bufSlots, modIncr32_slot h.slots_lt h.pull_lt, ← Nat.add_assoc,
          window_succ]
        simp only [hadd]
    have hcount : u32 (r.recvInfo.postedRecvs + n) = r.recvInfo.postedRecvs + n :=
      u32_of_lt (by omega)
    refine ⟨{ r₁ with recvInfo.postedRecvs := u32 (r₁.recvInfo.postedRecvs + n) }, ?_, ?_, ?_, ?_⟩
    · rw [if_neg hzero]
      show (forPure 16 n body r >>= _) = _
      rw [hloop, ok_bind, if_pos (by omega)]
      rfl
    · subst hinv
      have hposted := h.posted
      refine ⟨h.slots_lt, h.bufSlots, h.wrNum_le, h.wrNum_lt, h.pull_lt, ?_, ?_, ?_, h.unpolled, ?_,
        h.held⟩
      · show slot _ _ (r.recvInfo.postedRecvs + n) = slot _ _ (u32 (r.recvInfo.postedRecvs + n))
        rw [hcount]
      · show u32 (r.recvInfo.postedRecvs + n) ≤ r.recvWrNum
        rw [hcount]
        exact hn
      · show u32 (r.recvInfo.postedRecvs + n) = pending.length + (window _ _ _).length
        rw [hcount, length_window]
        omega
      · show window _ _ _ = window _ _ (window _ _ _).length
        rw [length_window]
    · subst hinv
      exact hcount
    · subst hinv
      rfl

/-- **Arrival**: the oldest posted receive becomes the newest pending message. -/
theorem arrive (h : RecvRing r pending) {m : μ} (ha : r.arrive m = .ok r') :
    RecvRing r' (pending ++ [m]) ∧ r'.dims = r.dims := by
  unfold RecvQueue.arrive at ha
  split at ha
  · nomatch ha
  · rename_i sl rest hrq
    cases ha
    have hposted := h.posted
    have hle := h.posted_le
    have hwr := h.wrNum_le
    have hring := h.rq
    have hlen : r.rq.length = rest.length + 1 := by rw [hrq]; rfl
    have hstart : slot r.recvBufSlotNum r.pullPtr pending.length < r.recvBufSlotNum :=
      slot_lt (by have := h.pull_lt; omega)
    rw [hlen, window_cons hstart, hrq] at hring
    obtain ⟨hsl, hrest⟩ := List.cons.inj hring
    refine ⟨?_, rfl⟩
    refine ⟨h.slots_lt, h.bufSlots, h.wrNum_le, h.wrNum_lt, h.pull_lt, h.push, h.posted_le, ?_, ?_,
      ?_, ?_⟩
    · show r.recvInfo.postedRecvs = (pending ++ [m]).length + rest.length
      rw [List.length_append, List.length_singleton]
      omega
    · show (pending ++ [m]).length = r.completedButNotPolled + (r.cq + 1)
      rw [List.length_append, List.length_singleton, h.unpolled]
      omega
    · show rest = window _ (slot _ _ (pending ++ [m]).length) rest.length
      rw [List.length_append, List.length_singleton, ← slot_slot]
      exact hrest
    · intro k hk
      show Function.update r.buf sl (some m) (slot r.recvBufSlotNum r.pullPtr k) = _
      rw [List.length_append, List.length_singleton] at hk
      by_cases hold : k < pending.length
      · have hne : slot r.recvBufSlotNum r.pullPtr k ≠ sl := by
          rw [hsl]
          exact slot_ne h.pull_lt (by omega) (by omega) (by omega)
        rw [Function.update_of_ne hne, h.held k hold, List.getElem_append_left hold]
      · have hk' : k = pending.length := by omega
        subst hk'
        rw [← hsl, Function.update_self]
        simp

end RecvRing

/-! ## Polling -/

/-- The handler went through the first `k` slots from `pullPtr` on, and accepted each. -/
def Accepts {τ : Type} (recvHandler : τ → Nat → Option μ → Option τ) (r : RecvQueue μ) (k : Nat)
    (t t' : τ) : Prop :=
  (List.range k).foldlM (fun t i => recvHandler t (slot r.recvBufSlotNum r.pullPtr i)
    (r.buf (slot r.recvBufSlotNum r.pullPtr i))) t = some t'

/-- What the handler keeps with each message holds of those it accepted. -/
theorem Accepts.rule {τ : Type} {recvHandler : τ → Nat → Option μ → Option τ} {r : RecvQueue μ}
    {k : Nat} {t t' : τ} {P : Nat → τ → Prop} (h : Accepts recvHandler r k t t') (h0 : P 0 t)
    (hstep : ∀ i t t', i < k → P i t → recvHandler t (slot r.recvBufSlotNum r.pullPtr i)
      (r.buf (slot r.recvBufSlotNum r.pullPtr i)) = some t' → P (i + 1) t') : P k t' := by
  induction k generalizing t' with
  | zero =>
    cases h
    exact h0
  | succ k ih =>
    unfold Accepts at h
    rw [List.range_succ, List.foldlM_append] at h
    obtain ⟨t₁, ht₁, h⟩ := Option.bind_eq_some_iff.mp h
    obtain ⟨t₂, ht₂, h⟩ := Option.bind_eq_some_iff.mp h
    cases h
    exact hstep k t₁ t' (Nat.lt_succ_self k)
      (ih ht₁ fun i t t' hi => hstep i t t' (Nat.lt_succ_of_lt hi)) ht₂

/-- The polling loop accepts some messages, in order, and moves `pullPtr` behind them; it stops
    early only at a message that the handler refuses. -/
theorem pollLoop_spec {τ : Type} (recvHandler : τ → Nat → Option μ → Option τ) :
    ∀ (n : Nat) (r : RecvQueue μ) (t : τ), r.recvBufSlotNum < 2 ^ 32 →
      r.pullPtr < r.recvBufSlotNum → r.polledMessages + n < 2 ^ 32 →
      ∃ k t', k ≤ n ∧ Accepts recvHandler r k t t' ∧
        (k < n → recvHandler t' (slot r.recvBufSlotNum r.pullPtr k)
          (r.buf (slot r.recvBufSlotNum r.pullPtr k)) = none) ∧
        RecvQueue.pollLoop recvHandler n r t = ({ r with
          pullPtr := slot r.recvBufSlotNum r.pullPtr k
          polledMessages := r.polledMessages + k }, t')
  | 0, r, t, _, hp, _ => by
      refine ⟨0, t, Nat.le_refl 0, rfl, fun hlt => absurd hlt (Nat.not_lt_zero 0), ?_⟩
      rw [slot_zero hp]
      rfl
  | n + 1, r, t, hN, hp, hcnt => by
      unfold RecvQueue.pollLoop
      cases hans : recvHandler t r.pullPtr (r.buf r.pullPtr) with
      | none =>
        refine ⟨0, t, Nat.zero_le _, rfl, ?_⟩
        rw [slot_zero hp]
        exact ⟨fun _ => hans, rfl⟩
      | some t₁ =>
        have hcount : u32 (r.polledMessages + 1) = r.polledMessages + 1 := u32_of_lt (by omega)
        have hone : r.handled = { r with
            pullPtr := slot r.recvBufSlotNum r.pullPtr 1
            polledMessages := r.polledMessages + 1 } := by
          unfold RecvQueue.handled
          rw [modIncr_one hN hp, hcount]
        obtain ⟨k, t', hk, hacc, hstop, hloop⟩ := pollLoop_spec recvHandler n r.handled t₁ hN
          (by rw [hone]; exact slot_lt (by omega))
          (by rw [hone]; show r.polledMessages + 1 + n < _; omega)
        rw [hone] at hacc hstop hloop
        have hshift : ∀ i, slot r.recvBufSlotNum (slot r.recvBufSlotNum r.pullPtr 1) i
            = slot r.recvBufSlotNum r.pullPtr (i + 1) := by
          intro i
          rw [slot_slot, Nat.add_comm]
        refine ⟨k + 1, t', by omega, ?_, fun hlt => ?_, ?_⟩
        · simp only [Accepts, hshift] at hacc ⊢
          rw [List.range_succ_eq_map, List.foldlM_cons, slot_zero hp, hans]
          simp only [List.foldlM_map]
          exact hacc
        · simp only [hshift] at hstop
          exact hstop (by omega)
        · simp only [hone, hloop, hshift, Nat.add_assoc, Nat.add_comm 1 k]

/-- **Polling** drops the messages that the handler accepted, from the front: all that are
    completed, or those before the first that the handler refuses. -/
theorem RecvRing.poll {r r' : RecvQueue μ} {pending : List μ} (h : RecvRing r pending)
    {τ : Type} {recvHandler : τ → Nat → Option μ → Option τ} {comps : Nat} {t t' : τ}
    (hp : r.ctxPollIncomingMessages recvHandler comps t = .ok (r', t')) :
    ∃ k, k ≤ pending.length ∧ Accepts recvHandler r k t t' ∧
      (k < comps + r.completedButNotPolled → recvHandler t' (slot r.recvBufSlotNum r.pullPtr k)
        (r.buf (slot r.recvBufSlotNum r.pullPtr k)) = none) ∧ RecvRing r' (pending.drop k) ∧
      r'.recvInfo.postedRecvs + k = r.recvInfo.postedRecvs ∧
      r'.completedButNotPolled + k = comps + r.completedButNotPolled ∧ r'.dims = r.dims := by
  have hposted := h.posted
  have hle := h.posted_le
  have hlt := h.wrNum_lt
  have hunpolled := h.unpolled
  obtain ⟨⟨r₁, completed⟩, hfind, hp⟩ := bind_eq_ok.mp hp
  unfold RecvQueue.findHowManyMessagesCanBePolled at hfind
  split at hfind
  · rename_i hcomps
    cases hfind
    have hring : RecvRing { r with
        cq := r.cq - comps, completedButNotPolled := comps + r.completedButNotPolled } pending := by
      refine ⟨h.slots_lt, h.bufSlots, h.wrNum_le, h.wrNum_lt, h.pull_lt, h.push, h.posted_le,
        h.posted, ?_, h.rq, h.held⟩
      show pending.length = comps + r.completedButNotPolled + (r.cq - comps)
      omega
    dsimp only at hp
    split at hp
    · -- nothing to handle
      rename_i hzero
      cases hp
      refine ⟨0, Nat.zero_le _, rfl, fun hlt => absurd hlt (by omega), ?_, rfl, hzero.symm, rfl⟩
      rw [List.drop_zero]
      rwa [hzero] at hring
    · obtain ⟨k, t₁, hk, hacc, hstop, hloop⟩ := pollLoop_spec recvHandler
        (comps + r.completedButNotPolled)
        { r with cq := r.cq - comps, completedButNotPolled := 0, polledMessages := 0 } t
        h.slots_lt h.pull_lt (by show 0 + _ < _; omega)
      rw [hloop] at hp
      have hleft : sub32 (comps + r.completedButNotPolled) (0 + k)
          = comps + r.completedButNotPolled - k := by
        rw [Nat.zero_add, sub32_of_le (by omega) hk]
      have hrecvs : sub32 r.recvInfo.postedRecvs (0 + k) = r.recvInfo.postedRecvs - k := by
        rw [Nat.zero_add, sub32_of_le (by omega) (by omega)]
      simp only [hleft, hrecvs] at hp
      cases hp
      refine ⟨k, by omega, hacc, hstop, ?_, by show _ - k + k = _; omega,
        by show _ - k + k = _; omega, rfl⟩
      refine ⟨h.slots_lt, h.bufSlots, h.wrNum_le, h.wrNum_lt, ?_, ?_, ?_, ?_, ?_, ?_, ?_⟩
      · exact slot_lt (by have := h.pull_lt; omega)
      · show r.recvInfo.pushPtr
          = slot _ (slot _ r.pullPtr k) (r.recvInfo.postedRecvs - k)
        rw [slot_slot, h.push]
        congr 1
        omega
      · show r.recvInfo.postedRecvs - k ≤ r.recvWrNum
        omega
      · show r.recvInfo.postedRecvs - k = (pending.drop k).length + r.rq.length
        rw [List.length_drop]
        omega
      · show (pending.drop k).length
          = comps + r.completedButNotPolled - k + (r.cq - comps)
        rw [List.length_drop]
        omega
      · show r.rq = window _ (slot _ (slot _ r.pullPtr k) (pending.drop k).length) r.rq.length
        rw [slot_slot, List.length_drop, show k + (pending.length - k) = pending.length by omega]
        exact h.rq
      · intro i hi
        show r.buf (slot _ (slot _ r.pullPtr k) i) = some (pending.drop k)[i]
        rw [List.length_drop] at hi
        rw [slot_slot, List.getElem_drop]
        exact h.held (k + i) (by omega)
  · nomatch hfind

/-- A poll returns, whatever the handler does. -/
theorem RecvRing.poll_returns {r : RecvQueue μ} {pending : List μ} (h : RecvRing r pending)
    {τ : Type} (recvHandler : τ → Nat → Option μ → Option τ) {comps : Nat} (hcomps : comps ≤ r.cq)
    (t : τ) : ∃ r' t', r.ctxPollIncomingMessages recvHandler comps t = .ok (r', t') := by
  have hposted := h.posted
  have hle := h.posted_le
  have hwr := h.wrNum_le
  have hunpolled := h.unpolled
  have hfind : r.findHowManyMessagesCanBePolled comps = .ok ({ r with
      cq := r.cq - comps, completedButNotPolled := 0 }, comps + r.completedButNotPolled) :=
    if_pos ⟨hcomps, by omega⟩
  unfold RecvQueue.ctxPollIncomingMessages
  rw [hfind, ok_bind]
  dsimp only
  split
  · exact ⟨_, _, rfl⟩
  · exact ⟨_, _, rfl⟩

/-- Both paths that refill post the same number of receives, those that are missing. -/
theorem refill_eq_post {r r' : RecvQueue μ} (hle : r.recvInfo.postedRecvs ≤ r.recvWrNum)
    (hlt : r.recvWrNum < 2 ^ 16) (hp : r.ctxRefillRecvs = .ok r' ∨ r.postQuorumRecvs = .ok r') :
    r.postRecvsWithRecvInfo (r.recvWrNum - r.recvInfo.postedRecvs) = .ok r' := by
  have hsub : sub32 r.recvWrNum r.recvInfo.postedRecvs
      = r.recvWrNum - r.recvInfo.postedRecvs := sub32_of_le (by omega) hle
  have hnone : r.recvWrNum - r.recvInfo.postedRecvs = 0 → (Except.ok r : Outcome (RecvQueue μ))
      = .ok r' → r.postRecvsWithRecvInfo (r.recvWrNum - r.recvInfo.postedRecvs) = .ok r' := by
    intro hzero hr
    unfold RecvQueue.postRecvsWithRecvInfo
    rw [if_pos hzero]
    exact hr
  rcases hp with hp | hp
  · obtain ⟨n, hn, hp⟩ := bind_eq_ok.mp hp
    unfold RecvQueue.recvsToPost at hn
    split at hn
    · nomatch hn
    · cases hn
      rw [hsub] at hp
      split at hp
      · exact hp
      · exact hnone (by omega) hp
  · obtain ⟨n, hn, hp⟩ := bind_eq_ok.mp hp
    unfold RecvQueue.recvsToPost at hn
    split at hn
    · nomatch hn
    · cases hn
      rw [hsub] at hp
      split at hp
      · exact hp
      · exact hnone (by omega) hp

/-- Refilling, from either path that does it, posts what is missing. -/
theorem RecvRing.refill {r r' : RecvQueue μ} {pending : List μ} (h : RecvRing r pending)
    (hp : r.ctxRefillRecvs = .ok r' ∨ r.postQuorumRecvs = .ok r') :
    RecvRing r' pending ∧ r'.recvInfo.postedRecvs = r.recvWrNum ∧ r'.dims = r.dims := by
  have hle := h.posted_le
  have hpost := refill_eq_post hle h.wrNum_lt hp
  obtain ⟨r₁, hr₁, hring, hposted, hwr⟩ :=
    h.post (n := r.recvWrNum - r.recvInfo.postedRecvs) (by omega)
  rw [hpost] at hr₁
  cases hr₁
  exact ⟨hring, by omega, hwr⟩

/-- Preposting counts the receives in a `uint16_t`. -/
theorem prepost_wrNum_lt {wrNum slotNum : UInt32} {r : RecvQueue μ}
    (h : (ctxInitRecvInfo μ wrNum slotNum).ctxPrepostRecvs = .ok r) : wrNum.toNat < 2 ^ 16 := by
  by_cases hwr : wrNum.toNat = 0
  · omega
  · unfold RecvQueue.ctxPrepostRecvs RecvQueue.postRecvsWithRecvInfo at h
    rw [if_neg (show ¬ (ctxInitRecvInfo μ wrNum slotNum).recvWrNum = 0 from hwr)] at h
    obtain ⟨_, hloop, -⟩ := bind_eq_ok.mp h
    exact (forPure_eq_ok.mp hloop).1

/-- The ring after `ctx_prepost_recvs`: everything is posted, nothing has arrived. -/
theorem RecvRing.prepost {wrNum slotNum : UInt32} {r : RecvQueue μ}
    (hpos : 0 < slotNum.toNat) (hle : wrNum.toNat ≤ slotNum.toNat)
    (h : (ctxInitRecvInfo μ wrNum slotNum).ctxPrepostRecvs = .ok r) :
    RecvRing r [] ∧ r.recvInfo.postedRecvs = wrNum.toNat ∧
      r.dims = (wrNum.toNat, slotNum.toNat) := by
  have hzero : slot slotNum.toNat 0 0 = 0 := slot_zero hpos
  have hfit := prepost_wrNum_lt h
  have hinit : RecvRing (ctxInitRecvInfo μ wrNum slotNum) [] :=
    ⟨slotNum.toNat_lt, rfl, hle, hfit, hpos, hzero.symm, Nat.zero_le _, rfl, rfl, rfl,
      fun k hk => absurd hk (Nat.not_lt_zero k)⟩
  obtain ⟨r₁, hr₁, hring, hposted, hwr⟩ :=
    hinit.post (n := wrNum.toNat) (by show 0 + wrNum.toNat ≤ wrNum.toNat; omega)
  have heq : (ctxInitRecvInfo μ wrNum slotNum).ctxPrepostRecvs = .ok r₁ := hr₁
  rw [h] at heq
  cases heq
  exact ⟨hring, by rw [hposted]; exact Nat.zero_add _, hwr⟩

/-! ## Runs -/

/-- What happens on the receive side of a QP.  In a poll, `ibv_poll_cq` returns `comps`
    completions and the handler's answers are `accepts`, by the number of messages it has handled
    in this poll. -/
inductive RecvCmd (μ : Type)
  | arrive (m : μ)
  | ctxPollIncomingMessages (comps : Nat) (accepts : Nat → Bool)
  | ctxRefillRecvs
  | postQuorumRecvs

/-- The handler of a run notes what it accepts: the slot at `pullPtr`, and what is in it. -/
def notingHandler (accepts : Nat → Bool) (noted : List (Nat × Option μ)) (sl : Nat)
    (m : Option μ) : Option (List (Nat × Option μ)) :=
  if accepts noted.length then some (noted ++ [(sl, m)]) else none

theorem notingHandler_some {accepts : Nat → Bool} {noted t : List (Nat × Option μ)} {sl : Nat}
    {m : Option μ} (h : notingHandler accepts noted sl m = some t) :
    accepts noted.length = true ∧ t = noted ++ [(sl, m)] := by
  unfold notingHandler at h
  split at h
  · rename_i haccepts
    exact ⟨haccepts, (Option.some.inj h).symm⟩
  · nomatch h

theorem notingHandler_none {accepts : Nat → Bool} {noted : List (Nat × Option μ)} {sl : Nat}
    {m : Option μ} (h : notingHandler accepts noted sl m = none) :
    accepts noted.length = false := by
  unfold notingHandler at h
  split at h
  · nomatch h
  · rename_i hrefuses
    exact Bool.eq_false_iff.mpr hrefuses

/-- One step, and the messages handled in it. -/
def recvStep (r : RecvQueue μ) : RecvCmd μ → Outcome (RecvQueue μ × List (Nat × Option μ))
  | .arrive m => do
      let r ← r.arrive m
      return (r, [])
  | .ctxPollIncomingMessages comps accepts =>
      r.ctxPollIncomingMessages (notingHandler accepts) comps []
  | .ctxRefillRecvs => do
      let r ← r.ctxRefillRecvs
      return (r, [])
  | .postQuorumRecvs => do
      let r ← r.postQuorumRecvs
      return (r, [])

/-- The messages that arrived, in order. -/
def arrivals : List (RecvCmd μ × List (Nat × Option μ)) → List μ :=
  List.filterMap fun
    | (.arrive m, _) => some m
    | _ => none

/-- The messages that were handled, in order. -/
def handledIn (tr : List (RecvCmd μ × List (Nat × Option μ))) : List (Option μ) :=
  (tr.flatMap Prod.snd).map Prod.snd

/-- The handler of a run has noted the first `k` pending messages, each in its slot. -/
theorem accepts_noting {r : RecvQueue μ} {pending : List μ} (h : RecvRing r pending)
    {accepts : Nat → Bool} {k : Nat} (hk : k ≤ pending.length) {noted : List (Nat × Option μ)}
    (hacc : Accepts (notingHandler accepts) r k [] noted) :
    noted = (List.range k).map (fun i =>
      (slot r.recvBufSlotNum r.pullPtr i, r.buf (slot r.recvBufSlotNum r.pullPtr i))) ∧
    (∀ i, i < k → accepts i = true) ∧ noted.map Prod.snd = (pending.take k).map some := by
  obtain ⟨heq, haccepts⟩ : noted = (List.range k).map (fun i => (slot r.recvBufSlotNum r.pullPtr i,
      r.buf (slot r.recvBufSlotNum r.pullPtr i))) ∧ ∀ i, i < k → accepts i = true := by
    refine hacc.rule (P := fun n t => t = (List.range n).map (fun i =>
      (slot r.recvBufSlotNum r.pullPtr i, r.buf (slot r.recvBufSlotNum r.pullPtr i))) ∧
        ∀ i, i < n → accepts i = true) ⟨rfl, fun i hi => absurd hi (Nat.not_lt_zero i)⟩ ?_
    rintro n t t' - ⟨rfl, hbefore⟩ ht
    obtain ⟨hnow, rfl⟩ := notingHandler_some ht
    rw [List.length_map, List.length_range] at hnow
    refine ⟨?_, fun i hi => ?_⟩
    · rw [List.range_succ, List.map_append]
      rfl
    · rcases Nat.lt_or_eq_of_le (Nat.le_of_lt_succ hi) with hlt | rfl
      · exact hbefore i hlt
      · exact hnow
  refine ⟨heq, haccepts, ?_⟩
  rw [heq, List.map_map]
  apply List.ext_getElem
  · simp only [List.length_map, List.length_range, List.length_take]
    omega
  · intro i hi _
    simp only [List.length_map, List.length_range] at hi
    have hheld := h.held i (by omega)
    simp only [List.getElem_map, List.getElem_range, Function.comp_apply, List.getElem_take, hheld]

/-- What a run keeps: the ring, its dimensions, and the history of the messages. -/
def RecvInv (dims : Nat × Nat) (tr : List (RecvCmd μ × List (Nat × Option μ)))
    (r : RecvQueue μ) : Prop :=
  ∃ pending, RecvRing r pending ∧ r.dims = dims ∧
    handledIn tr ++ pending.map some = (arrivals tr).map some

/-- One step keeps it. -/
theorem RecvInv.step {dims : Nat × Nat} {tr : List (RecvCmd μ × List (Nat × Option μ))}
    {r r' : RecvQueue μ} {k : RecvCmd μ} {noted : List (Nat × Option μ)}
    (inv : RecvInv dims tr r) (hs : recvStep r k = .ok (r', noted)) :
    RecvInv dims (tr ++ [(k, noted)]) r' := by
  obtain ⟨pending, h, hdims, hhist⟩ := inv
  cases k with
  | arrive m =>
    obtain ⟨r₁, ha, hs⟩ := bind_eq_ok.mp hs
    cases hs
    obtain ⟨hring, hdims'⟩ := h.arrive ha
    refine ⟨pending ++ [m], hring, hdims'.trans hdims, ?_⟩
    have hnew : arrivals (tr ++ [(.arrive m, [])]) = arrivals tr ++ [m] := by simp [arrivals]
    rw [hnew, List.map_append, List.map_append, ← List.append_assoc, ← hhist]
    simp [handledIn]
  | ctxPollIncomingMessages comps accepts =>
    obtain ⟨k, hk, hacc, -, hring, -, -, hdims'⟩ := h.poll hs
    obtain ⟨-, -, hmsgs⟩ := accepts_noting h hk hacc
    refine ⟨pending.drop k, hring, hdims'.trans hdims, ?_⟩
    have hnew : handledIn (tr ++ [(.ctxPollIncomingMessages comps accepts, noted)])
        = handledIn tr ++ (pending.take k).map some := by
      rw [← hmsgs]
      simp [handledIn]
    have harr : arrivals (tr ++ [(.ctxPollIncomingMessages comps accepts, noted)])
        = arrivals tr := by simp [arrivals]
    rw [hnew, harr, List.append_assoc, ← List.map_append, List.take_append_drop, hhist]
  | ctxRefillRecvs =>
    obtain ⟨r₁, hp, hs⟩ := bind_eq_ok.mp hs
    cases hs
    obtain ⟨hring, -, hdims'⟩ := h.refill (Or.inl hp)
    refine ⟨pending, hring, hdims'.trans hdims, ?_⟩
    simpa [handledIn, arrivals] using hhist
  | postQuorumRecvs =>
    obtain ⟨r₁, hp, hs⟩ := bind_eq_ok.mp hs
    cases hs
    obtain ⟨hring, -, hdims'⟩ := h.refill (Or.inr hp)
    refine ⟨pending, hring, hdims'.trans hdims, ?_⟩
    simpa [handledIn, arrivals] using hhist

/-- What is promised of the receive side after any steps. -/
structure RecvCorrect (slotNum : Nat) (tr : List (RecvCmd μ × List (Nat × Option μ)))
    (r : RecvQueue μ) : Prop where
  push : r.recvInfo.pushPtr = (r.pullPtr + r.recvInfo.postedRecvs) % slotNum
  posted_le : r.recvInfo.postedRecvs ≤ r.recvWrNum
  /-- The messages handled so far are the first that arrived, each once and in order.  The others
      are in the ring from `pullPtr` on, and no receive is posted on a slot of theirs. -/
  history : ∃ pending : List μ, handledIn tr ++ pending.map some = (arrivals tr).map some ∧
    (∀ k (h : k < pending.length), r.buf ((r.pullPtr + k) % slotNum) = some pending[k] ∧
      (r.pullPtr + k) % slotNum ∉ r.rq) ∧ r.rq.Nodup
  /-- A poll can take all completions that there are. -/
  polls : ∀ comps accepts, comps ≤ r.cq →
    ∃ r' noted, recvStep r (.ctxPollIncomingMessages comps accepts) = .ok (r', noted)
  /-- No subtraction of a poll wraps, and the handler saw the pending messages in their slots. -/
  poll : ∀ comps accepts r' noted,
    recvStep r (.ctxPollIncomingMessages comps accepts) = .ok (r', noted) →
    r'.recvInfo.postedRecvs + noted.length = r.recvInfo.postedRecvs ∧
    r'.completedButNotPolled + noted.length = comps + r.completedButNotPolled ∧
    ∀ k (h : k < noted.length),
      noted[k] = ((r.pullPtr + k) % slotNum, r.buf ((r.pullPtr + k) % slotNum))
  /-- A poll handles every completed message, but for one that the handler refuses and those
      behind it. -/
  refused : ∀ comps accepts r' noted,
    recvStep r (.ctxPollIncomingMessages comps accepts) = .ok (r', noted) →
    (∀ k, k < noted.length → accepts k = true) ∧
    (noted.length < comps + r.completedButNotPolled → accepts noted.length = false)

/-- **Receives and messages never collide**, in any run, for any QP with no more receives than
    buffer slots. -/
theorem recv_run {wrNum slotNum : UInt32} {r₀ r : RecvQueue μ}
    {tr : List (RecvCmd μ × List (Nat × Option μ))}
    (hpos : 0 < slotNum.toNat) (hle : wrNum.toNat ≤ slotNum.toNat)
    (hpre : (ctxInitRecvInfo μ wrNum slotNum).ctxPrepostRecvs = .ok r₀)
    (hrun : Run recvStep r₀ tr r) : RecvCorrect slotNum.toNat tr r := by
  obtain ⟨hinit, -, hdims⟩ := RecvRing.prepost hpos hle hpre
  obtain ⟨pending, h, hdims, hhist⟩ : RecvInv (wrNum.toNat, slotNum.toNat) tr r := by
    refine hrun.invariant (RecvInv (wrNum.toNat, slotNum.toNat)) ?_ ?_
    · exact ⟨[], hinit, hdims, rfl⟩
    · intro tr r k r' noted _ inv hs
      exact inv.step hs
  have hN : r.recvBufSlotNum = slotNum.toNat := congrArg Prod.snd hdims
  have hnodup := List.nodup_append'.mp h.nodup
  refine ⟨?_, h.posted_le, ⟨pending, hhist, ?_, hnodup.2.1⟩, ?_, ?_, ?_⟩
  · rw [← hN]
    exact h.push
  · intro k hk
    rw [← hN]
    refine ⟨h.held k hk, fun hmem => ?_⟩
    have hin : slot r.recvBufSlotNum r.pullPtr k
        ∈ window r.recvBufSlotNum r.pullPtr pending.length :=
      List.mem_map.mpr ⟨k, List.mem_range.mpr hk, rfl⟩
    exact hnodup.2.2 hin hmem
  · intro comps accepts hcomps
    exact h.poll_returns (notingHandler accepts) hcomps []
  · intro comps accepts r' noted hs
    obtain ⟨k, hk, hacc, -, -, hposted, hleft, -⟩ := h.poll hs
    obtain ⟨heq, -, -⟩ := accepts_noting h hk hacc
    have hlen : noted.length = k := by rw [heq, List.length_map, List.length_range]
    refine ⟨by rw [hlen]; exact hposted, by rw [hlen]; exact hleft, fun i hi => ?_⟩
    subst heq
    rw [List.getElem_map, List.getElem_range, hN]
    rfl
  · intro comps accepts r' noted hs
    obtain ⟨k, hk, hacc, hstop, -⟩ := h.poll hs
    obtain ⟨heq, haccepts, -⟩ := accepts_noting h hk hacc
    have hlen : noted.length = k := by rw [heq, List.length_map, List.length_range]
    rw [hlen]
    refine ⟨haccepts, fun hlt => ?_⟩
    rw [← hlen]
    exact notingHandler_none (hstop hlt)

/-- Three messages on two slots: both that have arrived are refused, one is accepted by the next
    poll, and the last poll accepts the other one and the third. -/
theorem recv_run_three : ∃ r₀ r : RecvQueue Nat, ∃ tr,
    (ctxInitRecvInfo Nat 2 2).ctxPrepostRecvs = .ok r₀ ∧ Run recvStep r₀ tr r ∧
    tr.map (fun p => p.2.map Prod.snd) = [[], [], [], [some 7], [], [], [some 8, some 9]] ∧
    r.completedButNotPolled = 0 ∧ RecvCorrect 2 tr r := by
  obtain ⟨r₀, hpre⟩ : ∃ r₀, (ctxInitRecvInfo Nat 2 2).ctxPrepostRecvs = .ok r₀ := ⟨_, rfl⟩
  obtain ⟨tr, r, hexec, hhandled, hnone⟩ : ∃ tr r, exec recvStep r₀
      [.arrive 7, .arrive 8, .ctxPollIncomingMessages 2 (fun _ => false),
        .ctxPollIncomingMessages 0 (fun k => k < 1), .ctxRefillRecvs, .arrive 9,
        .ctxPollIncomingMessages 1 (fun _ => true)] = .ok (tr, r) ∧
      tr.map (fun p => p.2.map Prod.snd) = [[], [], [], [some 7], [], [], [some 8, some 9]] ∧
      r.completedButNotPolled = 0 := by
    cases hpre
    exact ⟨_, _, rfl, rfl, rfl⟩
  exact ⟨r₀, r, tr, hpre, run_of_exec hexec, hhandled, hnone,
    recv_run (by decide) (by decide) hpre (run_of_exec hexec)⟩

end Odyssey
