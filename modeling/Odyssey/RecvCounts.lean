/-
  COUNTING RECEIVES.

  A QP need not have a buffer slot for every receive.  Where it has fewer, a message can be
  overwritten before it is handled, and the ring of `ReceiveRing` does not hold; what is left are
  the counters.  `RecvCounts r n` says that they are right, with `n` messages that arrived and are
  not handled: the receives that are posted, as the code counts them, are these and the ones that
  wait for a message.

  `missing` counts the receives that were handled and not posted again, the reason why a message can
  find none.  A poll adds what it handles, posting from either path brings it back to 0, and nothing
  else changes it.

  `RecvHolds` is for a QP with a slot for every receive: the slots hold what arrived, too.
-/
import Odyssey.ReceiveRing

namespace Odyssey

open Lib

variable {μ : Type}

/-- The receives that `recv_wr_num` allows and that are not posted. -/
def RecvQueue.missing (r : RecvQueue μ) : Nat := r.recvWrNum - r.recvInfo.postedRecvs

/-- The counters are right: `n` messages are not handled. -/
structure RecvCounts (r : RecvQueue μ) (n : Nat) : Prop where
  wrNum_lt : r.recvWrNum < 2 ^ 16
  posted_le : r.recvInfo.postedRecvs ≤ r.recvWrNum
  posted : r.recvInfo.postedRecvs = n + r.rq.length
  unpolled : n = r.completedButNotPolled + r.cq

/-- The counters of a ring. -/
theorem RecvRing.counts {r : RecvQueue μ} {pending : List μ} (h : RecvRing r pending) :
    RecvCounts r pending.length := ⟨h.wrNum_lt, h.posted_le, h.posted, h.unpolled⟩

namespace RecvCounts

variable {r r' : RecvQueue μ} {n : Nat}

/-- **Posting** receives. -/
theorem post {recvNum : Nat} (h : RecvCounts r n)
    (hnum : r.recvInfo.postedRecvs + recvNum ≤ r.recvWrNum)
    (hp : r.postRecvsWithRecvInfo recvNum = .ok r') :
    RecvCounts r' n ∧ r'.recvWrNum = r.recvWrNum ∧
      r'.recvInfo.postedRecvs = r.recvInfo.postedRecvs + recvNum := by
  have hlt := h.wrNum_lt
  unfold RecvQueue.postRecvsWithRecvInfo at hp
  by_cases hzero : recvNum = 0
  · rw [if_pos hzero] at hp
    cases hp
    exact ⟨h, rfl, by omega⟩
  · rw [if_neg hzero] at hp
    obtain ⟨r₁, hloop, hp⟩ := bind_eq_ok.mp hp
    rw [if_pos (by omega)] at hp
    cases hp
    obtain ⟨hrq, hwr, hposted, hleft⟩ : r₁.rq.length = r.rq.length + recvNum ∧
        r₁.recvWrNum = r.recvWrNum ∧ r₁.recvInfo.postedRecvs = r.recvInfo.postedRecvs ∧
        r₁.completedButNotPolled + r₁.cq = r.completedButNotPolled + r.cq := by
      refine forPure_rule (fun i (t : RecvQueue μ) => t.rq.length = r.rq.length + i ∧
        t.recvWrNum = r.recvWrNum ∧ t.recvInfo.postedRecvs = r.recvInfo.postedRecvs ∧
        t.completedButNotPolled + t.cq = r.completedButNotPolled + r.cq) hloop
        ⟨rfl, rfl, rfl, rfl⟩ ?_
      rintro i t - ⟨hrq, hrest⟩
      refine ⟨?_, hrest⟩
      show (t.rq ++ [t.recvInfo.pushPtr]).length = _
      rw [List.length_append, List.length_singleton, hrq, Nat.add_assoc]
    have hcount : u32 (r₁.recvInfo.postedRecvs + recvNum) = r.recvInfo.postedRecvs + recvNum := by
      rw [hposted]
      exact u32_of_lt (by omega)
    have hold := h.posted
    refine ⟨⟨?_, ?_, ?_, ?_⟩, hwr, hcount⟩
    · show r₁.recvWrNum < _
      rw [hwr]
      exact hlt
    · show u32 (r₁.recvInfo.postedRecvs + recvNum) ≤ r₁.recvWrNum
      rw [hcount, hwr]
      exact hnum
    · show u32 (r₁.recvInfo.postedRecvs + recvNum) = n + r₁.rq.length
      rw [hcount, hrq]
      omega
    · show n = r₁.completedButNotPolled + r₁.cq
      rw [hleft]
      exact h.unpolled

/-- **Refilling**, from either path that does it, leaves none missing. -/
theorem refill (h : RecvCounts r n) (hp : r.ctxRefillRecvs = .ok r' ∨ r.postQuorumRecvs = .ok r') :
    RecvCounts r' n ∧ r'.missing = 0 ∧ r'.recvWrNum = r.recvWrNum := by
  have hle := h.posted_le
  obtain ⟨h', hwr, hposted⟩ := h.post (by omega) (refill_eq_post hle h.wrNum_lt hp)
  refine ⟨h', ?_, hwr⟩
  unfold RecvQueue.missing
  omega

/-- **Arrival.** -/
theorem arrive {m : μ} (h : RecvCounts r n) (ha : r.arrive m = .ok r') :
    RecvCounts r' (n + 1) ∧ r'.missing = r.missing ∧ r'.recvWrNum = r.recvWrNum := by
  unfold RecvQueue.arrive at ha
  split at ha
  · nomatch ha
  · rename_i sl rq hrq
    cases ha
    have hposted := h.posted
    have hunpolled := h.unpolled
    rw [hrq, List.length_cons] at hposted
    refine ⟨⟨h.wrNum_lt, h.posted_le, ?_, ?_⟩, rfl, rfl⟩
    · show r.recvInfo.postedRecvs = n + 1 + rq.length
      omega
    · show n + 1 = r.completedButNotPolled + (r.cq + 1)
      omega

end RecvCounts

/-! ## Polling -/

/-- **The polling loop**, whatever the slots: what the handler keeps with each message it accepts
    holds of those that were accepted. -/
theorem pollLoop_rule {τ : Type} {recvHandler : τ → Nat → Option μ → Option τ}
    {P : Nat → τ → Prop} {total : Nat}
    (hstep : ∀ k t sl m t', k < total → P k t → recvHandler t sl m = some t' → P (k + 1) t') :
    ∀ (n i : Nat) (r : RecvQueue μ) (t : τ), i + n ≤ total → P i t →
      r.polledMessages + n < 2 ^ 32 →
      ∃ k t' pullPtr, k ≤ n ∧ P (i + k) t' ∧ RecvQueue.pollLoop recvHandler n r t =
        ({ r with pullPtr := pullPtr, polledMessages := r.polledMessages + k }, t')
  | 0, i, r, t, _, hP, _ => ⟨0, t, r.pullPtr, Nat.le_refl 0, hP, rfl⟩
  | n + 1, i, r, t, htotal, hP, hcnt => by
      unfold RecvQueue.pollLoop
      cases hans : recvHandler t r.pullPtr (r.buf r.pullPtr) with
      | none => exact ⟨0, t, r.pullPtr, Nat.zero_le _, hP, rfl⟩
      | some t₁ =>
        have hone : r.handled.polledMessages = r.polledMessages + 1 := u32_of_lt (by omega)
        obtain ⟨k, t', pullPtr, hk, hP', hloop⟩ := pollLoop_rule hstep n (i + 1) r.handled t₁
          (by omega) (hstep i t _ _ t₁ (by omega) hP hans) (by rw [hone]; omega)
        have hi : i + 1 + k = i + (k + 1) := by omega
        have hpolled : r.polledMessages + 1 + k = r.polledMessages + (k + 1) := by omega
        rw [hi] at hP'
        refine ⟨k + 1, t', pullPtr, by omega, hP', ?_⟩
        dsimp only
        rw [hloop, hone, hpolled]
        rfl

/-- **Polling** handles some messages, and counts them. -/
theorem RecvCounts.poll {r r' : RecvQueue μ} {n comps : Nat} {τ : Type}
    {recvHandler : τ → Nat → Option μ → Option τ} {t t' : τ} {P : Nat → τ → Prop}
    (h : RecvCounts r n) (h0 : P 0 t)
    (hstep : ∀ k t sl m t', k < n → P k t → recvHandler t sl m = some t' → P (k + 1) t')
    (hp : r.ctxPollIncomingMessages recvHandler comps t = .ok (r', t')) :
    ∃ k, k ≤ n ∧ P k t' ∧ RecvCounts r' (n - k) ∧ r'.missing = r.missing + k ∧
      r'.recvWrNum = r.recvWrNum := by
  have hposted := h.posted
  have hle := h.posted_le
  have hlt := h.wrNum_lt
  have hunpolled := h.unpolled
  obtain ⟨⟨r₁, completed⟩, hfind, hp⟩ := bind_eq_ok.mp hp
  unfold RecvQueue.findHowManyMessagesCanBePolled at hfind
  split at hfind
  · rename_i hcomps
    cases hfind
    dsimp only at hp
    split at hp
    · -- nothing to handle
      rename_i hzero
      cases hp
      refine ⟨0, Nat.zero_le n, h0, ⟨hlt, hle, hposted, ?_⟩, rfl, rfl⟩
      show n = 0 + (r.cq - comps)
      omega
    · obtain ⟨k, t₁, pullPtr, hk, hP, hloop⟩ := pollLoop_rule (P := P) hstep
        (comps + r.completedButNotPolled) 0
        { r with cq := r.cq - comps, completedButNotPolled := 0, polledMessages := 0 } t
        (by omega) h0 (by show 0 + _ < _; omega)
      rw [hloop] at hp
      have hleft : sub32 (comps + r.completedButNotPolled) (0 + k)
          = comps + r.completedButNotPolled - k := by
        rw [Nat.zero_add, sub32_of_le (by omega) hk]
      have hrecvs : sub32 r.recvInfo.postedRecvs (0 + k) = r.recvInfo.postedRecvs - k := by
        rw [Nat.zero_add, sub32_of_le (by omega) (by omega)]
      simp only [hleft, hrecvs] at hp
      cases hp
      rw [Nat.zero_add] at hP
      refine ⟨k, by omega, hP, ⟨hlt, ?_, ?_, ?_⟩, ?_, rfl⟩
      · show r.recvInfo.postedRecvs - k ≤ r.recvWrNum
        omega
      · show r.recvInfo.postedRecvs - k = n - k + r.rq.length
        omega
      · show n - k = comps + r.completedButNotPolled - k + (r.cq - comps)
        omega
      · show r.recvWrNum - (r.recvInfo.postedRecvs - k)
          = r.recvWrNum - r.recvInfo.postedRecvs + k
        omega
  · nomatch hfind

/-! ## Receives that can be read -/

/-- Where there are receives at all, the slots hold what arrived: `pending`, in order. -/
structure RecvHolds (r : RecvQueue μ) (pending : List μ) : Prop where
  counts : RecvCounts r pending.length
  ring : 0 < r.recvWrNum → RecvRing r pending

namespace RecvHolds

variable {r r' : RecvQueue μ} {pending : List μ}

theorem refill (h : RecvHolds r pending)
    (hp : r.ctxRefillRecvs = .ok r' ∨ r.postQuorumRecvs = .ok r') :
    RecvHolds r' pending ∧ r'.missing = 0 ∧ r'.recvWrNum = r.recvWrNum := by
  obtain ⟨hcounts, hmissing, hnum⟩ := h.counts.refill hp
  refine ⟨⟨hcounts, fun hpos => ?_⟩, hmissing, hnum⟩
  rw [hnum] at hpos
  exact ((h.ring hpos).refill hp).1

theorem arrive {m : μ} (h : RecvHolds r pending) (ha : r.arrive m = .ok r') :
    RecvHolds r' (pending ++ [m]) ∧ r'.missing = r.missing ∧ r'.recvWrNum = r.recvWrNum := by
  obtain ⟨hcounts, hmissing, hnum⟩ := h.counts.arrive ha
  refine ⟨⟨?_, fun hpos => ?_⟩, hmissing, hnum⟩
  · rw [List.length_append]
    exact hcounts
  · rw [hnum] at hpos
    exact ((h.ring hpos).arrive ha).1

/-- **Polling** handles the oldest, and the handler sees what arrived. -/
theorem poll {τ : Type} {recvHandler : τ → Nat → Option μ → Option τ} {comps : Nat} {t t' : τ}
    {P : Nat → τ → Prop} (h : RecvHolds r pending) (h0 : P 0 t)
    (hstep : ∀ k t sl t' (hk : k < pending.length), P k t →
      recvHandler t sl (some pending[k]) = some t' → P (k + 1) t')
    (hp : r.ctxPollIncomingMessages recvHandler comps t = .ok (r', t')) :
    ∃ k, k ≤ pending.length ∧ P k t' ∧ RecvHolds r' (pending.drop k) ∧
      r'.missing = r.missing + k ∧ r'.recvWrNum = r.recvWrNum := by
  by_cases hpos : 0 < r.recvWrNum
  · obtain ⟨k, hk, hacc, -, hring, hcount, -, hdims⟩ := (h.ring hpos).poll hp
    have hnum : r'.recvWrNum = r.recvWrNum := congrArg Prod.fst hdims
    have hle := h.counts.posted_le
    refine ⟨k, hk, hacc.rule h0 ?_, ⟨hring.counts, fun _ => hring⟩, ?_, hnum⟩
    · intro i t t' hi hP hans
      rw [(h.ring hpos).held i (Nat.lt_of_lt_of_le hi hk)] at hans
      exact hstep i t _ t' _ hP hans
    · unfold RecvQueue.missing
      omega
  · -- no receive, no message
    have hle := h.counts.posted_le
    have hposted := h.counts.posted
    obtain ⟨k, hk, hP, hcounts, hmissing, hnum⟩ := h.counts.poll h0
      (fun k t sl m t' hk => absurd hk (by omega)) hp
    refine ⟨k, hk, hP, ⟨?_, fun hpos' => ?_⟩, hmissing, hnum⟩
    · rw [List.length_drop]
      exact hcounts
    · rw [hnum] at hpos'
      exact absurd hpos' hpos

end RecvHolds

/-! ## The start -/

/-- After `ctx_prepost_recvs`. -/
theorem RecvCounts.prepost {wrNum slotNum : UInt32} {r : RecvQueue μ}
    (h : (ctxInitRecvInfo μ wrNum slotNum).ctxPrepostRecvs = .ok r) :
    RecvCounts r 0 ∧ r.missing = 0 ∧ r.recvWrNum = wrNum.toNat := by
  have hinit : RecvCounts (ctxInitRecvInfo μ wrNum slotNum) 0 :=
    ⟨prepost_wrNum_lt h, Nat.zero_le _, rfl, rfl⟩
  obtain ⟨hcounts, hwr, hposted⟩ := hinit.post
    (show 0 + wrNum.toNat ≤ wrNum.toNat by omega) h
  refine ⟨hcounts, ?_, hwr⟩
  have hzero : (ctxInitRecvInfo μ wrNum slotNum).recvInfo.postedRecvs = 0 := rfl
  have hnum : (ctxInitRecvInfo μ wrNum slotNum).recvWrNum = wrNum.toNat := rfl
  unfold RecvQueue.missing
  omega

theorem RecvHolds.prepost {wrNum slotNum : UInt32} {r : RecvQueue μ}
    (hle : wrNum.toNat ≤ slotNum.toNat)
    (h : (ctxInitRecvInfo μ wrNum slotNum).ctxPrepostRecvs = .ok r) :
    RecvHolds r [] ∧ r.missing = 0 ∧ r.recvWrNum = wrNum.toNat := by
  obtain ⟨hcounts, hmissing, hnum⟩ := RecvCounts.prepost h
  refine ⟨⟨hcounts, fun hpos => ?_⟩, hmissing, hnum⟩
  rw [hnum] at hpos
  exact (RecvRing.prepost (by omega) hle h).1

end Odyssey
