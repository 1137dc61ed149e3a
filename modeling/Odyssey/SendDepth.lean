/-
  HOW DEEP A SEND QUEUE HAS TO BE.

  The NIC gives the place of a work request back when the completion of it, or of a later signaled
  one, is polled.  `qp_meta_ss_batch_q_depth` computes with every how many messages one is
  signaled, and from that the depth of the queue.

  `SendAccount` keeps only what this depends on: `sent_tx`, the work requests that are forged or
  posted, and which of them are signaled.  `forgeBcast` and `forgeUnicast` are what
  `form_bcast_links` and `selective_signaling_for_unicast` do to them (`formBcastLinks_account`,
  `selectiveSignaling_account`).

  A unicast is one work request, and it is itself signaled.  So just before a poll, the places from
  the last polled message on are taken: twice the period, at most.  A broadcast is one work request
  for each machine, and the one that is signaled is the first of its whole batch, which may be three
  broadcasts earlier.  With two broadcasts less to the poll, that is `2 * ss_batch + 1` broadcasts
  but one work request, where the depth has room for `2 * ss_batch` and 10 work requests
  (`sendQueue_fits`): enough for up to 11 machines, and for 12 it is not (`sendQueue_overflows`).
-/
import Odyssey.UnicastLinks

namespace Odyssey

open Lib

/-! ## The code -/

/-- The depth of `qp_meta_ss_batch_q_depth`, in `uint32_t`. -/
def qpMetaSendQDepth (flowType : FlowType) (receipientNum sendWrNum : Nat) : Nat :=
  let ssBatch := qpMetaSsBatch flowType receipientNum sendWrNum
  match flowType with
  | .sendBcastLdrRecvUni | .sendBcastRecvUni | .sendBcastRecvBcast =>
      u32 (2 * ssBatch * receipientNum + 10)
  | .recvCredits => 0
  | _ => u32 (2 * ssBatch + 3)

/-- `ss_batch` is passed as an `int`, and `%` with `sent_tx` makes a `uint64_t` of it. -/
def passSsBatch (ssBatch : Nat) : Nat :=
  if ssBatch < 2 ^ 31 then ssBatch else 2 ^ 64 - 2 ^ 32 + ssBatch

/-- The work requests of a send queue: for each, whether it is signaled. -/
structure SendAccount where
  sentTx : Nat
  /-- forged, and not posted yet -/
  forged : List Bool
  /-- posted, and not reclaimed yet -/
  posted : List Bool

/-- A completion is polled: the places up to the first signaled work request are given back. -/
def reclaim : List Bool → Outcome (List Bool)
  | [] => .error .waiting
  | true :: l => .ok l
  | false :: l => reclaim l

/-- The first work request of the batch is flagged. -/
def flagFirst : List Bool → List Bool
  | [] => []
  | _ :: l => true :: l

namespace SendAccount

variable (a : SendAccount)

/-- `form_bcast_links`, for a broadcast to some machines -/
def forgeBcast (ssBatch machines : Nat) : Outcome SendAccount := do
  let forged := a.forged ++ List.replicate machines false
  let forged := if a.sentTx % ssBatch = 0 then flagFirst forged else forged
  let sentTx := u64 (a.sentTx + 1)
  let posted ← (if sentTx % ssBatch = ssBatch - 1 then reclaim a.posted else pure a.posted)
  return ⟨sentTx, forged, posted⟩

/-- `selective_signaling_for_unicast` -/
def forgeUnicast (ssBatch : Nat) : Outcome SendAccount := do
  let forged := a.forged ++ [a.sentTx % ssBatch == 0]
  let posted ← (if a.sentTx % ssBatch = ssBatch - 1 then reclaim a.posted else pure a.posted)
  return ⟨u64 (a.sentTx + 1), forged, posted⟩

/-- `ibv_post_send`, for all that is forged -/
def post : SendAccount := ⟨a.sentTx, [], a.posted ++ a.forged⟩

def start : SendAccount := ⟨0, [], []⟩

end SendAccount

/-- What can be sent next. -/
inductive BatchCmd
  /-- a batch of `ctx_send_broadcasts`: to how many machines each of its broadcasts goes -/
  | broadcasts (machines : List Nat)
  /-- a call of `ctx_send_unicasts` or `od_send_acks`, for so many messages -/
  | unicasts (num : Nat)

/-- A step, which shows the number of its messages. -/
def accountStep (flowType : FlowType) (receipientNum sendWrNum : Nat) (a : SendAccount) :
    BatchCmd → Outcome (SendAccount × Nat)
  | .broadcasts machines =>
    if flowType.isBroadcast = true ∧ 1 ≤ machines.length ∧ machines.length ≤ maxBcastBatch ∧
        ∀ m ∈ machines, 1 ≤ m ∧ m ≤ receipientNum then do
      let ssBatch := passSsBatch (qpMetaSsBatch flowType receipientNum sendWrNum)
      let a ← machines.foldlM (fun a m => a.forgeBcast ssBatch m) a
      return (a.post, machines.length)
    else .error .disabled
  | .unicasts num =>
    if (flowType.isBroadcast = false ∧ flowType ≠ .recvCredits) ∧ 1 ≤ num ∧ num ≤ sendWrNum then do
      let ssBatch := passSsBatch (qpMetaSsBatch flowType receipientNum sendWrNum)
      let a ← (List.range num).foldlM (fun a _ => a.forgeUnicast ssBatch) a
      return (a.post, num)
    else .error .disabled

/-- The messages of a history. -/
def messages (tr : List (BatchCmd × Nat)) : Nat := (tr.map (·.2)).sum

/-! ## Where the signals are -/

/-- No work request is signaled. -/
def Unsignaled (l : List Bool) : Prop := true ∉ l

/-- One work request is signaled, and at most `n` places are taken from it on. -/
def SignaledNear (n : Nat) (l : List Bool) : Prop :=
  ∃ before after, l = before ++ true :: after ∧ Unsignaled before ∧ Unsignaled after ∧
    after.length + 1 ≤ n

theorem unsignaled_append {l l' : List Bool} :
    Unsignaled (l ++ l') ↔ Unsignaled l ∧ Unsignaled l' := by
  unfold Unsignaled
  rw [List.mem_append, not_or]

theorem unsignaled_replicate (n : Nat) : Unsignaled (List.replicate n false) := by
  intro h
  exact absurd (List.eq_of_mem_replicate h) (by decide)

theorem SignaledNear.after {n : Nat} {l l' : List Bool} (h : SignaledNear n l)
    (hl' : Unsignaled l') : SignaledNear (n + l'.length) (l ++ l') := by
  obtain ⟨before, after, rfl, hb, ha, hlen⟩ := h
  refine ⟨before, after ++ l', by simp, hb, unsignaled_append.mpr ⟨ha, hl'⟩, ?_⟩
  rw [List.length_append]
  omega

theorem SignaledNear.before {n : Nat} {l l' : List Bool} (h : SignaledNear n l)
    (hl' : Unsignaled l') : SignaledNear n (l' ++ l) := by
  obtain ⟨before, after, rfl, hb, ha, hlen⟩ := h
  exact ⟨l' ++ before, after, by simp, unsignaled_append.mpr ⟨hl', hb⟩, ha, hlen⟩

theorem SignaledNear.mono {m n : Nat} {l : List Bool} (h : SignaledNear m l) (hle : m ≤ n) :
    SignaledNear n l := by
  obtain ⟨before, after, heq, hb, ha, hlen⟩ := h
  exact ⟨before, after, heq, hb, ha, Nat.le_trans hlen hle⟩

/-- Without a signal, a poll waits for ever. -/
theorem reclaim_unsignaled {l : List Bool} (h : Unsignaled l) : reclaim l = .error .waiting := by
  induction l with
  | nil => rfl
  | cons b l ih =>
    cases b with
    | true => exact absurd List.mem_cons_self h
    | false => exact ih fun hmem => h (List.mem_cons_of_mem _ hmem)

/-- A poll leaves what comes after the signal. -/
theorem reclaim_signaled {n : Nat} {l l' : List Bool} (h : SignaledNear n l)
    (hr : reclaim l = .ok l') : Unsignaled l' ∧ l'.length + 1 ≤ n := by
  obtain ⟨before, after, rfl, hb, ha, hlen⟩ := h
  induction before with
  | nil =>
    cases hr
    exact ⟨ha, hlen⟩
  | cons b before ih =>
    cases b with
    | true => exact absurd List.mem_cons_self hb
    | false => exact ih hr fun hmem => hb (List.mem_cons_of_mem _ hmem)

/-! ## The pace -/

/-- A queue that has posted `B` messages and forged `T`, the next poll being for the signal of
    message `sig`.  A message is up to `R` work requests; message `t` is signaled when `t` is a
    multiple of `ss`, at a work request up to `slack` messages earlier, and is polled for at
    message `t + w`. -/
structure Accounted (R slack ss w B T sig : Nat) (a : SendAccount) : Prop where
  tx : a.sentTx = u64 T
  le : B ≤ T
  period : sig % ss = 0
  window : T ≤ sig + w
  past : sig + w < T + ss
  polled : sig < B + ss
  posted : sig < B → SignaledNear (R * (B + slack - sig)) a.posted
  unposted : B ≤ sig → Unsignaled a.posted
  total : if sig = 0 then a.posted.length ≤ R * B
    else a.posted.length + 1 ≤ R * (B + slack + ss - sig)
  forged : B ≤ sig → sig < T → SignaledNear (R * (T + slack - sig)) a.forged
  unforged : sig < B ∨ T ≤ sig → Unsignaled a.forged
  forged_le : a.forged.length ≤ R * (T - B)

namespace Accounted

variable {R slack ss w B T sig : Nat} {a a' : SendAccount}

theorem start (hw : w < ss) : Accounted R slack ss w 0 0 0 .start := by
  constructor
  case posted => exact fun h => absurd h (Nat.lt_irrefl 0)
  case unposted => exact fun _ h => nomatch h
  case forged => exact fun _ h => absurd h (Nat.lt_irrefl 0)
  case unforged => exact fun _ h => nomatch h
  case past => omega
  case polled => omega
  all_goals simp [SendAccount.start, u64]

/-- Which message is flagged, and which one polls. -/
theorem phase (h : Accounted R slack ss w B T sig a) (hw : w < ss) :
    (T % ss = 0 ↔ T = sig) ∧ (T % ss = w ↔ T = sig + w) := by
  have hpast := h.past
  have hwindow := h.window
  obtain ⟨q, hq⟩ : ∃ q, sig = ss * q := ⟨sig / ss, by
    have hdiv := Nat.div_add_mod sig ss
    rw [h.period] at hdiv
    omega⟩
  -- where T is in the period of sig, or in the one before
  by_cases hge : sig ≤ T
  · obtain ⟨d, rfl⟩ := Nat.exists_eq_add_of_le hge
    have hmod : (sig + d) % ss = d := by
      rw [hq, Nat.mul_add_mod, Nat.mod_eq_of_lt (by omega)]
    rw [hmod]
    omega
  · obtain ⟨d, hd⟩ : ∃ d, T + ss = sig + d := ⟨T + ss - sig, by omega⟩
    have hmod : T % ss = d := by
      rw [← Nat.add_mod_right, hd, hq, Nat.mul_add_mod, Nat.mod_eq_of_lt (by omega)]
    rw [hmod]
    omega

/-- **Posting**: what was forged is behind what was posted. -/
theorem post (h : Accounted R slack ss w B T sig a) :
    Accounted R slack ss w T T sig a.post := by
  have hle := h.le
  have hpolled := h.polled
  have hsum : R * (T - B) + R * B = R * T := by
    rw [← Nat.mul_add, Nat.sub_add_cancel hle]
  refine ⟨h.tx, Nat.le_refl T, h.period, h.window, h.past, by omega, fun hlt => ?_, fun hge => ?_,
    ?_, fun h₁ h₂ => by omega, fun _ hmem => (nomatch hmem), Nat.zero_le _⟩
  · by_cases hB : sig < B
    · refine ((h.posted hB).after (h.unforged (Or.inl hB))).mono ?_
      have hsplit : T + slack - sig = B + slack - sig + (T - B) := by omega
      rw [hsplit, Nat.mul_add]
      exact Nat.add_le_add_left h.forged_le _
    · exact (h.forged (Nat.le_of_not_lt hB) hlt).before (h.unposted (Nat.le_of_not_lt hB))
  · exact unsignaled_append.mpr ⟨h.unposted (by omega), h.unforged (Or.inr hge)⟩
  · have htotal := h.total
    have hforged := h.forged_le
    show if sig = 0 then (a.posted ++ a.forged).length ≤ R * T
      else (a.posted ++ a.forged).length + 1 ≤ R * (T + slack + ss - sig)
    rw [List.length_append]
    by_cases hzero : sig = 0
    · rw [if_pos hzero] at htotal ⊢
      omega
    · rw [if_neg hzero] at htotal ⊢
      have hsplit : T + slack + ss - sig = B + slack + ss - sig + (T - B) := by omega
      rw [hsplit, Nat.mul_add]
      omega

/-- **Forging** one more message, whose work requests are `new`; the poll comes last. -/
theorem forge (h : Accounted R slack ss w B T sig a) (hw : w < ss) {forged : List Bool}
    (hlen : forged.length ≤ R * (T + 1 - B))
    (hsig : B ≤ sig → sig < T + 1 → SignaledNear (R * (T + 1 + slack - sig)) forged)
    (hno : sig < B ∨ T < sig → Unsignaled forged) {posted : List Bool}
    (hpoll : (if T = sig + w then reclaim a.posted else pure a.posted) = .ok posted) :
    ∃ sig', Accounted R slack ss w B (T + 1) sig' ⟨u64 (T + 1), forged, posted⟩ := by
  have hle := h.le
  have hwindow := h.window
  have hpast := h.past
  have hpolled := h.polled
  by_cases hT : T = sig + w
  · rw [if_pos hT] at hpoll
    -- the signal that is polled for was posted, else the poll would wait
    have hB : sig < B := by
      by_contra hB
      rw [reclaim_unsignaled (h.unposted (Nat.le_of_not_lt hB))] at hpoll
      nomatch hpoll
    obtain ⟨hclean, hshort⟩ := reclaim_signaled (h.posted hB) hpoll
    refine ⟨sig + ss, rfl, by omega, ?_, by omega, by omega, by omega, fun _ => by omega,
      fun _ => hclean, ?_, fun _ _ => by omega, fun _ => hno (Or.inl hB), hlen⟩
    · rw [Nat.add_mod_right]
      exact h.period
    · rw [if_neg (by omega)]
      have hsame : B + slack + ss - (sig + ss) = B + slack - sig := by omega
      rw [hsame]
      exact hshort
  · rw [if_neg hT] at hpoll
    cases hpoll
    refine ⟨sig, rfl, by omega, h.period, by omega, by omega, hpolled, h.posted, h.unposted,
      h.total, hsig, fun hc => hno (by omega), hlen⟩

/-- Flagging the first of some work requests. -/
theorem flagFirst_near {n : Nat} {l : List Bool} (h : Unsignaled l) (hpos : 0 < l.length)
    (hle : l.length ≤ n) : SignaledNear n (flagFirst l) := by
  cases l with
  | nil => nomatch hpos
  | cons b l =>
    exact ⟨[], l, rfl, fun hmem => (nomatch hmem), fun hmem => h (List.mem_cons_of_mem _ hmem), hle⟩

theorem length_flagFirst (l : List Bool) : (flagFirst l).length = l.length := by
  cases l <;> rfl

/-- **Forging a broadcast.** -/
theorem forgeBcast {m : Nat} (h : Accounted R 3 ss (ss - 2) B T sig a) (hss : 2 ≤ ss)
    (hT : T + 1 < 2 ^ 64) (hB : T < B + 4) (hpos : 1 ≤ m) (hm : m ≤ R)
    (hforge : a.forgeBcast ss m = .ok a') :
    ∃ sig', Accounted R 3 ss (ss - 2) B (T + 1) sig' a' := by
  obtain ⟨hflag, hpolls⟩ := h.phase (by omega)
  have htx : a.sentTx = T := by rw [h.tx, u64_of_lt (by omega)]
  have hle := h.le
  -- the counter is tested after it was incremented
  have hpoll : u64 (a.sentTx + 1) % ss = ss - 1 ↔ T = sig + (ss - 2) := by
    have hlt := Nat.mod_lt T (by omega : 0 < ss)
    rw [htx, mod_incr ss (by omega) (by omega), ← hpolls]
    split <;> omega
  obtain ⟨posted, hreclaim, hforge⟩ := bind_eq_ok.mp hforge
  cases hforge
  rw [htx]
  have hsucc : R * (T + 1 - B) = R * (T - B) + R := by
    rw [Nat.succ_sub hle, Nat.mul_succ]
  have hforged := h.forged_le
  have hall : (a.forged ++ List.replicate m false).length ≤ R * (T + 1 - B) := by
    rw [List.length_append, List.length_replicate, hsucc]
    omega
  simp only [hpoll] at hreclaim
  refine h.forge (by omega) ?_ ?_ ?_ hreclaim
  · split
    · rw [length_flagFirst]
      exact hall
    · exact hall
  · intro hge hlt
    simp only [hflag]
    by_cases hself : T = sig
    · rw [if_pos hself]
      refine flagFirst_near (unsignaled_append.mpr
        ⟨h.unforged (Or.inr (by omega)), unsignaled_replicate m⟩) ?_ ?_
      · rw [List.length_append, List.length_replicate]
        omega
      · exact Nat.le_trans hall (Nat.mul_le_mul_left R (by omega))
    · rw [if_neg hself]
      refine ((h.forged hge (by omega)).after (unsignaled_replicate m)).mono ?_
      have hsplit : T + 1 + 3 - sig = T + 3 - sig + 1 := by omega
      rw [List.length_replicate, hsplit, Nat.mul_succ]
      omega
  · intro hno
    simp only [hflag]
    have hne : T ≠ sig := by omega
    rw [if_neg hne]
    exact unsignaled_append.mpr ⟨h.unforged (by omega), unsignaled_replicate m⟩

/-- **Forging a unicast.** -/
theorem forgeUnicast (h : Accounted 1 0 ss (ss - 1) B T sig a) (hss : 1 ≤ ss) (hT : T < 2 ^ 64)
    (hforge : a.forgeUnicast ss = .ok a') :
    ∃ sig', Accounted 1 0 ss (ss - 1) B (T + 1) sig' a' := by
  obtain ⟨hflag, hpolls⟩ := h.phase (by omega)
  have htx : a.sentTx = T := by rw [h.tx, u64_of_lt hT]
  have hle := h.le
  obtain ⟨posted, hreclaim, hforge⟩ := bind_eq_ok.mp hforge
  cases hforge
  rw [htx] at hreclaim ⊢
  simp only [hpolls] at hreclaim
  have hbit : (T % ss == 0) = decide (T = sig) := by
    rw [Bool.eq_iff_iff, beq_iff_eq, decide_eq_true_eq]
    exact hflag
  rw [hbit]
  have hforged := h.forged_le
  refine h.forge (by omega) ?_ ?_ ?_ hreclaim
  · rw [List.length_append, List.length_singleton]
    omega
  · intro hge hlt
    by_cases hself : T = sig
    · rw [decide_eq_true hself]
      refine ⟨a.forged, [], rfl, h.unforged (Or.inr (by omega)), fun hmem => (nomatch hmem), ?_⟩
      rw [List.length_nil]
      omega
    · rw [decide_eq_false hself]
      have hlast : Unsignaled [false] := unsignaled_replicate 1
      refine ((h.forged hge (by omega)).after hlast).mono ?_
      rw [List.length_singleton]
      omega
  · intro hno
    have hne : T ≠ sig := by omega
    rw [decide_eq_false hne]
    exact unsignaled_append.mpr ⟨h.unforged (by omega), unsignaled_replicate 1⟩

/-- **A batch of broadcasts.** -/
theorem broadcasts (hss : 2 ≤ ss) : ∀ (machines : List Nat) {a a' : SendAccount} {T sig : Nat},
    Accounted R 3 ss (ss - 2) B T sig a → T + machines.length < 2 ^ 64 →
    T + machines.length ≤ B + 4 → (∀ m ∈ machines, 1 ≤ m ∧ m ≤ R) →
    machines.foldlM (fun a m => a.forgeBcast ss m) a = .ok a' →
    ∃ sig', Accounted R 3 ss (ss - 2) B (T + machines.length) sig' a'
  | [], a, a', T, sig, h, _, _, _, hfold => by
      cases hfold
      exact ⟨sig, h⟩
  | m :: machines, a, a', T, sig, h, hT, hB, hall, hfold => by
      rw [List.length_cons] at hT hB ⊢
      obtain ⟨a₁, hforge, hfold⟩ := bind_eq_ok.mp hfold
      obtain ⟨hpos, hm⟩ := hall m List.mem_cons_self
      obtain ⟨sig₁, h₁⟩ := h.forgeBcast hss (by omega) (by omega) hpos hm hforge
      obtain ⟨sig₂, h₂⟩ := broadcasts hss machines h₁ (by omega) (by omega)
        (fun m hm => hall m (List.mem_cons_of_mem _ hm)) hfold
      refine ⟨sig₂, ?_⟩
      have hsum : T + (machines.length + 1) = T + 1 + machines.length := by omega
      rw [hsum]
      exact h₂

/-- **A call that sends unicasts.** -/
theorem unicasts {num : Nat} (h : Accounted 1 0 ss (ss - 1) T T sig a) (hss : 1 ≤ ss)
    (hT : T + num < 2 ^ 64)
    (hfold : (List.range num).foldlM (fun a _ => a.forgeUnicast ss) a = .ok a') :
    ∃ sig', Accounted 1 0 ss (ss - 1) T (T + num) sig' a' := by
  refine foldlM_range_rule (P := fun i a' => ∃ sig', Accounted 1 0 ss (ss - 1) T (T + i) sig' a')
    num ⟨sig, h⟩ ?_ hfold
  rintro i a₁ a₂ hi ⟨sig₁, h₁⟩ hforge
  exact h₁.forgeUnicast hss (by omega) hforge

/-- What is posted and not reclaimed, at the end of a batch. -/
theorem posted_le (h : Accounted R slack ss w B B sig a) (hR : 1 ≤ R) (hss : 1 ≤ ss) :
    a.posted.length + 1 ≤ R * (ss + w + slack) := by
  have htotal := h.total
  have hwindow := h.window
  by_cases hzero : sig = 0
  · rw [if_pos hzero] at htotal
    have hle : R * B + R * 1 ≤ R * (ss + w + slack) := by
      rw [← Nat.mul_add]
      exact Nat.mul_le_mul_left R (by omega)
    omega
  · rw [if_neg hzero] at htotal
    exact Nat.le_trans htotal (Nat.mul_le_mul_left R (by omega))

end Accounted

/-! ## The send queue of the code -/

/-- What an event of the log does to the work requests in the queue: a chain is put in as it is
    posted, and a poll gives places back. -/
def queueEvent (l : List Bool) : SendEvent → Outcome (List Bool)
  | .flagged => .ok l
  | .polled => reclaim l
  | .posted _ chain => .ok (l ++ chain.map (·.signaled))

/-- The work requests that are posted and not reclaimed, after a log. -/
def unreclaimed (log : List SendEvent) : Outcome (List Bool) := log.foldlM queueEvent []

/-- `a` is the account of a send queue, where the work requests `l` are forged. -/
structure AccountOf (s : SendQueue) (l : List Nat) (a : SendAccount) : Prop where
  tx : a.sentTx = s.sentTx
  forged : a.forged = l.map fun i => (s.sendWr i).signaled
  posted : unreclaimed s.log = .ok a.posted

theorem reclaim_count : ∀ {l l' : List Bool}, reclaim l = .ok l' → l.count true = l'.count true + 1
  | true :: l, l', h => by
      cases h
      exact List.count_cons_self
  | false :: l, l', h => by
      rw [List.count_cons_of_ne (by decide)]
      exact reclaim_count (l := l) h

theorem reclaim_ready : ∀ {l : List Bool}, 0 < l.count true → ∃ l', reclaim l = .ok l'
  | true :: l, _ => ⟨l, rfl⟩
  | false :: l, h => by
      rw [List.count_cons_of_ne (by decide)] at h
      exact reclaim_ready (l := l) h

theorem unreclaimed_concat {log : List SendEvent} {l : List Bool} (h : unreclaimed log = .ok l)
    (e : SendEvent) : unreclaimed (log ++ [e]) = queueEvent l e := by
  unfold unreclaimed at h ⊢
  rw [List.foldlM_append, h]
  show (queueEvent l e >>= pure) = queueEvent l e
  rw [bind_pure]

/-- The signaled work requests in the queue are the completions to poll. -/
theorem unreclaimed_count (log : List SendEvent) :
    ∀ {l : List Bool}, unreclaimed log = .ok l → polls log + l.count true = completions log := by
  induction log using List.reverseRecOn with
  | nil =>
    intro l h
    cases h
    rfl
  | append_singleton log e ih =>
    intro l h
    obtain ⟨l₁, h₁⟩ : ∃ l₁, unreclaimed log = .ok l₁ := by
      unfold unreclaimed at h ⊢
      rw [List.foldlM_append] at h
      obtain ⟨l₁, h₁, -⟩ := bind_eq_ok.mp h
      exact ⟨l₁, h₁⟩
    have hcount := ih h₁
    rw [unreclaimed_concat h₁] at h
    cases e with
    | flagged =>
      cases h
      obtain ⟨-, hpolls, hcomps, -⟩ := counts_flagged log
      omega
    | polled =>
      have hone := reclaim_count h
      obtain ⟨-, hpolls, hcomps, -⟩ := counts_polled log
      omega
    | posted num chain =>
      cases h
      obtain ⟨-, hpolls, hcomps, -⟩ := counts_posted log num chain
      have hsignals : (chain.map (·.signaled)).count true = signals chain := by
        rw [List.count, List.countP_map]
        exact List.countP_congr fun p _ => by simp
      rw [List.count_append, hsignals]
      omega

namespace AccountOf

variable {s s' : SendQueue} {l : List Nat} {a : SendAccount} {ssBatch : Nat}

/-- Flagging is no event for the queue, and a poll that finds a completion gives places back. -/
theorem polled (h : AccountOf s l a) {flag poll : Prop} [Decidable flag] [Decidable poll]
    (hready : poll → polls s.log < completions s.log)
    (hlog : s'.log = s.log ++ (if flag then [.flagged] else []) ++ (if poll then [.polled] else [])) :
    ∃ posted, (if poll then reclaim a.posted else pure a.posted) = .ok posted ∧
      unreclaimed s'.log = .ok posted := by
  have hflag : unreclaimed (s.log ++ (if flag then [.flagged] else [])) = .ok a.posted := by
    split
    · exact unreclaimed_concat h.posted .flagged
    · rw [List.append_nil]
      exact h.posted
  rw [hlog]
  by_cases hpoll : poll
  · rw [if_pos hpoll, if_pos hpoll, unreclaimed_concat hflag]
    have hcount := unreclaimed_count _ h.posted
    have hlt := hready hpoll
    obtain ⟨posted, hreclaim⟩ := reclaim_ready (l := a.posted) (by omega)
    exact ⟨posted, hreclaim, hreclaim⟩
  · rw [if_neg hpoll, if_neg hpoll, List.append_nil]
    exact ⟨a.posted, rfl, hflag⟩

/-- **Posting** what is forged. -/
theorem post {s₁ : SendQueue} {num : Nat} (h : AccountOf s l a) (hrel : Relinks s s₁)
    (htx : s'.sentTx = s.sentTx) (hlog : s'.log = s.log ++ [.posted num (l.map s₁.posted)]) :
    AccountOf s' [] a.post := by
  refine ⟨h.tx.trans htx.symm, rfl, ?_⟩
  rw [hlog, unreclaimed_concat h.posted]
  show Except.ok (a.posted ++ (l.map s₁.posted).map (·.signaled)) = .ok (a.posted ++ a.forged)
  rw [h.forged, List.map_map]
  have hsame : (l.map ((·.signaled) ∘ s₁.posted)) = l.map fun i => (s.sendWr i).signaled :=
    List.map_congr_left fun i _ => hrel.signaled i
  rw [hsame]

end AccountOf

/-- Flagging the first of some work requests, by its index. -/
theorem map_flagFirst {x : Nat} {l : List Nat} (hnodup : (x :: l).Nodup) (f : Nat → Bool) :
    ((x :: l).map fun i => f i || i == x) = flagFirst ((x :: l).map f) := by
  show (f x || x == x) :: (l.map fun i => f i || i == x) = true :: l.map f
  rw [beq_self_eq_true, Bool.or_true]
  congr 1
  refine List.map_congr_left fun i hi => ?_
  have hne : i ≠ x := by
    rintro rfl
    exact (List.nodup_cons.mp hnodup).1 hi
  rw [beq_eq_false_iff_ne.mpr hne, Bool.or_false]

/-- **`form_bcast_links`** forges a broadcast to the active machines. -/
theorem formBcastLinks_account {cl : Cluster} {q : QuorumInfo} {n ssBatch : Nat} {flagged : Bool}
    {sge : Sge} {s s' : SendQueue} {a : SendAccount} (bd : Bounded cl q)
    (b : Building cl q n flagged s) (hn : n < maxBcastBatch) (hnew : n = 0 → flagged = false)
    (h : AccountOf s (batch cl q n) a) (hf : Formed cl q ssBatch n (s.setSge n sge) s') :
    ∃ a', a.forgeBcast ssBatch (q.activeRmIds cl).length = .ok a' ∧
      AccountOf s' (batch cl q (n + 1)) a' := by
  have htx : (s.setSge n sge).sentTx = a.sentTx := h.tx.symm
  have hsettx := hf.tx
  have hlog := hf.log
  have hready := hf.poll
  rw [htx] at hsettx hlog hready
  obtain ⟨posted, hreclaim, hposted⟩ := h.polled hready hlog
  refine ⟨⟨u64 (a.sentTx + 1), if a.sentTx % ssBatch = 0 then
    flagFirst (a.forged ++ List.replicate (q.activeRmIds cl).length false)
    else a.forged ++ List.replicate (q.activeRmIds cl).length false, posted⟩, ?_, hsettx.symm, ?_,
    hposted⟩
  · exact bind_eq_ok.mpr ⟨posted, hreclaim, rfl⟩
  · have hbatch : batch cl q (n + 1) = batch cl q n ++ block cl (q.activeRmIds cl) n := by
      rw [batch, List.range_succ, List.flatMap_append, List.flatMap_singleton]
      rfl
    -- the work requests of the new broadcast are not signaled yet
    have hblock : (block cl (q.activeRmIds cl) n).map (fun i => (s.sendWr i).signaled)
        = List.replicate (q.activeRmIds cl).length false := by
      rw [block, List.map_map, List.map_eq_replicate_iff]
      intro rm hrm
      have hlt : rm < cl.remMachNum := (QuorumInfo.mem_activeRmIds.mp hrm).1
      show (s.sendWr (cl.remMachNum * n + rm)).signaled = false
      rw [b.signaled n hn rm hlt]
      rcases Nat.eq_zero_or_pos n with hzero | hpos
      · rw [hnew hzero, Bool.false_and]
      · have hne : cl.remMachNum * n + rm ≠ q.firstActiveRmId := by
          have hle : cl.remMachNum * 1 ≤ cl.remMachNum * n := Nat.mul_le_mul_left _ hpos
          have hfirst := bd.first_lt
          omega
        rw [beq_eq_false_iff_ne.mpr hne, Bool.and_false]
    have hold : (batch cl q (n + 1)).map (fun i => (s.sendWr i).signaled)
        = a.forged ++ List.replicate (q.activeRmIds cl).length false := by
      rw [hbatch, List.map_append, hblock, h.forged]
    have hfirst : SendQueue.getFirstMesOfBcast q = q.firstActiveRmId := rfl
    show (if a.sentTx % ssBatch = 0 then _ else _) = _
    rw [← hold]
    by_cases hflag : a.sentTx % ssBatch = 0
    · rw [if_pos hflag]
      obtain ⟨x, l, hxl⟩ := List.exists_cons_of_ne_nil (bd.block_ne 0)
      have hx : x = q.firstActiveRmId := by
        have hhead := bd.head_block (j := 0) (x := x) (by rw [hxl]; rfl)
        omega
      obtain ⟨l', hl'⟩ : ∃ l', batch cl q (n + 1) = q.firstActiveRmId :: l' := by
        refine ⟨l ++ ((List.range n).map Nat.succ).flatMap (block cl (q.activeRmIds cl)), ?_⟩
        rw [batch, List.range_succ_eq_map, List.flatMap_cons, hxl, hx]
        rfl
      have hnodup : (batch cl q (n + 1)).Nodup := batch_nodup q (n + 1)
      rw [hl'] at hnodup ⊢
      rw [← map_flagFirst hnodup]
      refine List.map_congr_left fun i _ => ?_
      rw [hf.signaled, htx, hfirst, beq_iff_eq.mpr hflag, Bool.true_and]
      rfl
    · rw [if_neg hflag]
      refine List.map_congr_left fun i _ => ?_
      rw [hf.signaled, htx, beq_eq_false_iff_ne.mpr hflag, Bool.false_and, Bool.or_false]
      rfl

/-- **`post_quorum_broadasts_and_recvs`** posts the batch. -/
theorem postQuorumBroadcasts_account {cl : Cluster} {q : QuorumInfo} {n sendWrNum : Nat}
    {flagged inl : Bool} {s s' : SendQueue} {a : SendAccount} (bd : Bounded cl q)
    (b : Building cl q n flagged s) (hpos : 0 < n) (hn : n ≤ maxBcastBatch)
    (hroom : 4 * cl.remMachNum ≤ sendWrNum) (h : AccountOf s (batch cl q n) a)
    (hpost : s.postQuorumBroadcasts cl q sendWrNum n inl = .ok s') : AccountOf s' [] a.post := by
  have hlast : SendQueue.getLastMessageOfBcast cl q n
      = cl.remMachNum * (n - 1) + q.lastActiveRmId := by
    rw [Nat.mul_comm]
    rfl
  have hlen : (batch cl q n).length ≤ sendWrNum := by
    have hle : (batch cl q n).length ≤ n * cl.remMachNum := length_batch_le q n
    have hmul : n * cl.remMachNum ≤ 4 * cl.remMachNum := Nat.mul_le_mul_right _ hn
    omega
  have hwalk := follow_of_follows (b.follows bd hpos hn) hlen
  unfold SendQueue.postQuorumBroadcasts SendQueue.ibvPostSend at hpost
  rw [hlast, show SendQueue.getFirstMesOfBcast q = q.firstActiveRmId from rfl] at hpost
  dsimp only at hpost
  rw [hwalk] at hpost
  cases hpost
  exact h.post (Relinks.setNext s (cl.remMachNum * (n - 1) + q.lastActiveRmId) none) rfl rfl

/-- **`selective_signaling_for_unicast`** forges a unicast. -/
theorem selectiveSignaling_account {ssBatch i : Nat} {inl : Bool} {s s' : SendQueue} {l : List Nat}
    {a : SendAccount} (hnew : i ∉ l) (h : AccountOf s l a)
    (hready : s.sentTx % ssBatch = ssBatch - 1 → polls s.log < completions s.log)
    (hs : Signaled ssBatch i inl s s') :
    ∃ a', a.forgeUnicast ssBatch = .ok a' ∧ AccountOf s' (l ++ [i]) a' := by
  obtain ⟨posted, hreclaim, hposted⟩ := h.polled hready hs.log
  rw [← h.tx] at hreclaim
  refine ⟨⟨u64 (a.sentTx + 1), a.forged ++ [a.sentTx % ssBatch == 0], posted⟩, ?_, ?_, ?_, hposted⟩
  · exact bind_eq_ok.mpr ⟨posted, hreclaim, rfl⟩
  · rw [hs.tx, h.tx]
  · have hold : (l.map fun b => (s'.sendWr b).signaled) = l.map fun b => (s.sendWr b).signaled := by
      refine List.map_congr_left fun b hb => ?_
      rw [hs.wr, Function.update_of_ne]
      rintro rfl
      exact hnew hb
    rw [List.map_append, hold, ← h.forged, List.map_singleton, hs.wr, Function.update_self, h.tx]

/-- **`ibv_post_send`** posts the messages of a call. -/
theorem ibvPostSend_account {sendWrNum num first last : Nat} {flagged : Bool} {l : List Nat}
    {s s' : SendQueue} {a : SendAccount} (hc : Chained sendWrNum l flagged s)
    (hfirst : first ∈ l.head?) (hlast : last ∈ l.getLast?) (h : AccountOf s l a)
    (hpost : (s.setNext last none).ibvPostSend sendWrNum num first = .ok s') :
    AccountOf s' [] a.post := by
  obtain ⟨t, chain, ht, rfl, -, -, -, htx, hlog⟩ := hc.post hfirst hlast num
  rw [ht] at hpost
  cases hpost
  exact h.post (Relinks.setNext s last none) htx hlog

/-! ## Runs -/

variable {flowType : FlowType} {receipientNum sendWrNum : Nat}

theorem messages_concat (tr : List (BatchCmd × Nat)) (cmd : BatchCmd) (n : Nat) :
    messages (tr ++ [(cmd, n)]) = messages tr + n := by
  simp [messages]

/-- What a step shows is its number of messages. -/
theorem accountStep_cases {a a' : SendAccount} {cmd : BatchCmd} {n : Nat}
    (h : accountStep flowType receipientNum sendWrNum a cmd = .ok (a', n)) :
    (∃ machines a₁, cmd = .broadcasts machines ∧ flowType.isBroadcast = true ∧
      n = machines.length ∧ n ≤ maxBcastBatch ∧ (∀ m ∈ machines, 1 ≤ m ∧ m ≤ receipientNum) ∧
      machines.foldlM (fun a m => a.forgeBcast
        (passSsBatch (qpMetaSsBatch flowType receipientNum sendWrNum)) m) a = .ok a₁ ∧
      a' = a₁.post) ∨
    (∃ a₁, cmd = .unicasts n ∧ flowType.isBroadcast = false ∧ flowType ≠ .recvCredits ∧
      (List.range n).foldlM (fun a _ => a.forgeUnicast
        (passSsBatch (qpMetaSsBatch flowType receipientNum sendWrNum))) a = .ok a₁ ∧
      a' = a₁.post) := by
  cases cmd with
  | broadcasts machines =>
    simp only [accountStep] at h
    split at h
    · rename_i hguard
      obtain ⟨hb, -, hlen, hall⟩ := hguard
      obtain ⟨a₁, hfold, h⟩ := bind_eq_ok.mp h
      cases h
      exact Or.inl ⟨machines, a₁, rfl, hb, rfl, hlen, hall, hfold, rfl⟩
    · nomatch h
  | unicasts num =>
    simp only [accountStep] at h
    split at h
    · rename_i hguard
      obtain ⟨⟨hb, hne⟩, -, -⟩ := hguard
      obtain ⟨a₁, hfold, h⟩ := bind_eq_ok.mp h
      cases h
      exact Or.inr ⟨a₁, rfl, hb, hne, hfold, rfl⟩
    · nomatch h

/-- **A run of broadcasts** keeps its account. -/
theorem broadcasts_run {ss : Nat} {tr : List (BatchCmd × Nat)} {a : SendAccount}
    (hb : flowType.isBroadcast = true)
    (hss : passSsBatch (qpMetaSsBatch flowType receipientNum sendWrNum) = ss) (hle : 2 ≤ ss)
    (hrun : Run (accountStep flowType receipientNum sendWrNum) .start tr a) :
    messages tr < 2 ^ 64 →
      ∃ sig, Accounted receipientNum 3 ss (ss - 2) (messages tr) (messages tr) sig a := by
  refine hrun.invariant (fun tr a => messages tr < 2 ^ 64 →
    ∃ sig, Accounted receipientNum 3 ss (ss - 2) (messages tr) (messages tr) sig a)
    (fun _ => ⟨0, .start (by omega)⟩) ?_
  intro tr a cmd a' n _ ih h hfew
  rw [messages_concat] at hfew ⊢
  obtain ⟨sig, hacc⟩ := ih (by omega)
  rcases accountStep_cases h with ⟨machines, a₁, -, -, rfl, hlen, hall, hfold, rfl⟩ |
    ⟨-, -, hno, -⟩
  · rw [hss] at hfold
    have h4 : maxBcastBatch = 4 := rfl
    obtain ⟨sig', hacc'⟩ := Accounted.broadcasts hle machines hacc hfew (by omega) hall hfold
    exact ⟨sig', hacc'.post⟩
  · rw [hb] at hno
    nomatch hno

/-- **A run of unicasts** keeps its account. -/
theorem unicasts_run {ss : Nat} {tr : List (BatchCmd × Nat)} {a : SendAccount}
    (hb : flowType.isBroadcast = false)
    (hss : passSsBatch (qpMetaSsBatch flowType receipientNum sendWrNum) = ss) (hle : 1 ≤ ss)
    (hrun : Run (accountStep flowType receipientNum sendWrNum) .start tr a) :
    messages tr < 2 ^ 64 →
      ∃ sig, Accounted 1 0 ss (ss - 1) (messages tr) (messages tr) sig a := by
  refine hrun.invariant (fun tr a => messages tr < 2 ^ 64 →
    ∃ sig, Accounted 1 0 ss (ss - 1) (messages tr) (messages tr) sig a)
    (fun _ => ⟨0, .start (by omega)⟩) ?_
  intro tr a cmd a' n _ ih h hfew
  rw [messages_concat] at hfew ⊢
  obtain ⟨sig, hacc⟩ := ih (by omega)
  rcases accountStep_cases h with ⟨-, -, -, hyes, -⟩ | ⟨a₁, -, -, -, hfold, rfl⟩
  · rw [hb] at hyes
    nomatch hyes
  · rw [hss] at hfold
    obtain ⟨sig', hacc'⟩ := hacc.unicasts hle hfew hfold
    exact ⟨sig', hacc'.post⟩

/-- Nothing is sent on a QP that only receives credits. -/
theorem recvCredits_run {tr : List (BatchCmd × Nat)} {a : SendAccount}
    (hrun : Run (accountStep .recvCredits receipientNum sendWrNum) .start tr a) :
    a.posted = [] := by
  refine hrun.invariant (fun _ a => a.posted = []) rfl ?_
  intro tr a cmd a' n _ _ h
  rcases accountStep_cases h with ⟨-, -, -, hyes, -⟩ | ⟨-, -, -, hne, -⟩
  · nomatch hyes
  · exact absurd rfl hne

/-- **Where the depth is enough**: broadcasts to up to 11 machines; unicasts, unless twice the
    period does not fit in a `uint32_t`. -/
def SendQDepthFits (flowType : FlowType) (receipientNum sendWrNum : Nat) : Prop :=
  if flowType.isBroadcast = true then receipientNum ≤ 11
  else sendWrNum + 3 < 2 ^ 31 ∨ 2 ^ 32 - 2 ≤ sendWrNum

theorem sendQDepth_bcast (hb : flowType.isBroadcast = true) (hrec : receipientNum ≤ 11) :
    ∃ ss, passSsBatch (qpMetaSsBatch flowType receipientNum sendWrNum) = ss ∧ 2 ≤ ss ∧
      qpMetaSendQDepth flowType receipientNum sendWrNum = 2 * ss * receipientNum + 10 := by
  obtain ⟨ss, hss⟩ : ∃ ss, ss = max (minSsBatch / receipientNum) (maxBcastBatch + 2) := ⟨_, rfl⟩
  have hmin : minSsBatch / receipientNum ≤ 127 := Nat.div_le_self ..
  have h4 : maxBcastBatch = 4 := rfl
  have hsmall : 2 * ss * receipientNum ≤ 2 * 127 * 11 :=
    Nat.mul_le_mul (by omega) hrec
  have hper : qpMetaSsBatch flowType receipientNum sendWrNum = ss := by
    cases flowType <;> first | exact hss.symm | exact absurd hb (by decide)
  refine ⟨ss, ?_, by omega, ?_⟩
  · rw [hper, passSsBatch, if_pos (by omega)]
  · have hdepth : qpMetaSendQDepth flowType receipientNum sendWrNum
        = u32 (2 * qpMetaSsBatch flowType receipientNum sendWrNum * receipientNum + 10) := by
      cases flowType <;> first | rfl | exact absurd hb (by decide)
    rw [hdepth, hper]
    exact u32_of_lt (by omega)

theorem sendQDepth_unicast (hb : flowType.isBroadcast = false) (hne : flowType ≠ .recvCredits)
    (hwr : sendWrNum < 2 ^ 32) (hfits : sendWrNum + 3 < 2 ^ 31 ∨ 2 ^ 32 - 2 ≤ sendWrNum) :
    ∃ ss, passSsBatch (qpMetaSsBatch flowType receipientNum sendWrNum) = ss ∧ 1 ≤ ss ∧
      qpMetaSendQDepth flowType receipientNum sendWrNum = 2 * ss + 3 := by
  obtain ⟨ss, hss⟩ : ∃ ss, ss = max minSsBatch (u32 (sendWrNum + 2)) := ⟨_, rfl⟩
  have h127 : minSsBatch = 127 := rfl
  have hsmall : ss < 2 ^ 31 - 1 := by
    have hu : u32 (sendWrNum + 2) < 2 ^ 31 - 1 := by
      unfold u32
      omega
    omega
  have hper : qpMetaSsBatch flowType receipientNum sendWrNum = ss := by
    cases flowType <;> first | exact hss.symm | exact absurd hb (by decide) | exact absurd rfl hne
  refine ⟨ss, ?_, by omega, ?_⟩
  · rw [hper, passSsBatch, if_pos (by omega)]
  · have hdepth : qpMetaSendQDepth flowType receipientNum sendWrNum
        = u32 (2 * qpMetaSsBatch flowType receipientNum sendWrNum + 3) := by
      cases flowType <;> first | rfl | exact absurd hb (by decide) | exact absurd rfl hne
    rw [hdepth, hper]
    exact u32_of_lt (by omega)

/-- **THE DEPTH IS ENOUGH.**  Whatever is sent, in whatever batches, the work requests that are
    posted and not reclaimed fit in the queue. -/
theorem sendQueue_fits (hrec : 1 ≤ receipientNum) (hwr : sendWrNum < 2 ^ 32)
    (hfits : SendQDepthFits flowType receipientNum sendWrNum)
    {tr : List (BatchCmd × Nat)} {a : SendAccount}
    (hrun : Run (accountStep flowType receipientNum sendWrNum) .start tr a)
    (hfew : messages tr < 2 ^ 64) :
    a.posted.length ≤ qpMetaSendQDepth flowType receipientNum sendWrNum := by
  unfold SendQDepthFits at hfits
  by_cases hb : flowType.isBroadcast = true
  · rw [if_pos hb] at hfits
    obtain ⟨ss, hss, hle, hdepth⟩ := sendQDepth_bcast hb hfits
    obtain ⟨sig, hacc⟩ := broadcasts_run hb hss hle hrun hfew
    have hposted := hacc.posted_le hrec (by omega)
    have hworst : receipientNum * (ss + (ss - 2) + 3) = 2 * ss * receipientNum + receipientNum := by
      have hsum : ss + (ss - 2) + 3 = 2 * ss + 1 := by omega
      rw [hsum, Nat.mul_succ, Nat.mul_comm]
    omega
  · rw [if_neg hb] at hfits
    rw [Bool.not_eq_true] at hb
    by_cases hne : flowType = .recvCredits
    · subst hne
      rw [recvCredits_run hrun]
      exact Nat.zero_le _
    · obtain ⟨ss, hss, hle, hdepth⟩ := sendQDepth_unicast hb hne hwr hfits
      obtain ⟨sig, hacc⟩ := unicasts_run hb hss hle hrun hfew
      have hposted := hacc.posted_le (Nat.le_refl 1) hle
      omega

instance : Decidable (SendQDepthFits flowType receipientNum sendWrNum) := by
  unfold SendQDepthFits
  infer_instance

/-- The worst that can be sent: one broadcast at a time, but for one batch that is full. -/
def worstBcasts (machines before after : Nat) : List BatchCmd :=
  List.replicate before (.broadcasts [machines]) ++
    .broadcasts (List.replicate maxBcastBatch machines) ::
      List.replicate after (.broadcasts [machines])

/-- A run that is as bad as it gets for 11 machines: the queue is full to the last place. -/
theorem sendQueue_fits_eleven : ∃ tr a,
    Run (accountStep .sendBcastRecvUni 11 44) .start tr a ∧
      a.posted.length = qpMetaSendQDepth .sendBcastRecvUni 11 44 ∧
      a.posted.length ≤ qpMetaSendQDepth .sendBcastRecvUni 11 44 := by
  have h : (do
      let p ← exec (accountStep .sendBcastRecvUni 11 44) .start
        (worstBcasts 11 8 19)
      return (messages p.1 < 2 ^ 64 ∧
        p.2.posted.length = qpMetaSendQDepth .sendBcastRecvUni 11 44 : Bool)) = .ok true := by
    decide +kernel
  obtain ⟨⟨tr, a⟩, hexec, h⟩ := bind_eq_ok.mp h
  obtain ⟨hfew, hfull⟩ := of_decide_eq_true (Except.ok.inj h)
  have hrun := run_of_exec hexec
  exact ⟨tr, a, hrun, hfull, sendQueue_fits (by decide) (by decide) (by decide) hrun hfew⟩

/-- **For 12 machines it is not**: 251 work requests, and the depth is 250. -/
theorem sendQueue_overflows : ∃ tr a,
    Run (accountStep .sendBcastRecvUni 12 48) .start tr a ∧ messages tr < 2 ^ 64 ∧
      a.posted.length = 251 ∧ qpMetaSendQDepth .sendBcastRecvUni 12 48 = 250 := by
  have h : (do
      let p ← exec (accountStep .sendBcastRecvUni 12 48) .start
        (worstBcasts 12 7 17)
      return (messages p.1 < 2 ^ 64 ∧ p.2.posted.length = 251 : Bool)) = .ok true := by
    decide +kernel
  obtain ⟨⟨tr, a⟩, hexec, h⟩ := bind_eq_ok.mp h
  obtain ⟨hfew, hfull⟩ := of_decide_eq_true (Except.ok.inj h)
  exact ⟨tr, a, run_of_exec hexec, hfew, hfull, by decide⟩

end Odyssey
