/-
  SELECTIVE SIGNALING.

  Every `ss_batch`-th message is flagged `IBV_SEND_SIGNALED`, and some messages later the sender
  blocks until its completion is there.  Which message is flagged and when to poll is read off one
  counter, `sent_tx`; the flagged message is handed to the NIC some time in between, when its
  batch is posted.

  Let `φ` be `sent_tx` modulo `ss_batch`.  The message forged at `φ = 0` is flagged, the poll
  happens at `φ = window`, and from the one to the other a completion is owed.  `Paced` says so
  for a queue with `n` forged messages that are not posted yet: when a completion is owed, either
  the flagged message is posted, or it is among the last `n`, no further back than `φ`.  A batch
  is shorter than the window, so when `φ` gets there the flagged message must have been posted:
  the poll returns.  That is the margin of two in `qp_meta_ss_batch_q_depth`.

  `sent_tx` is a `uint64_t`.  Where it wraps, `φ` jumps to 0 with a completion owed that will not be
  polled for; that does no harm to later polls, but from then on one more message is signaled than
  polled.  So the balance of the two is a statement about the first `2 ^ 64` messages.
-/
import Odyssey.SendPath
import Odyssey.Lib.Ends
import Odyssey.Lib.Runs
import Mathlib.Data.List.Infix

namespace Odyssey

open Lib

/-- The pace of a send queue with `n` messages forged and not yet posted, one of them signaled if
    `flagged`. -/
structure Paced (ssBatch window n : Nat) (flagged : Bool) (s : SendQueue) : Prop where
  /-- every poll found a completion of a posted message -/
  polled : ∀ l l', s.log = l ++ .polled :: l' → polls l < completions l
  room : polls s.log ≤ completions s.log
  owed : 0 < s.sentTx % ssBatch → s.sentTx % ssBatch ≤ window →
    polls s.log < completions s.log ∨ flagged = true ∧ s.sentTx % ssBatch ≤ n
  tx : s.sentTx = u64 (sends s.log + n)
  pending : sends s.log + n < 2 ^ 64 → flags s.log = polls s.log +
    if 0 < s.sentTx % ssBatch ∧ s.sentTx % ssBatch ≤ window then 1 else 0
  balanced : sends s.log + n ≤ 2 ^ 64 →
    ∀ l, l <+: s.log → polls l ≤ flags l ∧ flags l ≤ polls l + 1

/-- Counting modulo `ss_batch`, in a `uint64_t`. -/
theorem mod_incr {tx : Nat} (ss : Nat) (hss : 0 < ss) (htx : tx < 2 ^ 64) :
    u64 (tx + 1) % ss = if tx + 1 = 2 ^ 64 ∨ tx % ss + 1 = ss then 0 else tx % ss + 1 := by
  by_cases hwrap : tx + 1 = 2 ^ 64
  · rw [if_pos (Or.inl hwrap), hwrap]
    rfl
  · have hplain : u64 (tx + 1) = tx + 1 := u64_of_lt (by omega)
    have hlt := Nat.mod_lt tx hss
    rw [hplain]
    by_cases hlast : tx % ss + 1 = ss
    · rw [if_pos (Or.inr hlast), ← Nat.mod_add_mod, hlast, Nat.mod_self]
    · rw [if_neg (by omega), ← Nat.mod_add_mod, Nat.mod_eq_of_lt (by omega)]

namespace Paced

variable {ssBatch window n : Nat} {flagged : Bool} {s s' : SendQueue}

theorem start (hlog : s.log = []) (htx : s.sentTx = 0) : Paced ssBatch window 0 false s := by
  refine ⟨fun l l' h => ?_, ?_, fun h => ?_, ?_, fun _ => ?_, fun _ l hl => ?_⟩
  · rw [hlog] at h
    exact absurd h.symm (by simp)
  · rw [hlog]
    exact Nat.le_refl 0
  · rw [htx, Nat.zero_mod] at h
    exact absurd h (Nat.lt_irrefl 0)
  · rw [htx, hlog]
    rfl
  · rw [hlog, htx, Nat.zero_mod, if_neg fun h => absurd h.1 (Nat.lt_irrefl 0)]
    rfl
  · rw [hlog, List.prefix_nil] at hl
    subst hl
    exact ⟨Nat.le_refl 0, Nat.zero_le 1⟩

/-- The pace is in the counter and the log only. -/
theorem congr (h : Paced ssBatch window n flagged s) (htx : s'.sentTx = s.sentTx)
    (hlog : s'.log = s.log) : Paced ssBatch window n flagged s' := by
  obtain ⟨h₁, h₂, h₃, h₄, h₅, h₆⟩ := h
  constructor <;> rw [hlog] <;> first | rwa [htx] | assumption

theorem tx_lt (h : Paced ssBatch window n flagged s) : s.sentTx < 2 ^ 64 := by
  rw [h.tx]
  exact Nat.mod_lt _ (by decide)

/-- **When it is time to poll, a completion is there**: the batch is shorter than the window. -/
theorem ready (h : Paced ssBatch window n flagged s) (hn : n < window)
    (hpoll : s.sentTx % ssBatch = window) : polls s.log < completions s.log := by
  rcases h.owed (by omega) (by omega) with hready | ⟨-, hback⟩
  · exact hready
  · omega

/-- **Forging** one more message: flag at 0, poll at `window`. -/
theorem forge (poll : Bool) (h : Paced ssBatch window n flagged s) (hn : n < window)
    (hwin : window < ssBatch) (hpoll : poll = true → s.sentTx % ssBatch = window)
    (hskip : s.sentTx % ssBatch = window → poll = true ∨ s.sentTx + 1 = 2 ^ 64)
    (htx : s'.sentTx = u64 (s.sentTx + 1))
    (hlog : s'.log = s.log ++ (if s.sentTx % ssBatch = 0 then [.flagged] else [])
      ++ (if poll = true then [.polled] else [])) :
    Paced ssBatch window (n + 1) (flagged || s.sentTx % ssBatch == 0) s' := by
  have hmod := mod_incr ssBatch (by omega) h.tx_lt
  rw [← htx] at hmod
  have hlt := h.tx_lt
  have hnext : ∀ m, s.sentTx = u64 m → s'.sentTx = u64 (m + 1) := by
    intro m hm
    rw [htx, hm]
    unfold u64
    omega
  -- what the counter does not reach before it has wrapped
  have hnowrap : sends s.log + n + 1 < 2 ^ 64 → s.sentTx + 1 ≠ 2 ^ 64 := by
    intro hsmall
    rw [h.tx, u64_of_lt (by omega)]
    omega
  by_cases h0 : s.sentTx % ssBatch = 0
  · -- a message is flagged
    have hpoll' : poll ≠ true := fun hp => by have := hpoll hp; omega
    rw [if_pos h0, if_neg hpoll', List.append_nil] at hlog
    obtain ⟨hflags, hpolls, hcomps, hsends⟩ := counts_flagged s.log
    rw [← hlog] at hflags hpolls hcomps hsends
    have hpend : sends s.log + n < 2 ^ 64 → flags s.log = polls s.log := by
      intro hsmall
      rw [h.pending hsmall, if_neg (by omega), Nat.add_zero]
    refine ⟨fun l l' hl => ?_, by rw [hpolls, hcomps]; exact h.room, fun hpos _ => ?_, ?_,
      fun hsmall => ?_, fun hsmall l hl => ?_⟩
    · rw [hlog] at hl
      rcases split_concat hl with ⟨l'', hl⟩ | ⟨-, he⟩
      · exact h.polled l l'' hl
      · nomatch he
    · right
      rw [h0]
      refine ⟨by simp, ?_⟩
      rw [hmod, h0]
      split <;> omega
    · rw [hsends]
      exact hnext _ h.tx
    · rw [hsends] at hsmall
      have hw := hnowrap (by omega)
      have hone : s'.sentTx % ssBatch = 1 := by
        rw [hmod, if_neg (by omega), h0]
      rw [hflags, hpolls, hpend (by omega), if_pos (by omega)]
    · rw [hsends] at hsmall
      rw [hlog, List.prefix_concat_iff] at hl
      rcases hl with rfl | hl
      · rw [← hlog, hflags, hpolls, hpend (by omega)]
        omega
      · exact h.balanced (by omega) l hl
  · rw [if_neg h0, List.append_nil] at hlog
    have hf0 : (s.sentTx % ssBatch == 0) = false := beq_eq_false_iff_ne.mpr h0
    rw [hf0, Bool.or_false]
    by_cases hp : poll = true
    · -- a completion is polled
      have hw := hpoll hp
      have hready := h.ready hn hw
      rw [if_pos hp] at hlog
      obtain ⟨hflags, hpolls, hcomps, hsends⟩ := counts_polled s.log
      rw [← hlog] at hflags hpolls hcomps hsends
      have hpend : sends s.log + n < 2 ^ 64 → flags s.log = polls s.log + 1 := by
        intro hsmall
        rw [h.pending hsmall, if_pos (by omega)]
      have hout : s'.sentTx % ssBatch = 0 ∨ window < s'.sentTx % ssBatch := by
        rw [hmod]
        split <;> omega
      refine ⟨fun l l' hl => ?_, by omega, fun hpos hle => ?_, ?_, fun hsmall => ?_,
        fun hsmall l hl => ?_⟩
      · rw [hlog] at hl
        rcases split_concat hl with ⟨l'', hl⟩ | ⟨rfl, -⟩
        · exact h.polled l l'' hl
        · exact hready
      · omega
      · rw [hsends]
        exact hnext _ h.tx
      · rw [hsends] at hsmall
        rw [hflags, hpolls, hpend (by omega), if_neg (by omega)]
      · rw [hsends] at hsmall
        rw [hlog, List.prefix_concat_iff] at hl
        rcases hl with rfl | hl
        · rw [← hlog, hflags, hpolls, hpend (by omega)]
          omega
        · exact h.balanced (by omega) l hl
    · -- nothing happens
      rw [if_neg hp, List.append_nil] at hlog
      refine ⟨?_, ?_, fun hpos hle => ?_, ?_, fun hsmall => ?_, fun hsmall => ?_⟩ <;> rw [hlog]
      · exact h.polled
      · exact h.room
      · rw [hmod] at hpos hle ⊢
        split at hpos
        · omega
        · rename_i hgo
          rw [if_neg hgo] at hle ⊢
          rcases h.owed (by omega) (by omega) with hready | ⟨hfl, hback⟩
          · exact Or.inl hready
          · exact Or.inr ⟨hfl, by omega⟩
      · exact hnext _ h.tx
      · rw [hlog] at hsmall
        have hw := hnowrap (by omega)
        have hne : s.sentTx % ssBatch ≠ window := by
          intro hc
          rcases hskip hc with hc | hc
          · exact hp hc
          · exact hw hc
        rw [h.pending (by omega)]
        by_cases hle : s.sentTx % ssBatch ≤ window
        · have hgo : s'.sentTx % ssBatch = s.sentTx % ssBatch + 1 := by
            rw [hmod, if_neg (by omega)]
          rw [if_pos ⟨by omega, hle⟩, hgo, if_pos ⟨by omega, by omega⟩]
        · have hout : s'.sentTx % ssBatch = 0 ∨ window < s'.sentTx % ssBatch := by
            rw [hmod]
            split <;> omega
          rw [if_neg (by omega), if_neg (by omega)]
      · rw [hlog] at hsmall
        exact h.balanced (by omega)

/-- **Posting** the batch: the signaled message among it is with the NIC. -/
theorem post {chain : List Posted} (h : Paced ssBatch window n flagged s)
    (hsig : flagged = true → 0 < signals chain) (htx : s'.sentTx = s.sentTx)
    (hlog : s'.log = s.log ++ [.posted n chain]) : Paced ssBatch window 0 false s' := by
  obtain ⟨hflags, hpolls, hcomps, hsends⟩ := counts_posted s.log n chain
  rw [← hlog] at hflags hpolls hcomps hsends
  have hroom := h.room
  refine ⟨fun l l' hl => ?_, by omega, fun hpos hle => ?_, ?_, fun hsmall => ?_,
    fun hsmall l hl => ?_⟩
  · rw [hlog] at hl
    rcases split_concat hl with ⟨l'', hl⟩ | ⟨-, he⟩
    · exact h.polled l l'' hl
    · nomatch he
  · left
    rw [htx] at hpos hle
    rcases h.owed hpos hle with hready | ⟨hfl, -⟩
    · omega
    · have := hsig hfl
      omega
  · rw [hsends, htx]
    exact h.tx
  · rw [hflags, hpolls, htx]
    exact h.pending (by omega)
  · rw [hlog, List.prefix_concat_iff] at hl
    rcases hl with rfl | hl
    · rw [← hlog, hflags, hpolls]
      exact h.balanced (by omega) s.log (List.prefix_refl _)
    · exact h.balanced (by omega) l hl

end Paced

end Odyssey
