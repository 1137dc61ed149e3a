/-
  WHOM A TIME-OUT MAKES MISSING.

  A broadcast QP has one counter, `time_out_cnt`, for all the machines it sends to.  Every call of
  `check_bcast_credits` that finds some active machine without credits counts, and a call that finds
  enough sets the counter back.  At `CREDIT_TIMEOUT` the membership is rebuilt from the credits, and
  whoever has none is missing from then on.  So the counter may have run because of one machine, and
  the call that times out may find another one without credits.

  A worker has several broadcast QPs on one `q_info`, and a time-out on one of them changes the
  active machines of all.  Between two calls the rest of the program works on the same context
  (`BcastCmd.rest`): it inserts messages, handles the acks that return credits, posts receives.  All
  that is said about it is that no credit is taken away.

  The law (`times_out_slow`) is that a machine becomes missing only if it had no credits in each of
  the last `CREDIT_TIMEOUT` calls of this QP.  A QP takes credits in a call whose check finds
  enough, and there the counter is 0 again.  So while the counter runs, credits only come back
  (`CreditWindow`), and who has none at the end had none before.
-/
import Odyssey.Sending
import Odyssey.Revival

namespace Odyssey

open Lib

variable {μ : Type}

/-! ## What the sends leave alone -/

/-- The membership, the credits and the time-out counters stay. -/
structure KeepsCredits (c c' : Context μ) : Prop where
  cl : c'.cl = c.cl
  qInfo : c'.qInfo = c.qInfo
  credits : ∀ i, (c'.qpMeta i).credits = (c.qpMeta i).credits
  timeOutCnt : ∀ i, (c'.qpMeta i).timeOutCnt = (c.qpMeta i).timeOutCnt

namespace KeepsCredits

variable {c c' c'' : Context μ} {qp : Nat}

theorem refl (c : Context μ) : KeepsCredits c c := ⟨rfl, rfl, fun _ => rfl, fun _ => rfl⟩

theorem trans (h : KeepsCredits c c') (h' : KeepsCredits c' c'') : KeepsCredits c c'' :=
  ⟨h'.cl.trans h.cl, h'.qInfo.trans h.qInfo, fun i => (h'.credits i).trans (h.credits i),
    fun i => (h'.timeOutCnt i).trans (h.timeOutCnt i)⟩

/-- A change of something else in one QP. -/
theorem modify {i : Nat} {f : PerQpMeta μ → PerQpMeta μ}
    (hcredits : (f (c.qpMeta i)).credits = (c.qpMeta i).credits)
    (hcnt : (f (c.qpMeta i)).timeOutCnt = (c.qpMeta i).timeOutCnt) :
    KeepsCredits c (c.modify i f) := by
  refine ⟨rfl, rfl, fun j => ?_, fun j => ?_⟩
  · by_cases hji : j = i
    · subst hji
      rw [Context.qpMeta_modify_self, hcredits]
    · show (Function.update c.qpMeta i _ j).credits = _
      rw [Function.update_of_ne hji]
  · by_cases hji : j = i
    · subst hji
      rw [Context.qpMeta_modify_self, hcnt]
    · show (Function.update c.qpMeta i _ j).timeOutCnt = _
      rw [Function.update_of_ne hji]

theorem forge {brI : Nat} (h : c.ctxForgeBcastWr qp brI = .ok c') : KeepsCredits c c' := by
  obtain ⟨s, -, h⟩ := bind_eq_ok.mp h
  cases h
  exact modify rfl rfl

theorem post {brI : Nat} (h : c.postQuorumBroadcastsAndRecvs qp brI = .ok c') :
    KeepsCredits c c' := by
  obtain ⟨r, -, h⟩ := bind_eq_ok.mp h
  obtain ⟨s, -, h⟩ := bind_eq_ok.mp h
  cases h
  have hrecv : KeepsCredits c (c.setRecv (c.qpMeta qp).recvQpId r) := modify rfl rfl
  exact hrecv.trans (modify rfl rfl)

theorem round {brI brI' : Nat} (h : c.bcastRound qp brI = .ok (c', brI')) : KeepsCredits c c' := by
  obtain ⟨c₁, hforge, h⟩ := bind_eq_ok.mp h
  have h₁ : KeepsCredits c (c₁.setFifo qp 0 ((c₁.qpMeta qp).sendFifo 0).fifoSendFromPullSlot) :=
    (forge hforge).trans (modify rfl rfl)
  dsimp only at h
  split at h
  · obtain ⟨c₂, hpost, h⟩ := bind_eq_ok.mp h
    cases h
    exact h₁.trans (post hpost)
  · cases h
    exact h₁

/-- The loop of `ctx_send_broadcasts`. -/
theorem loop {c c' : Context μ} {credits brI mesSent brI' mesSent' : Nat}
    (h : Context.bcastLoop qp credits c brI mesSent = .ok (c', brI', mesSent')) :
    KeepsCredits c c' := by
  induction credits generalizing c brI mesSent with
  | zero =>
    cases h
    exact refl _
  | succ credits ih =>
    rw [Context.bcastLoop] at h
    split at h
    · cases h
      exact refl _
    · obtain ⟨⟨c₁, brI₁⟩, hround, h⟩ := bind_eq_ok.mp h
      exact (round hround).trans (ih h)

end KeepsCredits

/-- **What a call of `ctx_send_broadcasts` does to the membership, the counters and the credits**:
    nothing, with no message to send, or what its call of `check_bcast_credits` does.  Credits are
    taken on its own QP, and only if the answer is `true`. -/
theorem ctxSendBroadcasts_cases {c c' : Context μ} {qp : Nat}
    (h : c.ctxSendBroadcasts qp = .ok c') :
    (((c.qpMeta qp).sendFifo 0).netCapacity = 0 ∧ c' = c) ∨
    (((c.qpMeta qp).sendFifo 0).netCapacity ≠ 0 ∧ ∃ c₁ answer,
      c.checkCredits qp 1 = .ok (c₁, answer) ∧ c'.cl = c₁.cl ∧ c'.qInfo = c₁.qInfo ∧
      (∀ i, (c'.qpMeta i).timeOutCnt = (c₁.qpMeta i).timeOutCnt) ∧
      (∀ i, i ≠ qp ∨ answer = none → (c'.qpMeta i).credits = (c₁.qpMeta i).credits)) := by
  unfold Context.ctxSendBroadcasts at h
  split at h
  · rename_i hzero
    cases h
    exact Or.inl ⟨hzero, rfl⟩
  · rename_i hcap
    obtain ⟨⟨c₁, answer⟩, hcheck, h⟩ := bind_eq_ok.mp h
    refine Or.inr ⟨hcap, c₁, answer, hcheck, ?_⟩
    cases answer with
    | none =>
      cases h
      exact ⟨rfl, rfl, fun _ => rfl, fun _ _ => rfl⟩
    | some availableCredits =>
      obtain ⟨⟨c₂, brI, mesSent⟩, hloop, h⟩ := bind_eq_ok.mp h
      obtain ⟨c₃, hlast, h⟩ := bind_eq_ok.mp h
      have h₂ : KeepsCredits c₂ c₃ := by
        split at hlast
        · exact KeepsCredits.post hlast
        · cases hlast
          exact KeepsCredits.refl c₂
      have h₃ := (KeepsCredits.loop hloop).trans h₂
      split at h
      · cases h
        have hset : ∀ (cr : Nat → UInt16) (i : Nat),
            ((c₃.setCredits qp cr).qpMeta i).timeOutCnt = (c₃.qpMeta i).timeOutCnt ∧
            (i ≠ qp → ((c₃.setCredits qp cr).qpMeta i).credits = (c₃.qpMeta i).credits) := by
          intro cr i
          by_cases hi : i = qp
          · subst hi
            refine ⟨?_, fun hne => absurd rfl hne⟩
            rw [Context.setCredits, Context.qpMeta_modify_self]
          · have hother : (c₃.setCredits qp cr).qpMeta i = c₃.qpMeta i :=
              Function.update_of_ne hi _ _
            rw [hother]
            exact ⟨rfl, fun _ => rfl⟩
        refine ⟨h₃.cl, h₃.qInfo, fun i => (hset _ i).1.trans (h₃.timeOutCnt i), ?_⟩
        rintro i (hi | hnone)
        · exact ((hset _ i).2 hi).trans (h₃.credits i)
        · cases hnone
      · cases h
        exact ⟨h₃.cl, h₃.qInfo, h₃.timeOutCnt, fun i _ => h₃.credits i⟩

theorem ctxSendBroadcasts_cl {c c' : Context μ} {qp : Nat} (h : c.ctxSendBroadcasts qp = .ok c') :
    c'.cl = c.cl := by
  rcases ctxSendBroadcasts_cases h with ⟨-, rfl⟩ | ⟨-, c₁, answer, hcheck, hcl, -⟩
  · rfl
  · obtain ⟨⟨r, answer'⟩, -, hc₁⟩ := bind_eq_ok.mp hcheck
    cases hc₁
    exact hcl

/-! ## What one check does to the counter -/

variable {cl : Cluster}

theorem Agrees.not_missing {up : Nat → Bool} {q : QuorumInfo} (ha : Agrees cl up q) {m : Nat}
    (hm : m ∈ q.active) : m ∉ q.missing := by
  intro hmiss
  rw [ha.splits.missing, List.mem_filter] at hmiss
  rw [(ha.mem_active.mp hm).2] at hmiss
  exact absurd hmiss.2 (by decide)

/-- **A call counts one more, or the counter is 0 after it.**  It makes a machine missing only if
    the counter has reached `CREDIT_TIMEOUT`, and the machine has too few credits now. -/
theorem checkBcastCredits_counts {creditsOf : Nat → Nat → UInt16} {credits : Nat → UInt16}
    {minCredits : UInt16} {r r' : Reconf} {answer : Option UInt16} {up : Nat → Bool}
    (hfit : cl.remMachNum < 2 ^ 8) (ha : Agrees cl up r.qInfo)
    (h : checkBcastCredits cl creditsOf credits minCredits r = .ok (r', answer)) :
    (r'.timeOutCnt = 0 ∨ (answer = none ∧ r'.timeOutCnt = u32 (r.timeOutCnt + 1) ∧
      r'.timeOutCnt ≠ creditTimeout)) ∧
    ∀ m ∈ r.qInfo.active, m ∈ r'.qInfo.missing →
      u32 (r.timeOutCnt + 1) = creditTimeout ∧ credits m < minCredits := by
  unfold checkBcastCredits at h
  split at h
  · dsimp only at h
    split at h
    · -- the time-out
      rename_i hcnt
      obtain ⟨q, hq, h⟩ := bind_eq_ok.mp h
      obtain ⟨r₁, hlink, h⟩ := bind_eq_ok.mp h
      cases h
      obtain ⟨ha', -⟩ := updateQInfo_agrees hq
      refine ⟨Or.inl rfl, fun m hm hmiss => ⟨hcnt, ?_⟩⟩
      have hmiss' : m ∈ q.missing := by
        have hq₁ : r₁.qInfo = q := (relink_eq hlink).1
        rw [← hq₁]
        exact hmiss
      rw [ha'.splits.missing, List.mem_filter] at hmiss'
      simpa using hmiss'.2
    · rename_i hcnt
      cases h
      exact ⟨Or.inr ⟨rfl, rfl, hcnt⟩, fun m hm hmiss => absurd hmiss (ha.not_missing hm)⟩
  · -- enough credits: nobody becomes missing
    obtain ⟨r₁, hloop, h⟩ := bind_eq_ok.mp h
    have hwalk := (reviveLoop_walk (r := { r with timeOutCnt := 0 }) hfit ha hloop).2
    have hcnt : r₁.timeOutCnt = 0 := by
      refine foldlM_range_rule (P := fun _ (t : Reconf) => t.timeOutCnt = 0) _ rfl ?_ hloop
      intro i t t' _ ht hround
      rcases reviveRound_cases hround with rfl | ⟨m, q, -, -, -, hlink⟩
      · exact ht
      · exact (relink_eq hlink).2.trans ht
    have hr' : r' = r₁ := by
      split at h
      · cases h
        rfl
      · cases h
        rfl
    subst hr'
    refine ⟨Or.inl hcnt, fun m hm hmiss => ?_⟩
    rw [hwalk] at hmiss
    exact absurd (mem_of_mem_eraseWalk hmiss) (ha.not_missing hm)

/-! ## The system -/

/-- What can happen next: a call of `ctx_send_broadcasts`, or something in the rest of the
    program. -/
inductive BcastCmd (μ : Type)
  | send (qp : Nat)
  | rest (r : Nat → Around μ)

/-- A step.  It shows the credits that `check_bcast_credits` was called with, if it was called.  The
    rest of the program takes no credit of a broadcast QP away. -/
def bcastStep (c : Context μ) : BcastCmd μ → Outcome (Context μ × Option (Nat → UInt16))
  | .send qp =>
    if qp ∈ c.qInfo.sharing then do
      let c' ← c.ctxSendBroadcasts qp
      return (c', if ((c.qpMeta qp).sendFifo 0).netCapacity = 0 then none
        else some (c.qpMeta qp).credits)
    else .error .disabled
  | .rest r =>
    if ∀ qp ∈ c.qInfo.sharing, ∀ m ∈ c.cl.remotes,
        (c.qpMeta qp).credits m ≤ (r qp).credits m then do
      let (c', _) ← sendStep c (.around r)
      return (c', none)
    else .error .disabled

/-- The calls of `check_bcast_credits` for a QP in a trace, by the credits they found. -/
def checkCalls (qp : Nat) (tr : List (BcastCmd μ × Option (Nat → UInt16))) :
    List (Nat → UInt16) :=
  tr.filterMap fun
    | (.send i, found) => if i = qp then found else none
    | (.rest _, _) => none

theorem checkCalls_append (qp : Nat) (tr tr' : List (BcastCmd μ × Option (Nat → UInt16))) :
    checkCalls qp (tr ++ tr') = checkCalls qp tr ++ checkCalls qp tr' :=
  List.filterMap_append

theorem checkCalls_self (qp : Nat) (found : Option (Nat → UInt16)) :
    checkCalls qp [((.send qp : BcastCmd μ), found)] = found.toList := by
  cases found with
  | none => simp [checkCalls]
  | some credits => simp [checkCalls]

theorem checkCalls_other {qp i : Nat} (hi : i ≠ qp) (found : Option (Nat → UInt16)) :
    checkCalls qp [((.send i : BcastCmd μ), found)] = [] := by
  simp [checkCalls, hi]

/-! ## The invariant -/

/-- **The window of a QP**: its counter has not reached the time-out, and the last `time_out_cnt`
    calls of its check found no more credits than there are now. -/
structure CreditWindow (c : Context μ) (calls : List (Nat → UInt16)) (qp : Nat) : Prop where
  lt : (c.qpMeta qp).timeOutCnt < creditTimeout
  last : ∃ before last, calls = before ++ last ∧ last.length = (c.qpMeta qp).timeOutCnt ∧
    ∀ found ∈ last, ∀ m ∈ c.cl.remotes, found m ≤ (c.qpMeta qp).credits m

namespace CreditWindow

variable {c c' : Context μ} {calls : List (Nat → UInt16)} {qp : Nat}

/-- A QP whose counter is 0 has an empty window. -/
theorem of_zero (hzero : (c.qpMeta qp).timeOutCnt = 0) (calls : List (Nat → UInt16)) :
    CreditWindow c calls qp := by
  refine ⟨by rw [hzero]; decide, calls, [], (List.append_nil _).symm, by rw [hzero]; rfl, ?_⟩
  intro found hfound
  nomatch hfound

/-- Credits come back. -/
theorem grow (h : CreditWindow c calls qp) (hcl : c'.cl = c.cl)
    (hcnt : (c'.qpMeta qp).timeOutCnt = (c.qpMeta qp).timeOutCnt)
    (hmono : ∀ m ∈ c.cl.remotes, (c.qpMeta qp).credits m ≤ (c'.qpMeta qp).credits m) :
    CreditWindow c' calls qp := by
  obtain ⟨hlt, before, last, hcalls, hlen, hle⟩ := h
  refine ⟨by rw [hcnt]; exact hlt, before, last, hcalls, by rw [hcnt]; exact hlen, ?_⟩
  intro found hfound m hm
  rw [hcl] at hm
  exact UInt16.le_trans (hle found hfound m hm) (hmono m hm)

/-- A call that counts. -/
theorem count (h : CreditWindow c calls qp) (hcl : c'.cl = c.cl)
    (hcnt : (c'.qpMeta qp).timeOutCnt = u32 ((c.qpMeta qp).timeOutCnt + 1))
    (hne : (c'.qpMeta qp).timeOutCnt ≠ creditTimeout)
    (hcredits : (c'.qpMeta qp).credits = (c.qpMeta qp).credits) :
    CreditWindow c' (calls ++ [(c.qpMeta qp).credits]) qp := by
  obtain ⟨hlt, before, last, hcalls, hlen, hle⟩ := h
  have hsmall : creditTimeout < 2 ^ 32 := by decide
  rw [u32_of_lt (by omega)] at hcnt
  refine ⟨by omega, before, last ++ [(c.qpMeta qp).credits], ?_, ?_, ?_⟩
  · rw [hcalls, List.append_assoc]
  · rw [List.length_append, List.length_singleton, hlen, hcnt]
  · intro found hfound m hm
    rw [hcredits]
    rw [hcl] at hm
    rcases List.mem_append.mp hfound with hold | hnew
    · exact hle found hold m hm
    · rw [List.mem_singleton] at hnew
      rw [hnew]
      exact UInt16.le_refl _

/-- The call that times out: whoever has no credits had none in the whole window. -/
theorem times_out (h : CreditWindow c calls qp) {m : Nat} {minCredits : UInt16} (hm : m ∈ c.cl.remotes)
    (hcnt : u32 ((c.qpMeta qp).timeOutCnt + 1) = creditTimeout)
    (hnone : (c.qpMeta qp).credits m < minCredits) :
    ∃ before last, calls ++ [(c.qpMeta qp).credits] = before ++ last ∧
      last.length = creditTimeout ∧ ∀ found ∈ last, found m < minCredits := by
  obtain ⟨hlt, before, last, hcalls, hlen, hle⟩ := h
  have hsmall : creditTimeout < 2 ^ 32 := by decide
  rw [u32_of_lt (by omega)] at hcnt
  refine ⟨before, last ++ [(c.qpMeta qp).credits], ?_, ?_, ?_⟩
  · rw [hcalls, List.append_assoc]
  · rw [List.length_append, List.length_singleton, hlen, hcnt]
  · intro found hfound
    rcases List.mem_append.mp hfound with hold | hnew
    · exact UInt16.lt_of_le_of_lt (hle found hold m hm) hnone
    · rw [List.mem_singleton] at hnew
      rw [hnew]
      exact hnone

end CreditWindow

/-- Every QP on the `q_info` has its window. -/
structure Timing (tr : List (BcastCmd μ × Option (Nat → UInt16))) (c : Context μ) : Prop where
  ready : Ready c
  windows : ∀ qp ∈ c.qInfo.sharing, CreditWindow c (checkCalls qp tr) qp

/-- `check_bcast_credits` of a context. -/
theorem checkCredits_counts {c c₁ : Context μ} {qp : Nat} {minCredits : UInt16}
    {answer : Option UInt16} (h : Ready c)
    (hcheck : c.checkCredits qp minCredits = .ok (c₁, answer)) :
    c₁.qInfo.sharing = c.qInfo.sharing ∧
    (∀ i, (c₁.qpMeta i).credits = (c.qpMeta i).credits) ∧
    (∀ i, i ≠ qp → (c₁.qpMeta i).timeOutCnt = (c.qpMeta i).timeOutCnt) ∧
    ((c₁.qpMeta qp).timeOutCnt = 0 ∨ (answer = none ∧
      (c₁.qpMeta qp).timeOutCnt = u32 ((c.qpMeta qp).timeOutCnt + 1) ∧
      (c₁.qpMeta qp).timeOutCnt ≠ creditTimeout)) ∧
    ∀ m ∈ c.qInfo.active, m ∈ c₁.qInfo.missing →
      u32 ((c.qpMeta qp).timeOutCnt + 1) = creditTimeout ∧
      (c.qpMeta qp).credits m < minCredits := by
  obtain ⟨⟨r, answer'⟩, hr, hc₁⟩ := bind_eq_ok.mp hcheck
  cases hc₁
  obtain ⟨up, ha⟩ := h.agrees
  obtain ⟨hcnt, hmiss⟩ := checkBcastCredits_counts (r := c.reconf qp) h.fit ha hr
  obtain ⟨-, -, hptr⟩ := checkBcastCredits_agrees (r := c.reconf qp) h.fit ha hr
  have hown : ((c.withReconf qp r).qpMeta qp).timeOutCnt = r.timeOutCnt := if_pos rfl
  refine ⟨sharing_eq hptr, fun _ => rfl, fun i hi => if_neg hi, ?_, hmiss⟩
  rw [hown]
  exact hcnt

/-- **A call of `ctx_send_broadcasts` keeps the windows.** -/
theorem Timing.send {tr : List (BcastCmd μ × Option (Nat → UInt16))} {c c' : Context μ} {qp : Nat}
    (h : Timing tr c) (hqp : qp ∈ c.qInfo.sharing) (hsend : c.ctxSendBroadcasts qp = .ok c') :
    Timing (tr ++ [(.send qp, if ((c.qpMeta qp).sendFifo 0).netCapacity = 0 then none
      else some (c.qpMeta qp).credits)]) c' := by
  refine ⟨((h.ready.sendBroadcasts hqp).of_ok hsend).1, ?_⟩
  have hcl := ctxSendBroadcasts_cl hsend
  rcases ctxSendBroadcasts_cases hsend with
    ⟨hzero, rfl⟩ | ⟨hcap, c₁, answer, hcheck, -, hq, hcnt, hcred⟩
  · intro i hi
    have hnone : checkCalls i [((.send qp : BcastCmd μ), none)] = [] := by
      by_cases hiq : qp = i
      · subst hiq
        exact checkCalls_self qp none
      · exact checkCalls_other hiq none
    rw [if_pos hzero, checkCalls_append, hnone, List.append_nil]
    exact h.windows i hi
  · obtain ⟨hsh, hcred₁, hother, hown, -⟩ := checkCredits_counts h.ready hcheck
    rw [if_neg hcap]
    intro i hi
    rw [hq, hsh] at hi
    have hw := h.windows i hi
    rw [checkCalls_append]
    by_cases hiq : i = qp
    · subst hiq
      rw [checkCalls_self]
      rcases hown with hzero | ⟨hnone, hinc, hne⟩
      · exact CreditWindow.of_zero ((hcnt i).trans hzero) _
      · refine hw.count hcl ((hcnt i).trans hinc) ?_ ((hcred i (Or.inr hnone)).trans (hcred₁ i))
        rw [hcnt i]
        exact hne
    · rw [checkCalls_other (Ne.symm hiq), List.append_nil]
      refine hw.grow hcl ((hcnt i).trans (hother i hiq)) fun m _ => ?_
      rw [hcred i (Or.inl hiq), hcred₁ i]
      exact UInt16.le_refl _

/-- The rest of the program keeps the windows. -/
theorem Timing.rest {tr : List (BcastCmd μ × Option (Nat → UInt16))} {c c' : Context μ}
    {r : Nat → Around μ} (h : Timing tr c)
    (hgrow : ∀ qp ∈ c.qInfo.sharing, ∀ m ∈ c.cl.remotes, (c.qpMeta qp).credits m ≤ (r qp).credits m)
    (hrest : sendStep c (.around r) = .ok (c', ())) : Timing (tr ++ [(.rest r, none)]) c' := by
  refine ⟨(h.ready.step _).of_ok hrest, ?_⟩
  cases hrest
  intro qp hqp
  rw [checkCalls_append]
  show CreditWindow _ (checkCalls qp tr ++ []) qp
  rw [List.append_nil]
  exact (h.windows qp hqp).grow rfl rfl (hgrow qp hqp)

/-- **Every step keeps the windows.** -/
theorem Timing.step {tr : List (BcastCmd μ × Option (Nat → UInt16))} {c c' : Context μ}
    {k : BcastCmd μ} {e : Option (Nat → UInt16)} (h : Timing tr c)
    (hstep : bcastStep c k = .ok (c', e)) : Timing (tr ++ [(k, e)]) c' := by
  cases k with
  | send qp =>
    rw [bcastStep] at hstep
    split at hstep
    · rename_i hqp
      obtain ⟨c'', hsend, hstep⟩ := bind_eq_ok.mp hstep
      cases hstep
      exact h.send hqp hsend
    · nomatch hstep
  | rest r =>
    rw [bcastStep] at hstep
    split at hstep
    · rename_i hgrow
      obtain ⟨⟨c'', u⟩, hrest, hstep⟩ := bind_eq_ok.mp hstep
      cases hstep
      exact h.rest hgrow hrest
    · nomatch hstep

/-- The counters of a context that is set up are 0. -/
theorem timeOutCnt_setUp {c c₁ c₀ : Context μ} (hzero : ∀ qp, (c.qpMeta qp).timeOutCnt = 0)
    (hinit : c.initCtxSendWrs = .ok c₁) (hset : c₁.setUpQInfo = .ok c₀) (qp : Nat) :
    (c₀.qpMeta qp).timeOutCnt = 0 := by
  obtain ⟨-, -, hrest, hdone⟩ := initCtxSendWrs_spec hinit
  obtain ⟨q, -, hset⟩ := bind_eq_ok.mp hset
  cases hset
  show (c₁.qpMeta qp).timeOutCnt = 0
  by_cases hlt : qp < c.qpNum
  · obtain ⟨s, -, hm⟩ := hdone qp hlt
    rw [hm]
    exact hzero qp
  · rw [hrest qp (by omega)]
    exact hzero qp

/-- The windows hold in every reachable state. -/
theorem timing_run {c c₁ c₀ c' : Context μ}
    {tr : List (BcastCmd μ × Option (Nat → UInt16))} (hnew : Created c)
    (hzero : ∀ qp, (c.qpMeta qp).timeOutCnt = 0) (hinit : c.initCtxSendWrs = .ok c₁)
    (hset : c₁.setUpQInfo = .ok c₀) (hrun : Run bcastStep c₀ tr c') : Timing tr c' := by
  refine hrun.invariant (fun tr c => Timing tr c) ?_ ?_
  · refine ⟨ready_setUp hnew hinit hset, fun qp _ => ?_⟩
    exact CreditWindow.of_zero (timeOutCnt_setUp hzero hinit hset qp) _
  · intro tr c k c' e _ h hstep
    exact h.step hstep

/-! ## The result -/

/-- **A time-out makes only those machines missing that had no credits in each of the last
    `CREDIT_TIMEOUT` calls of `check_bcast_credits` for this QP**, whatever the other QPs and
    the rest of the program did in between.  `ctx_send_broadcasts` asks for one credit. -/
theorem times_out_slow {c c₁ c₀ c' c'' : Context μ}
    {tr : List (BcastCmd μ × Option (Nat → UInt16))} {qp m : Nat} {found : Option (Nat → UInt16)}
    (hnew : Created c) (hzero : ∀ qp, (c.qpMeta qp).timeOutCnt = 0)
    (hinit : c.initCtxSendWrs = .ok c₁) (hset : c₁.setUpQInfo = .ok c₀)
    (hrun : Run bcastStep c₀ tr c') (hstep : bcastStep c' (.send qp) = .ok (c'', found))
    (hactive : m ∈ c'.qInfo.active) (hmissing : m ∈ c''.qInfo.missing) :
    ∃ before last, checkCalls qp (tr ++ [(.send qp, found)]) = before ++ last ∧
      last.length = creditTimeout ∧ ∀ credits ∈ last, credits m < 1 := by
  have h := timing_run hnew hzero hinit hset hrun
  obtain ⟨up, ha⟩ := h.ready.agrees
  rw [bcastStep] at hstep
  split at hstep
  · rename_i hqp
    obtain ⟨c₂, hsend, hstep⟩ := bind_eq_ok.mp hstep
    cases hstep
    rw [checkCalls_append, checkCalls_self]
    rcases ctxSendBroadcasts_cases hsend with ⟨-, rfl⟩ | ⟨hcap, c₃, answer, hcheck, -, hq, -, -⟩
    · exact absurd hmissing (ha.not_missing hactive)
    · rw [if_neg hcap]
      rw [hq] at hmissing
      obtain ⟨-, -, -, -, hmiss⟩ := checkCredits_counts h.ready hcheck
      obtain ⟨hcnt, hnone⟩ := hmiss m hactive hmissing
      exact (h.windows qp hqp).times_out (ha.mem_active.mp hactive).1 hcnt hnone
  · nomatch hstep

/-! ## A run that times out -/

/-- A QP that has a message to send, and no credits of machine `m`, after `n` calls. -/
structure Stalls (q : QuorumInfo) (qp m n : Nat) (c : Context μ) : Prop where
  cl : c.cl = .three
  qInfo : c.qInfo = q
  message : ((c.qpMeta qp).sendFifo 0).netCapacity ≠ 0
  credits : (c.qpMeta qp).credits m = 0
  timeOutCnt : (c.qpMeta qp).timeOutCnt = n

namespace Stalls

variable {q : QuorumInfo} {qp m n : Nat} {c : Context μ}

theorem low (h : Stalls q qp m n c) (hm : m ∈ q.active) :
    (c.reconf qp).qInfo.active.any (fun m => decide ((c.qpMeta qp).credits m < 1)) = true := by
  show c.qInfo.active.any _ = true
  rw [h.qInfo]
  refine List.any_eq_true.mpr ⟨m, hm, ?_⟩
  rw [h.credits]
  decide

/-- One more call. -/
theorem step (h : Stalls q qp m n c) (hqp : qp ∈ q.sharing) (hm : m ∈ q.active)
    (hn : n + 1 < creditTimeout) :
    ∃ c', bcastStep c (.send qp) = .ok (c', some (c.qpMeta qp).credits) ∧
      Stalls q qp m (n + 1) c' := by
  let c' := c.withReconf qp { c.reconf qp with timeOutCnt := n + 1 }
  have hcheck : c.checkCredits qp 1 = .ok (c', none) := by
    have hreconf : checkBcastCredits c.cl (fun qp m => (c.qpMeta qp).credits m)
        (c.qpMeta qp).credits 1 (c.reconf qp)
        = .ok ({ c.reconf qp with timeOutCnt := n + 1 }, none) := by
      rw [← h.timeOutCnt]
      refine checkBcastCredits_waits (r := c.reconf qp) (m := m) ?_ ?_ ?_
      · show m ∈ c.qInfo.active
        rw [h.qInfo]
        exact hm
      · rw [h.credits]
        decide
      · show (c.qpMeta qp).timeOutCnt + 1 < creditTimeout
        rw [h.timeOutCnt]
        exact hn
    unfold Context.checkCredits
    rw [hreconf]
    rfl
  have hsend : c.ctxSendBroadcasts qp = .ok c' := by
    unfold Context.ctxSendBroadcasts
    rw [if_neg h.message, hcheck]
    rfl
  refine ⟨c', ?_, h.cl, h.qInfo, h.message, h.credits, if_pos rfl⟩
  rw [bcastStep, h.qInfo, if_pos hqp, hsend, if_neg h.message]
  rfl

/-- Any number of calls short of the time-out. -/
theorem run {c₀ : Context μ} (h : Stalls q qp m 0 c₀) (hqp : qp ∈ q.sharing) (hm : m ∈ q.active)
    (n : Nat) (hn : n < creditTimeout) :
    ∃ tr c, Run bcastStep c₀ tr c ∧ Stalls q qp m n c := by
  induction n with
  | zero => exact ⟨[], c₀, .start, h⟩
  | succ n ih =>
    obtain ⟨tr, c, hrun, hc⟩ := ih (by omega)
    obtain ⟨c', hstep, hc'⟩ := hc.step hqp hm hn
    exact ⟨_, c', .snoc hrun hstep, hc'⟩

/-- The call that times out makes the machine missing. -/
theorem last (h : Stalls q qp m (creditTimeout - 1) c) (hqp : qp ∈ q.sharing) (hm : m ∈ q.active)
    (hrm : m ∈ Cluster.three.remotes) :
    ∃ c', bcastStep c (.send qp) = .ok (c', some (c.qpMeta qp).credits) ∧ m ∈ c'.qInfo.missing := by
  have hcnt : u32 ((c.qpMeta qp).timeOutCnt + 1) = creditTimeout := by
    rw [h.timeOutCnt]
    decide
  obtain ⟨q', hq'⟩ : ∃ q', updateQInfo c.cl c.qInfo (c.qpMeta qp).credits 1 = .ok q' := by
    rw [h.cl]
    exact ⟨_, rfl⟩
  have hfit : c.cl.remMachNum < 2 ^ 8 := by
    rw [h.cl]
    decide
  obtain ⟨r, hr⟩ := relink_returns hfit
    ⟨q', fun i => (c.qpMeta i).send, creditTimeout⟩
  let c' := c.withReconf qp { r with timeOutCnt := 0 }
  have hcheck : c.checkCredits qp 1 = .ok (c', none) := by
    have hreconf : checkBcastCredits c.cl (fun qp m => (c.qpMeta qp).credits m)
        (c.qpMeta qp).credits 1 (c.reconf qp) = .ok ({ r with timeOutCnt := 0 }, none) := by
      unfold checkBcastCredits
      rw [if_pos (h.low hm)]
      dsimp only [Context.reconf]
      rw [hcnt, if_pos rfl, hq', ok_bind, hr]
      rfl
    unfold Context.checkCredits
    rw [hreconf]
    rfl
  have hsend : c.ctxSendBroadcasts qp = .ok c' := by
    unfold Context.ctxSendBroadcasts
    rw [if_neg h.message, hcheck]
    rfl
  refine ⟨c', ?_, ?_⟩
  · rw [bcastStep, h.qInfo, if_pos hqp, hsend, if_neg h.message]
    rfl
  · show m ∈ r.qInfo.missing
    obtain ⟨ha, -⟩ := updateQInfo_agrees hq'
    rw [(relink_eq hr).1, ha.splits.missing, List.mem_filter, h.cl, h.credits]
    exact ⟨hrm, by decide⟩

end Stalls

/-- The worker of `bcastWorker` with one credit for each machine, and two messages. -/
def slowWorker : Context Unit :=
  { bcastWorker with
    qpMeta := fun _ => { bcastWorker.qpMeta 0 with
      maxCredits := 1
      credits := fun _ => 1
      sendFifo := fun _ => { fifoConstructor 4 64 8 with
        slotMeta := fun _ => ⟨1, 16, 0, 0⟩, capacity := 2, netCapacity := 2 } } }

/-- It sends one message, and times out on the other. -/
theorem times_out_slow_two : ∃ c₁ c₀ tr c' c'' found, slowWorker.initCtxSendWrs = .ok c₁ ∧
    c₁.setUpQInfo = .ok c₀ ∧ Run bcastStep c₀ tr c' ∧
    bcastStep c' (.send 0) = .ok (c'', found) ∧ 1 ∈ c'.qInfo.active ∧ 1 ∈ c''.qInfo.missing ∧
    ∃ before last, checkCalls 0 (tr ++ [(.send 0, found)]) = before ++ last ∧
      last.length = creditTimeout ∧ ∀ credits ∈ last, credits 1 < 1 := by
  have hbatch : 63 = qpMetaSsBatch .sendBcastRecvUni 2 8 := by decide
  have hnew : Created slowWorker := ⟨fun _ => hbatch, fun _ => rfl, fun _ => rfl⟩
  have hcalls : (do
      let c₁ ← slowWorker.initCtxSendWrs
      let c₀ ← c₁.setUpQInfo
      let (c, _) ← bcastStep c₀ (.send 0)
      return (c.qInfo.sharing, c.qInfo.active, ((c.qpMeta 0).sendFifo 0).netCapacity,
        ((c.qpMeta 0).credits 1).toNat, (c.qpMeta 0).timeOutCnt)
      : Outcome (List Nat × List Nat × Nat × Nat × Nat)) = .ok ([0], [1, 2], 1, 0, 0) := by
    decide +kernel
  obtain ⟨c₁, h₁, hcalls⟩ := bind_eq_ok.mp hcalls
  obtain ⟨c₀, h₀, hcalls⟩ := bind_eq_ok.mp hcalls
  obtain ⟨⟨c, e⟩, hsend, hcalls⟩ := bind_eq_ok.mp hcalls
  simp only [pure, Except.pure, Except.ok.injEq, Prod.mk.injEq] at hcalls
  obtain ⟨hsh, hact, hcap, hcred, hcnt⟩ := hcalls
  have hcl : c.cl = .three := by
    obtain ⟨hcl₁, -⟩ := initCtxSendWrs_spec h₁
    obtain ⟨q, -, hc₀⟩ := bind_eq_ok.mp h₀
    cases hc₀
    rw [bcastStep] at hsend
    split at hsend
    · obtain ⟨c', hc', hsend⟩ := bind_eq_ok.mp hsend
      cases hsend
      exact (ctxSendBroadcasts_cl hc').trans hcl₁
    · nomatch hsend
  have hstart : Stalls c.qInfo 0 1 0 c := by
    refine ⟨hcl, rfl, ?_, UInt16.toNat_inj.mp hcred, hcnt⟩
    rw [hcap]
    decide
  have hqp : 0 ∈ c.qInfo.sharing := by
    rw [hsh]
    exact List.mem_singleton_self 0
  have hm : 1 ∈ c.qInfo.active := by
    rw [hact]
    decide
  obtain ⟨tr, c', hrun, hc'⟩ := hstart.run hqp hm (creditTimeout - 1) (by decide)
  obtain ⟨c'', hstep, hmissing⟩ := hc'.last hqp hm (by decide)
  have hactive : 1 ∈ c'.qInfo.active := by
    rw [hc'.qInfo]
    exact hm
  have hruns := (Run.single hsend).trans hrun
  exact ⟨c₁, c₀, _, c', c'', _, h₁, h₀, hruns, hstep, hactive, hmissing,
    times_out_slow hnew (fun _ => rfl) h₁ h₀ hruns hstep hactive hmissing⟩

end Odyssey
