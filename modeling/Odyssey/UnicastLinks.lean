/-
  THE CHAIN OF A BATCH OF UNICASTS OR ACKS.

  A unicast, or an ack, is one work request.  A batch is forged by linking each work request
  behind the one before: `Chained` holds of the work requests forged so far, whatever links were
  left in the array by earlier batches.  The last one is set to NULL when the batch is posted, so
  the NIC takes exactly the work requests that were forged, in order.

  A batch of unicasts fills the array from 0 on.  A batch of acks visits the slots that hold a
  pending ack, in the order of the machine ids; `odSendAcks_ends` says that these acks are posted
  in one chain, that nothing else is posted, and that exactly their slots are free again.
-/
import Odyssey.Signaling
import Odyssey.BroadcastLinks
import Mathlib.Data.List.Perm.Subperm

namespace Odyssey

open Lib

/-! ## Signaling one message -/

/-- What `selective_signaling_for_unicast` does to the queue. -/
structure Signaled (ssBatch a : Nat) (inl : Bool) (s s' : SendQueue) : Prop where
  wr : s'.sendWr = Function.update s.sendWr a
    { s.sendWr a with inlined := inl, signaled := s.sentTx % ssBatch == 0 }
  sgl : s'.sendSgl = s.sendSgl
  tx : s'.sentTx = u64 (s.sentTx + 1)
  log : s'.log = s.log ++ (if s.sentTx % ssBatch = 0 then [.flagged] else [])
    ++ (if s.sentTx % ssBatch = ssBatch - 1 then [.polled] else [])

theorem selectiveSignalingForUnicast_ends {E : Stuck → Prop} {ssBatch a : Nat} {inl : Bool}
    (s : SendQueue)
    (hE : s.sentTx % ssBatch = ssBatch - 1 → E .waiting ∨ polls s.log < completions s.log) :
    Ends E (s.selectiveSignalingForUnicast ssBatch a inl) (Signaled ssBatch a inl s) := by
  obtain ⟨s₁, hs₁⟩ : ∃ s₁, s₁ = (if (s.setFlags a inl).sentTx % ssBatch = 0 then
      (s.setFlags a inl).flagSignaled a else s.setFlags a inl) := ⟨_, rfl⟩
  have hflag : s₁.sendWr = Function.update s.sendWr a
        { s.sendWr a with inlined := inl, signaled := s.sentTx % ssBatch == 0 } ∧
      s₁.sendSgl = s.sendSgl ∧ s₁.sentTx = s.sentTx ∧
      s₁.log = s.log ++ (if s.sentTx % ssBatch = 0 then [.flagged] else []) ∧
      polls s₁.log = polls s.log ∧ completions s₁.log = completions s.log := by
    have htx : (s.setFlags a inl).sentTx = s.sentTx := rfl
    rw [htx] at hs₁
    by_cases h0 : s.sentTx % ssBatch = 0
    · rw [if_pos h0] at hs₁ ⊢
      subst hs₁
      obtain ⟨-, hpolls, hcomps, -⟩ := counts_flagged s.log
      refine ⟨?_, rfl, rfl, rfl, hpolls, hcomps⟩
      simp [SendQueue.flagSignaled, SendQueue.setFlags, h0]
    · rw [if_neg h0] at hs₁ ⊢
      subst hs₁
      refine ⟨?_, rfl, rfl, (List.append_nil _).symm, rfl, rfl⟩
      rw [beq_eq_false_iff_ne.mpr h0]
      rfl
  obtain ⟨hwr, hsgl, htx, hlog, hpolls, hcomps⟩ := hflag
  have hpoll : Ends E (if s₁.sentTx % ssBatch = ssBatch - 1 then s₁.pollCq else pure s₁)
      fun s₂ => s₂ = { s₁ with
        log := s₁.log ++ (if s.sentTx % ssBatch = ssBatch - 1 then [.polled] else []) } := by
    by_cases hp : s.sentTx % ssBatch = ssBatch - 1
    · rw [if_pos (by rw [htx]; exact hp), if_pos hp]
      refine (s₁.pollCq_ends ?_).mono fun s₂ h => h.1
      rw [hpolls, hcomps]
      exact hE hp
    · rw [if_neg (by rw [htx]; exact hp), if_neg hp, List.append_nil]
      exact Ends.ok rfl
  have hform : s.selectiveSignalingForUnicast ssBatch a inl =
      ((if s₁.sentTx % ssBatch = ssBatch - 1 then s₁.pollCq else pure s₁) >>= fun s =>
        pure s.incrSentTx) := by
    rw [hs₁]
    rfl
  rw [hform]
  refine hpoll.bind ?_
  rintro s₂ rfl
  refine Ends.ok ⟨hwr, hsgl, ?_, ?_⟩
  · show u64 (s₁.sentTx + 1) = _
    rw [htx]
  · show s₁.log ++ _ = _
    rw [hlog]

/-! ## Chains -/

/-- Work requests out of `n`, each once, are at most `n`. -/
theorem length_le_of_bounded {l : List Nat} {n : Nat} (hnodup : l.Nodup)
    (hb : ∀ a ∈ l, a < n) : l.length ≤ n := by
  have hsub : l ⊆ List.range n := fun a ha => List.mem_range.mpr (hb a ha)
  have hle := (hnodup.subperm hsub).length_le
  rwa [List.length_range] at hle

/-- The work requests `l`, out of `sendWrNum`, were forged in this order, and one of them is
    signaled if `flagged`. -/
structure Chained (sendWrNum : Nat) (l : List Nat) (flagged : Bool) (s : SendQueue) : Prop where
  links : l.IsChain (fun a b => (s.sendWr a).next = some b)
  nodup : l.Nodup
  bounded : ∀ a ∈ l, a < sendWrNum
  signaled : flagged = true → ∃ a ∈ l, (s.sendWr a).signaled = true

namespace Chained

variable {sendWrNum : Nat} {l : List Nat} {flagged : Bool} {s s' : SendQueue}

theorem nil (s : SendQueue) : Chained sendWrNum [] false s :=
  ⟨List.isChain_nil, List.nodup_nil, fun _ h => (nomatch h), fun h => nomatch h⟩

/-- Work requests outside the chain may change. -/
theorem congr (h : Chained sendWrNum l flagged s)
    (heq : ∀ a ∈ l, (s'.sendWr a).next = (s.sendWr a).next ∧
      (s'.sendWr a).signaled = (s.sendWr a).signaled) : Chained sendWrNum l flagged s' := by
  refine ⟨isChain_congr h.links fun a ha => (heq a (List.dropLast_subset _ ha)).1, h.nodup,
    h.bounded, fun hfl => ?_⟩
  obtain ⟨a, ha, hsig⟩ := h.signaled hfl
  exact ⟨a, ha, by rw [(heq a ha).2, hsig]⟩

/-- **Forging** one more message at the end of the chain. -/
theorem forge {ssBatch a prev : Nat} {inl : Bool} (h : Chained sendWrNum l flagged s)
    (hnew : a ∉ l) (ha : a < sendWrNum) (hprev : l ≠ [] → prev ∈ l.getLast?)
    (hs : Signaled ssBatch a inl s s') :
    Chained sendWrNum (l ++ [a]) (flagged || s.sentTx % ssBatch == 0)
      (if 0 < l.length then s'.setNext prev (some a) else s') := by
  have hold : ∀ b ∈ l, s'.sendWr b = s.sendWr b := by
    intro b hb
    rw [hs.wr, Function.update_of_ne]
    rintro rfl
    exact hnew hb
  have hself : (s'.sendWr a).signaled = (s.sentTx % ssBatch == 0) := by
    rw [hs.wr, Function.update_self]
  have hsig : ∀ b, ((if 0 < l.length then s'.setNext prev (some a) else s').sendWr b).signaled
      = (s'.sendWr b).signaled := by
    intro b
    split
    · exact (Relinks.setNext ..).signaled b
    · rfl
  refine ⟨?_, ?_, fun b hb => ?_, fun hfl => ?_⟩
  · by_cases hl : l = []
    · subst hl
      exact List.isChain_singleton a
    · have hlast := hprev hl
      obtain ⟨hne, hlast'⟩ := List.mem_getLast?_eq_getLast hlast
      rw [if_pos (List.length_pos_of_ne_nil hl), List.isChain_append]
      refine ⟨isChain_congr h.links fun b hb => ?_, List.isChain_singleton a, ?_⟩
      · rw [SendQueue.next_setNext_ne, hold b (List.dropLast_subset _ hb)]
        rintro rfl
        have hnodup := h.nodup
        rw [← List.dropLast_append_getLast hne, ← hlast'] at hnodup
        exact (List.nodup_append'.mp hnodup).2.2 hb (by simp)
      · intro x hx y hy
        rw [Option.mem_def.mp hlast] at hx
        have hx' : prev = x := Option.some.inj hx
        have hy' : a = y := by simpa using hy
        rw [← hx', ← hy']
        exact SendQueue.next_setNext_self ..
  · rw [List.nodup_append']
    refine ⟨h.nodup, List.nodup_singleton a, fun b hb hb' => ?_⟩
    rw [List.mem_singleton] at hb'
    subst hb'
    exact hnew hb
  · rcases List.mem_append.mp hb with hb | hb
    · exact h.bounded b hb
    · rw [List.mem_singleton] at hb
      subst hb
      exact ha
  · rw [Bool.or_eq_true] at hfl
    rcases hfl with hfl | hfl
    · obtain ⟨b, hb, hbsig⟩ := h.signaled hfl
      refine ⟨b, List.mem_append_left _ hb, ?_⟩
      rw [hsig, hold b hb, hbsig]
    · exact ⟨a, by simp, by rw [hsig, hself, hfl]⟩

/-- **Posting** the chain: the NIC takes the forged work requests, in order. -/
theorem post {first last : Nat} (h : Chained sendWrNum l flagged s)
    (hfirst : first ∈ l.head?) (hlast : last ∈ l.getLast?) (num : Nat) :
    ∃ s' chain, (s.setNext last none).ibvPostSend sendWrNum num first = .ok s' ∧
      chain = l.map (s.setNext last none).posted ∧ (flagged = true → 0 < signals chain) ∧
      s'.sendWr = (s.setNext last none).sendWr ∧ s'.sendSgl = s.sendSgl ∧
      s'.sentTx = s.sentTx ∧ s'.log = s.log ++ [.posted num chain] := by
  obtain ⟨l', rfl⟩ : ∃ l', l = first :: l' := by
    cases l with
    | nil => nomatch hfirst
    | cons x l' => exact ⟨l', by rw [Option.some.inj hfirst]⟩
  obtain ⟨hne, hlast'⟩ := List.mem_getLast?_eq_getLast hlast
  have hchain : (first :: l').IsChain
      (fun a b => ((s.setNext last none).sendWr a).next = some b) := by
    refine isChain_congr h.links fun a ha => SendQueue.next_setNext_ne _ _ ?_
    rintro rfl
    have hnodup := h.nodup
    rw [← List.dropLast_append_getLast hne, ← hlast'] at hnodup
    exact (List.nodup_append'.mp hnodup).2.2 ha (by simp)
  have hfollows : Follows (fun i => ((s.setNext last none).sendWr i).next) (some first)
      (first :: l') := by
    refine follows_of_isChain hchain ?_
    rw [← hlast']
    exact SendQueue.next_setNext_self ..
  have hwalk := follow_of_follows hfollows (length_le_of_bounded h.nodup h.bounded)
  let s₁ := s.setNext last none
  refine ⟨{ s₁ with log := s₁.log ++ [.posted num ((first :: l').map s₁.posted)] },
    (first :: l').map s₁.posted, ?_, rfl, fun hfl => ?_, rfl, rfl, rfl, rfl⟩
  · unfold SendQueue.ibvPostSend
    rw [hwalk]
  · obtain ⟨a, ha, hsig⟩ := h.signaled hfl
    refine List.countP_pos_iff.mpr ⟨s₁.posted a, List.mem_map.mpr ⟨a, ha, rfl⟩, ?_⟩
    show (s₁.sendWr a).signaled = true
    rw [(Relinks.setNext ..).signaled, hsig]

end Chained

/-! ## Batches -/

/-- The work requests lead to the same machines and carry the same data. -/
structure Keeps (s s' : SendQueue) : Prop where
  ah : ∀ i, (s'.sendWr i).ah = (s.sendWr i).ah
  sgList : ∀ i, (s'.sendWr i).sgList = (s.sendWr i).sgList
  sgl : s'.sendSgl = s.sendSgl

namespace Keeps

variable {s s' s'' : SendQueue}

theorem refl (s : SendQueue) : Keeps s s := ⟨fun _ => rfl, fun _ => rfl, rfl⟩

theorem trans (h : Keeps s s') (h' : Keeps s' s'') : Keeps s s'' :=
  ⟨fun i => (h'.ah i).trans (h.ah i), fun i => (h'.sgList i).trans (h.sgList i),
    h'.sgl.trans h.sgl⟩

theorem setNext (s : SendQueue) (i : Nat) (p : Option Nat) : Keeps s (s.setNext i p) :=
  ⟨(Relinks.setNext s i p).ah, (Relinks.setNext s i p).sgList, rfl⟩

/-- Signaling a message only sets its flags. -/
theorem signaled {ssBatch a : Nat} {inl : Bool} (h : Signaled ssBatch a inl s s') :
    Keeps s s' := by
  refine ⟨fun i => ?_, fun i => ?_, h.sgl⟩ <;> rw [h.wr] <;> by_cases hi : i = a
  · subst hi
    rw [Function.update_self]
  · rw [Function.update_of_ne hi]
  · subst hi
    rw [Function.update_self]
  · rw [Function.update_of_ne hi]

/-- What the NIC reads from a work request. -/
theorem posted (h : Keeps s s') (i : Nat) :
    (s'.posted i).wr = i ∧ (s'.posted i).ah = (s.posted i).ah ∧
      (s'.posted i).sge = (s.posted i).sge := by
  refine ⟨rfl, h.ah i, ?_⟩
  show s'.sendSgl (s'.sendWr i).sgList = s.sendSgl (s.sendWr i).sgList
  rw [h.sgl, h.sgList]

end Keeps

/-- A batch under construction: its work requests are chained, the queue is paced, and nothing was
    posted since the log was `log`. -/
structure UniBatch (sendWrNum ssBatch : Nat) (log : List SendEvent) (l : List Nat)
    (s : SendQueue) : Prop where
  forged : ∃ flagged, Chained sendWrNum l flagged s ∧
    Paced ssBatch (ssBatch - 1) l.length flagged s
  posts_eq : posts s.log = posts log

namespace UniBatch

variable {sendWrNum ssBatch : Nat} {log : List SendEvent} {l : List Nat} {s s' : SendQueue}

theorem start (h : Paced ssBatch (ssBatch - 1) 0 false s) :
    UniBatch sendWrNum ssBatch s.log [] s := ⟨⟨false, .nil s, h⟩, rfl⟩

/-- Links and flags of the work requests in the batch must stay. -/
theorem congr (b : UniBatch sendWrNum ssBatch log l s)
    (heq : ∀ a ∈ l, (s'.sendWr a).next = (s.sendWr a).next ∧
      (s'.sendWr a).signaled = (s.sendWr a).signaled)
    (htx : s'.sentTx = s.sentTx) (hlog : s'.log = s.log) :
    UniBatch sendWrNum ssBatch log l s' := by
  obtain ⟨⟨flagged, hchain, hpace⟩, hposts⟩ := b
  exact ⟨⟨flagged, hchain.congr heq, hpace.congr htx hlog⟩, by rw [hlog, hposts]⟩

/-- **Forging** one more message never waits, and links it behind the others. -/
theorem forge {E : Stuck → Prop} {a prev : Nat} (inl : Bool) (hss : sendWrNum + 2 ≤ ssBatch)
    (b : UniBatch sendWrNum ssBatch log l s) (hnew : a ∉ l) (ha : a < sendWrNum)
    (hprev : l ≠ [] → prev ∈ l.getLast?) :
    Ends E (s.selectiveSignalingForUnicast ssBatch a inl) fun s' =>
      Signaled ssBatch a inl s s' ∧ UniBatch sendWrNum ssBatch log (l ++ [a])
        (if 0 < l.length then s'.setNext prev (some a) else s') := by
  obtain ⟨⟨flagged, hchain, hpace⟩, hposts⟩ := b
  have hlen : l.length < ssBatch - 1 := by
    have hle := length_le_of_bounded hchain.nodup hchain.bounded
    omega
  refine (selectiveSignalingForUnicast_ends s fun hpoll => Or.inr (hpace.ready hlen hpoll)).mono ?_
  intro s' hs
  have hpace' : Paced ssBatch (ssBatch - 1) (l.length + 1)
      (flagged || s.sentTx % ssBatch == 0) s' := by
    refine hpace.forge (decide (s.sentTx % ssBatch = ssBatch - 1)) hlen (by omega)
      (fun hp => of_decide_eq_true hp) (fun hw => Or.inl (decide_eq_true hw)) hs.tx ?_
    rw [hs.log]
    simp only [decide_eq_true_eq]
  have hposts' : posts s'.log = posts log := by
    rw [hs.log, posts_append, posts_append, hposts]
    split <;> split <;> simp [posts]
  refine ⟨hs, ⟨_, hchain.forge hnew ha hprev hs, ?_⟩, ?_⟩
  · rw [List.length_append, List.length_singleton]
    refine hpace'.congr ?_ ?_ <;> split <;> rfl
  · rw [← hposts']
    split <;> rfl

/-- **Posting** the batch. -/
theorem post {first last : Nat} (b : UniBatch sendWrNum ssBatch log l s)
    (hfirst : first ∈ l.head?) (hlast : last ∈ l.getLast?) :
    ∃ s', (s.setNext last none).ibvPostSend sendWrNum l.length first = .ok s' ∧ Keeps s s' ∧
      Paced ssBatch (ssBatch - 1) 0 false s' ∧
      posts s'.log = posts log ++ [(l.length, l.map (s.setNext last none).posted)] := by
  obtain ⟨⟨flagged, hchain, hpace⟩, hposts⟩ := b
  obtain ⟨s', chain, hpost, hc, hsig, hwr, hsgl, htx, hlog⟩ := hchain.post hfirst hlast l.length
  have hkeeps : Keeps s s' := by
    have hnull := Keeps.setNext s last none
    exact ⟨fun i => by rw [hwr, hnull.ah], fun i => by rw [hwr, hnull.sgList], hsgl⟩
  refine ⟨s', hpost, hkeeps, hpace.post hsig htx hlog, ?_⟩
  rw [hlog, posts_append, hposts, hc]
  rfl

end UniBatch

/-! ## ctx_send_unicasts -/

/-- A call that is stuck, but neither waiting for a completion nor with a chain that the NIC does
    not take. -/
def Proceeds (e : Stuck) : Prop := e ≠ .waiting ∧ e ≠ .aborted

section Unicasts

variable {μ : Type}

/-- One round forges one message. -/
theorem unicastRound_ends {m : PerQpMeta μ} {log : List SendEvent} {mesI : Nat} (fifoI : Nat)
    (hss : m.sendWrNum + 2 ≤ m.ssBatch)
    (b : UniBatch m.sendWrNum m.ssBatch log (List.range mesI) m.send) :
    Ends Proceeds (Context.unicastRound m fifoI mesI) fun m' =>
      m'.toQpConf = m.toQpConf ∧
      UniBatch m.sendWrNum m.ssBatch log (List.range (mesI + 1)) m'.send := by
  unfold Context.unicastRound Context.ctxForgeUnicastWr
  by_cases hroom : mesI < m.sendWrNum
  · rw [if_pos hroom]
    let f := m.sendFifo fifoI
    let s := (m.send.setSge mesI ⟨f.getFifoPullSlot, f.getFifoSlotMetaPull.byteSize⟩).setAh mesI
      (u8 f.getFifoSlotMetaPull.rmId)
    have hs : UniBatch m.sendWrNum m.ssBatch log (List.range mesI) s := by
      refine b.congr (fun a ha => ?_) rfl rfl
      have hne : a ≠ mesI := by
        have := List.mem_range.mp ha
        omega
      simp [s, SendQueue.setAh, SendQueue.setSge, hne]
    have hnew : mesI ∉ List.range mesI := by simp
    have hprev : List.range mesI ≠ [] → mesI - 1 ∈ (List.range mesI).getLast? := by
      intro hne
      cases mesI with
      | zero => exact absurd rfl hne
      | succ k =>
        rw [List.range_succ, List.getLast?_concat]
        rfl
    have hforge := hs.forge (E := Proceeds) m.enableInlining hss hnew hroom hprev
    rw [List.length_range, ← List.range_succ] at hforge
    refine Ends.bind (P := fun m' => m'.toQpConf = m.toQpConf ∧
      UniBatch m.sendWrNum m.ssBatch log (List.range (mesI + 1)) m'.send) ?_ ?_
    · exact hforge.bind fun s' hs' => Ends.ok ⟨rfl, hs'.2⟩
    · rintro m' ⟨hconf, hb⟩
      exact Ends.ok ⟨hconf, hb⟩
  · rw [if_neg hroom]
    exact Ends.error ⟨by decide, by decide⟩

theorem unicastLoop_ends {m : PerQpMeta μ} {log : List SendEvent} {mesI : Nat} (fifoI n : Nat)
    (hss : m.sendWrNum + 2 ≤ m.ssBatch)
    (b : UniBatch m.sendWrNum m.ssBatch log (List.range mesI) m.send) :
    Ends Proceeds (Context.unicastLoop fifoI n m mesI) fun p =>
      p.1.toQpConf = m.toQpConf ∧
      UniBatch m.sendWrNum m.ssBatch log (List.range p.2) p.1.send := by
  induction n generalizing m mesI with
  | zero => exact Ends.ok ⟨rfl, b⟩
  | succ n ih =>
    unfold Context.unicastLoop
    split
    · refine (unicastRound_ends fifoI hss b).bind ?_
      rintro m' ⟨hconf, hb⟩
      rw [← hconf] at hss hb ⊢
      exact ih hss hb
    · exact Ends.ok ⟨rfl, b⟩

end Unicasts

/-! ## od_send_acks -/

/-- The slots below `n` with an ack that is not sent yet, in order. -/
def pendingAcks (acks : Nat → CtxAckMes) (n : Nat) : List Nat :=
  (List.range n).filter fun i => (acks i).opcode ≠ opAck

/-- The slots below `n` are free again. -/
def rearmed (acks : Nat → CtxAckMes) (n : Nat) : Nat → CtxAckMes := fun i =>
  if i < n then { acks i with opcode := opAck } else acks i

theorem pendingAcks_succ (acks : Nat → CtxAckMes) (n : Nat) :
    pendingAcks acks (n + 1) =
      pendingAcks acks n ++ if (acks n).opcode = opAck then [] else [n] := by
  unfold pendingAcks
  rw [List.range_succ, List.filter_append]
  by_cases h : (acks n).opcode = opAck <;> simp [h]

theorem mem_pendingAcks {acks : Nat → CtxAckMes} {n i : Nat} :
    i ∈ pendingAcks acks n ↔ i < n ∧ (acks i).opcode ≠ opAck := by
  simp [pendingAcks]

theorem length_pendingAcks_le (acks : Nat → CtxAckMes) (n : Nat) :
    (pendingAcks acks n).length ≤ n := by
  have hle : (pendingAcks acks n).length ≤ (List.range n).length := List.length_filter_le ..
  rwa [List.length_range] at hle

/-- The loop of `od_send_acks` after the slots below `n`: their acks are forged, in order. -/
structure AckBatch (sendWrNum ssBatch : Nat) (s : SendQueue) (acks : Nat → CtxAckMes)
    (n : Nat) (l : Context.AckLoop) : Prop where
  acks_eq : l.acks = rearmed acks n
  batch : UniBatch sendWrNum ssBatch s.log (pendingAcks acks n) l.send
  keeps : Keeps s l.send
  ackI : l.ackI = (pendingAcks acks n).length
  last : pendingAcks acks n ≠ [] → l.prevAckI ∈ (pendingAcks acks n).getLast?
  first : pendingAcks acks n ≠ [] → l.firstWr ∈ (pendingAcks acks n).head?

/-- One round skips a free slot, or forges the ack of a pending one. -/
theorem ackRound_ends {sendWrNum ssBatch n : Nat} {s : SendQueue}
    {acks : Nat → CtxAckMes} {l : Context.AckLoop} (hss : sendWrNum + 2 ≤ ssBatch) (hn : n + 1 < 2 ^ 8)
    (b : AckBatch sendWrNum ssBatch s acks n l) :
    Ends Proceeds (Context.ackRound sendWrNum ssBatch l n)
      (AckBatch sendWrNum ssBatch s acks (n + 1)) := by
  have hslot : l.acks n = acks n := by
    rw [b.acks_eq, rearmed, if_neg (Nat.lt_irrefl n)]
  have hrearm : rearmed acks (n + 1) =
      Function.update (rearmed acks n) n { acks n with opcode := opAck } := by
    funext i
    by_cases hi : i = n
    · subst hi
      rw [Function.update_self, rearmed, if_pos (Nat.lt_succ_self i)]
    · rw [Function.update_of_ne hi]
      unfold rearmed
      by_cases hlt : i < n
      · rw [if_pos hlt, if_pos (by omega)]
      · rw [if_neg hlt, if_neg (by omega)]
  unfold Context.ackRound
  rw [hslot]
  by_cases hfree : (acks n).opcode = opAck
  · rw [if_pos hfree]
    have hpend : pendingAcks acks (n + 1) = pendingAcks acks n := by
      rw [pendingAcks_succ, if_pos hfree, List.append_nil]
    have hsame : rearmed acks (n + 1) = rearmed acks n := by
      have hself : rearmed acks n n = { acks n with opcode := opAck } := by
        rw [rearmed, if_neg (Nat.lt_irrefl n), ← hfree]
      rw [hrearm, ← hself, Function.update_eq_self]
    refine Ends.ok ⟨by rw [hsame]; exact b.acks_eq, ?_, b.keeps, ?_, ?_, ?_⟩ <;> rw [hpend]
    · exact b.batch
    · exact b.ackI
    · exact b.last
    · exact b.first
  · rw [if_neg hfree]
    have hpend : pendingAcks acks (n + 1) = pendingAcks acks n ++ [n] := by
      rw [pendingAcks_succ, if_neg hfree]
    by_cases hroom : sendWrNum ≤ n
    · rw [if_pos hroom]
      exact Ends.error ⟨by decide, by decide⟩
    · rw [if_neg hroom]
      have hnew : n ∉ pendingAcks acks n := fun h =>
        absurd (mem_pendingAcks.mp h).1 (Nat.lt_irrefl n)
      have hlen := length_pendingAcks_le acks n
      have hcnt : u8 (l.ackI + 1) = (pendingAcks acks (n + 1)).length := by
        rw [b.ackI, hpend, List.length_append, List.length_singleton]
        exact u8_of_lt (by omega)
      have hforge := b.batch.forge (E := Proceeds) true hss hnew (by omega) b.last
      refine hforge.bind ?_
      rintro s' ⟨hsig, hs'⟩
      refine Ends.ok ⟨?_, ?_, ?_, hcnt, fun _ => ?_, fun _ => ?_⟩
      · rw [hrearm, ← b.acks_eq, ← hslot]
      · rw [hpend]
        dsimp only
        rw [b.ackI]
        exact hs'
      · refine (b.keeps.trans (Keeps.signaled hsig)).trans ?_
        dsimp only
        split
        · exact Keeps.setNext ..
        · exact Keeps.refl _
      · rw [hpend, List.getLast?_concat]
        rfl
      · rw [hpend]
        dsimp only
        by_cases hnil : pendingAcks acks n = []
        · rw [hnil, if_neg (by rw [b.ackI, hnil]; exact Nat.lt_irrefl 0)]
          rfl
        · rw [if_pos (by rw [b.ackI]; exact List.length_pos_of_ne_nil hnil),
            List.head?_append_of_ne_nil _ hnil]
          exact b.first hnil

/-- **The loop** forges every pending ack. -/
theorem ackLoop_ends {sendWrNum ssBatch : Nat} {acks : Nat → CtxAckMes} {s : SendQueue} (n : Nat)
    (hss : sendWrNum + 2 ≤ ssBatch) (h : Paced ssBatch (ssBatch - 1) 0 false s) :
    Ends Proceeds (forLoop 8 n (Context.ackRound sendWrNum ssBatch) ⟨acks, s, 0, 0, 0⟩)
      (AckBatch sendWrNum ssBatch s acks n) := by
  refine Ends.forLoop ⟨by decide, by decide⟩ ?_ fun hn i l hi b => ackRound_ends hss (by omega) b
  refine ⟨?_, UniBatch.start h, Keeps.refl s, rfl, fun hne => absurd rfl hne, fun hne => absurd rfl hne⟩
  funext i
  rw [rearmed, if_neg (Nat.not_lt_zero i)]

end Odyssey
