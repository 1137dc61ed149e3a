/-
  THE ORDER OF THE PASSES over the Michael-Scott queues.

  A client goes round its sessions, and the ring of a session has five slots.  So another session of
  the first client can make its first pass, and no other, before the set-up was executed: by then
  session 0 has made its own first pass, for which all but the last two requests of the set-up had
  to be executed, and it waits for the rest before its second.

  * What such a session does in its first pass touches nothing that those two requests touch
    (`MsReq.Apart`).  So it can be put off until the set-up was executed, and the run that does so
    reaches the same state (`Starting`, `SetUpDone`).
  * In that run no other session of the first client begins too early (`SetUpFirst`), so what was
    shown under that condition holds of every run of the clients (`rounds_run`).
-/
import Odyssey.MsQueueFirst
import Odyssey.Lib.Exchange

namespace Odyssey

open Lib

variable {d : Deployment}

/-! ## Turns of the clients -/

theorem modIncr16_cases {x : Nat} (N : Nat) (hx : x < 2 ^ 16) :
    modIncr16 x N < 2 ^ 16 ∧ (modIncr16 x N = 0 ∨ modIncr16 x N = x + 1) := by
  rw [modIncr16, u16]
  split <;> omega

/-- **What a turn does.** -/
theorem msStep_cases {s s' : MsRounds} {k : Turn} {e : MsEvent} (h : d.msStep s k = .ok (s', e)) :
    d.msService.step s.sys k = .ok (s'.sys, e) ∧
      ((∃ g, k = .client g ∧ (s.sys.shared (d.clientOf g)).phase = .running ∧
          g = d.firstSession (d.clientOf g) + s.sI (d.clientOf g) ∧
          (s'.sys.session g).queue.length ≤ perSessionReqNum ∧
          s'.sI = Function.update s.sI (d.clientOf g)
            (modIncr16 (s.sI (d.clientOf g)) d.sessionsPerClient)) ∨
        ((∀ g, k = .client g → (s.sys.shared (d.clientOf g)).phase ≠ .running) ∧
          s'.sI = s.sI)) := by
  cases k with
  | client g =>
    simp only [Deployment.msStep] at h
    split at h
    · rename_i hrunning
      split at h
      · rename_i hturn
        obtain ⟨⟨sys, e'⟩, hstep, h⟩ := bind_eq_ok.mp h
        dsimp only at h
        split at h
        · rename_i hfits
          cases h
          exact ⟨hstep, Or.inl ⟨g, rfl, hrunning, hturn, hfits, rfl⟩⟩
        · cases h
      · cases h
    · rename_i hwaits
      obtain ⟨⟨sys, e'⟩, hstep, h⟩ := bind_eq_ok.mp h
      cases h
      refine ⟨hstep, Or.inr ⟨?_, rfl⟩⟩
      rintro g' ⟨rfl⟩
      exact hwaits
  | store g spurious =>
    obtain ⟨⟨sys, e'⟩, hstep, h⟩ := bind_eq_ok.mp h
    cases h
    refine ⟨hstep, Or.inr ⟨?_, rfl⟩⟩
    rintro g' ⟨⟩

/-- A run of the clients is one in which the sessions could have made their passes in any order. -/
theorem sys_run {s₀ s : MsRounds} {tr : MsTrace} (h : Run d.msStep s₀ tr s) :
    Run d.msService.step s₀.sys tr s.sys := by
  induction h with
  | start => exact .start
  | snoc _ hstep ih => exact .snoc ih (msStep_cases hstep).1

/-! ## What can be put off -/

namespace MsKeysFit

variable {g k q : Nat}

theorem linkKey_eq (h : MsKeysFit d) (hk : d.isMsNode k) :
    d.msGetNodePtrKeyId k = d.msNodePtrOffset + (k - d.dummyKeyIdOffset) := by
  obtain ⟨hlo, hhi⟩ := hk
  unfold MsKeysFit Deployment.msInitDoneFlagKey Deployment.msNodeKeyOffset
    Deployment.dummyKeyIdOffset Deployment.lastMsNodePtr Deployment.msNodePtrOffset msWritesNum at h
  unfold Deployment.msInitDoneFlagKey Deployment.msNodeKeyOffset Deployment.dummyKeyIdOffset
    Deployment.lastMsNodePtr Deployment.msNodePtrOffset msWritesNum at hhi
  unfold Deployment.dummyKeyIdOffset Deployment.lastMsNodePtr Deployment.msNodePtrOffset at hlo
  unfold Deployment.msGetNodePtrKeyId Deployment.dummyKeyIdOffset Deployment.lastMsNodePtr
    Deployment.msNodePtrOffset msWritesNum u32
  omega

/-- The pointer of a dummy. -/
theorem dummyLink_eq (h : MsKeysFit d) (hq : q < d.msQueuesNum) :
    d.msGetNodePtrKeyId (d.dummyKey q) = d.msNodePtrOffset + q := by
  have hfit := h
  unfold MsKeysFit Deployment.msInitDoneFlagKey Deployment.msNodeKeyOffset msWritesNum at hfit
  have hkey : d.dummyKey q = d.dummyKeyIdOffset + q := by
    unfold Deployment.dummyKey msWritesNum
    rw [u32_of_lt (by omega), Nat.mul_one]
  have hnode : d.isMsNode (d.dummyKey q) := by
    unfold Deployment.isMsNode Deployment.msInitDoneFlagKey Deployment.msNodeKeyOffset msWritesNum
    omega
  rw [h.linkKey_eq hnode]
  omega

/-- The pointer of the node that a session has at first. -/
theorem ownedLink_eq (h : MsKeysFit d) (hg : g < d.globalSessionNum) :
    (d.msSessInfo g).ownedKeyPtr = d.msNodePtrOffset + d.msQueuesNum + d.globSessI g := by
  have hfit := h
  unfold MsKeysFit Deployment.msInitDoneFlagKey Deployment.msNodeKeyOffset msWritesNum at hfit
  have hle : d.globSessI g ≤ g := by
    rw [d.globSessI_eq]
    exact Nat.mod_le ..
  have hsessions : d.msQueuesNum = d.globalSessionNum := rfl
  have hkey : u32 (d.msNodeKeyOffset + d.globSessI g * msWritesNum)
      = d.dummyKeyIdOffset + d.msQueuesNum + d.globSessI g := by
    unfold Deployment.msNodeKeyOffset msWritesNum
    rw [u32_of_lt (by omega)]
    omega
  have hnode : d.isMsNode (d.dummyKeyIdOffset + d.msQueuesNum + d.globSessI g) := by
    unfold Deployment.isMsNode Deployment.msInitDoneFlagKey Deployment.msNodeKeyOffset msWritesNum
    omega
  show d.msGetNodePtrKeyId (u32 (d.msNodeKeyOffset + d.globSessI g * msWritesNum)) = _
  rw [hkey, h.linkKey_eq hnode]
  omega

end MsKeysFit

/-- The request does not touch the pointer at `key`, and not the flag. -/
def MsReq.Apart (key : Nat) : MsReq → Prop
  | .readPtr keyId _ | .writePtr keyId _ => keyId ≠ key
  | .readNode .. | .writeNode .. => True
  | .cas .. | .readFlag | .releaseFlag _ => False

/-- The request is of the pointer at `key`, or of the flag. -/
def MsReq.OfSetUp (key : Nat) : MsReq → Prop
  | .writePtr keyId _ => keyId = key
  | .readFlag | .releaseFlag _ => True
  | .readPtr .. | .readNode .. | .writeNode .. | .cas .. => False

theorem apart_commute {key : Nat} {r r' : MsReq} (hr : r.Apart key) (hr' : r'.OfSetUp key) :
    d.msService.Commute r r' := by
  intro spurious spurious' store info info'
  cases r with
  | readPtr keyId buffer =>
    cases r' with
    | writePtr keyId' ptr =>
      have hne : keyId ≠ keyId' := by
        rw [show keyId' = key from hr']
        exact hr
      refine ⟨rfl, rfl, ?_⟩
      show (info.fill (Function.update store.ptr keyId' ptr keyId) buffer, MsEvent.served) = _
      rw [Function.update_of_ne hne]
      rfl
    | readFlag => exact ⟨rfl, rfl, rfl⟩
    | releaseFlag flag => exact ⟨rfl, rfl, rfl⟩
    | readPtr | readNode | writeNode | cas => cases hr'
  | writePtr keyId ptr =>
    cases r' with
    | writePtr keyId' ptr' =>
      have hne : keyId ≠ keyId' := by
        rw [show keyId' = key from hr']
        exact hr
      refine ⟨?_, rfl, rfl⟩
      show MsStore.mk (Function.update (Function.update store.ptr keyId ptr) keyId' ptr') _ _ = _
      rw [Function.update_comm hne]
      rfl
    | readFlag => exact ⟨rfl, rfl, rfl⟩
    | releaseFlag flag => exact ⟨rfl, rfl, rfl⟩
    | readPtr | readNode | writeNode | cas => cases hr'
  | readNode keyId i =>
    cases r' with
    | writePtr | readFlag | releaseFlag => exact ⟨rfl, rfl, rfl⟩
    | readPtr | readNode | writeNode | cas => cases hr'
  | writeNode keyId node =>
    cases r' with
    | writePtr | readFlag | releaseFlag => exact ⟨rfl, rfl, rfl⟩
    | readPtr | readNode | writeNode | cas => cases hr'
  | cas | readFlag | releaseFlag => cases hr

/-- The key that the last write of the set-up writes, the pointer of the last dummy. -/
def Deployment.lastSetUpKey (d : Deployment) : Nat :=
  d.msGetNodePtrKeyId (d.dummyKey (d.msQueuesNum - 1))

/-- A turn that can be put off: of another session of the first client. -/
structure EarlyTurn (d : Deployment) (s : MsSys) (j : Turn) : Prop where
  client : d.clientOf j.session = 0
  other : j.session ≠ 0
  apart : ∀ g spurious r queue, j = .store g spurious → (s.session g).queue = r :: queue →
    r.Apart d.lastSetUpKey

/-- A turn that it can be put behind: of session 0, or of a client that waits. -/
structure LateTurn (d : Deployment) (s : MsSys) (k : Turn) : Prop where
  client : d.clientOf k.session = 0 → k.session = 0 ∧ ∃ spurious, k = .store 0 spurious
  ofSetUp : ∀ g spurious r queue, k = .store g spurious → (s.session g).queue = r :: queue →
    r.OfSetUp d.lastSetUpKey

/-- A run of turns that can be put off. -/
abbrev EarlyRun (d : Deployment) : MsSys → MsTrace → MsSys → Prop :=
  RunWhere d.msService.step (EarlyTurn d)

/-- **They are exchanged.** -/
theorem early_swap {s s₁ s₂ : MsSys} {j k : Turn} {e e' : MsEvent} (hj : EarlyTurn d s j)
    (hstep : d.msService.step s j = .ok (s₁, e)) (hk : LateTurn d s₁ k)
    (hstep' : d.msService.step s₁ k = .ok (s₂, e')) :
    LateTurn d s k ∧ ∃ s', d.msService.step s k = .ok (s', e') ∧ EarlyTurn d s' j ∧
      d.msService.step s' j = .ok (s₂, e) := by
  have hne : j.session ≠ k.session := by
    intro hsame
    have hzero := (hk.client (hsame ▸ hj.client)).1
    exact hj.other (hsame.trans hzero)
  have hlate : LateTurn d s k := by
    refine ⟨hk.client, ?_⟩
    rintro g spurious r queue rfl hqueue
    exact hk.ofSetUp g spurious r queue rfl ((Service.step_session hstep hne).symm ▸ hqueue)
  have hclient : ∀ g g', j = .client g → k = .client g' → d.clientOf g ≠ d.clientOf g' := by
    rintro g g' rfl rfl hsame
    obtain ⟨-, spurious, hc⟩ := hk.client (hsame.symm.trans hj.client)
    cases hc
  have hserve : d.msService.ServesCommute s j k := by
    rintro g spurious g' spurious' r queue r' queue' rfl rfl hqueue hqueue'
    exact apart_commute (hj.apart g spurious r queue rfl hqueue)
      (hlate.ofSetUp g' spurious' r' queue' rfl hqueue')
  obtain ⟨s', hstep₁, hstep₂⟩ := Service.step_swap hne hclient hserve hstep hstep'
  refine ⟨hlate, s', hstep₁, ⟨hj.client, hj.other, ?_⟩, hstep₂⟩
  rintro g spurious r queue rfl hqueue
  have hsame : s'.session g = s.session g := Service.step_session hstep₁ hne.symm
  rw [hsame] at hqueue
  exact hj.apart g spurious r queue rfl hqueue

/-- What is put off is nothing to the other sessions, the other clients and the flag. -/
theorem early_frame {s₀ s : MsSys} {tr : MsTrace} (h : EarlyRun d s₀ tr s) :
    (∀ g, (d.clientOf g = 0 → g = 0) → s.session g = s₀.session g) ∧
      (∀ c, c ≠ 0 → s.shared c = s₀.shared c) ∧ s.store.initDone = s₀.store.initDone := by
  induction h with
  | start => exact ⟨fun _ _ => rfl, fun _ _ => rfl, rfl⟩
  | @snoc tr s s' j e hrun hj hstep ih =>
    obtain ⟨hsession, hshared, hflag⟩ := ih
    refine ⟨fun g hg => ?_, fun c hc => ?_, ?_⟩
    · rw [Service.step_session hstep fun hsame => hj.other (hsame.trans (hg (hsame ▸ hj.client)))]
      exact hsession g hg
    · rw [Service.step_shared hstep fun hsame => hc (hsame.symm.trans hj.client)]
      exact hshared c hc
    · rw [← hflag]
      rcases Service.step_cases hstep with ⟨g, c, info, requests, rfl, -, rfl⟩ |
        ⟨g, spurious, r, queue, store, info, rfl, hqueue, hserve, rfl⟩
      · rfl
      · have hapart := hj.apart g spurious r queue rfl hqueue
        cases r with
        | readPtr | readNode | writePtr | writeNode =>
          cases hserve
          rfl
        | cas | readFlag | releaseFlag => cases hapart

/-! ## The first passes -/

/-- The requests of a first pass. -/
theorem first_requests {x : MsSession} {info : MsSessInfo} {requests : List MsReq}
    {g cntr cntr' : Nat}
    (hinfo : x.info = d.msSessInfo g) (hpass : d.msLoopPass cntr x = .ok (cntr', info, requests)) :
    cntr' = cntr ∧ ∃ node ptr, requests = [.writeNode (u32 (d.msSessInfo g).ownedKey) node,
      .writePtr (d.msSessInfo g).ownedKeyPtr ptr, .readPtr (d.msSessInfo g).queueId .tail] := by
  rw [Deployment.msLoopPass, hinfo] at hpass
  obtain ⟨⟨info', requests'⟩, henq, hpass⟩ := bind_eq_ok.mp hpass
  cases hpass
  unfold Deployment.msEnqueue at henq
  rw [hinfo] at henq
  cases henq
  exact ⟨rfl, _, _, rfl⟩

/-- They touch nothing of the last queue's dummy. -/
theorem first_apart (hkeys : MsKeysFit d) {g : Nat} (hg : g < d.globalSessionNum)
    {node : MsNode} {ptr : MsPtr} : ∀ r ∈ [MsReq.writeNode (u32 (d.msSessInfo g).ownedKey) node,
      .writePtr (d.msSessInfo g).ownedKeyPtr ptr, .readPtr (d.msSessInfo g).queueId .tail],
      r.Apart d.lastSetUpKey := by
  have hsessions : d.msQueuesNum = d.globalSessionNum := rfl
  have hlast : d.lastSetUpKey = d.msNodePtrOffset + (d.msQueuesNum - 1) :=
    hkeys.dummyLink_eq (by omega)
  have hle : d.globSessI g ≤ g := by
    rw [d.globSessI_eq]
    exact Nat.mod_le ..
  intro r hr
  rcases List.mem_cons.mp hr with rfl | hr
  · exact trivial
  · rcases List.mem_cons.mp hr with rfl | hr
    · show (d.msSessInfo g).ownedKeyPtr ≠ _
      rw [hlast, hkeys.ownedLink_eq hg]
      omega
    · rw [List.mem_singleton.mp hr]
      show d.globSessI g ≠ _
      rw [hlast, Deployment.msNodePtrOffset]
      omega

theorem firstSession_zero (d : Deployment) : d.firstSession 0 = 0 := by
  rw [Deployment.firstSession, Nat.zero_div, Nat.zero_mul, Nat.zero_mod, Nat.zero_mul]
  rfl

/-! ## While the set-up is executed -/

/-- Another session of the first client, whose `s_i` is `sI`: it has not made its first pass, or it
    has, and does not have its turn again before session 0. -/
inductive EarlySession (d : Deployment) (sI g : Nat) (x : MsSession) : Prop
  | before (hinfo : x.info = d.msSessInfo g) (hqueue : x.queue = [])
  | made (hpassed : g < sI ∨ sI = 0) (hapart : ∀ r ∈ x.queue, r.Apart d.lastSetUpKey)

/-- **Before the set-up was executed**: `late` is a run in which no other session of the first
    client has begun, the requests `w` of the set-up are left, and behind it the turns `early` of
    those sessions lead to the state `s`. -/
structure Starting (d : Deployment) (tail head : MsPtr) (tr : MsTrace) (s : MsRounds)
    (late : MsTrace) (t : MsSys) (early : MsTrace) (w : List MsReq) : Prop where
  lateRun : Run d.msService.step (d.msStart tail head) late t
  setting : SettingUp (msSetUpBy d tail head) (d.msStart tail head).store late t w
  lateFirst : ∀ p ∈ late, ∀ g, p.1 = .client g → d.clientOf g = 0 → g = 0
  left : ∃ done, (msSetUpBy d tail head).writes = done ++ w
  earlyRun : EarlyRun d t early s.sys
  earlyQuiet : ∀ p ∈ early, p.2 = .moved ∨ p.2 = .served
  quiet : ∀ p ∈ tr, p.2 = .moved ∨ p.2 = .served
  shared : s.sys.shared = t.shared
  sI_lt : s.sI 0 < 2 ^ 16
  others : ∀ g, g ≠ 0 → d.clientOf g = 0 → EarlySession d (s.sI 0) g (s.sys.session g)
  /-- they begin behind the first pass of session 0 -/
  begun : (early = [] ∧ s.sI 0 = 0 ∧
      ∀ g, g ≠ 0 → d.clientOf g = 0 → t.session g = ⟨d.msSessInfo g, [], 0⟩) ∨
    (w.length ≤ 1 ∧ ∃ own, own ≠ [] ∧
      (t.session 0).queue = w ++ .releaseFlag msInitDoneFlag :: own)

/-- **The set-up was executed**: the trace is one that shows nothing and then `after`, and so is
    one in which no other session of the first client begins before that. -/
structure SetUpDone (d : Deployment) (tail head : MsPtr) (tr : MsTrace) (s : MsSys)
    (before late after : MsTrace) : Prop where
  trace : tr = before ++ after
  first : ∀ after, SetUpFirst d (d.msSetUp tail head).length (late ++ after)
  reached : ∃ t, Run d.msService.step (d.msStart tail head) before t ∧
    Run d.msService.step (d.msStart tail head) late t ∧ Run d.msService.step t after s
  beforeQuiet : ∀ p ∈ before, p.2 = .moved ∨ p.2 = .served
  lateQuiet : ∀ p ∈ late, p.2 = .moved ∨ p.2 = .served

/-- Other sessions of the first client begin behind the first `n` requests of session 0. -/
theorem setUpFirst_append {n : Nat} {tr₁ tr₂ : MsTrace} (hserved : n ≤ Service.servedOf 0 tr₁)
    (hnone : ∀ p ∈ tr₁, ∀ g, p.1 = .client g → d.clientOf g = 0 → g = 0) :
    SetUpFirst d n (tr₁ ++ tr₂) := by
  rintro l₁ p l₂ heq g hp hclient hg
  rcases List.append_eq_append_iff.mp heq with ⟨l, rfl, -⟩ | ⟨l, rfl, htr₂⟩
  · rw [Service.servedOf, List.countP_append]
    exact Nat.le_add_right_of_le hserved
  · cases l with
    | nil =>
      rw [List.append_nil] at hserved
      exact hserved
    | cons p' l =>
      obtain ⟨rfl, -⟩ := List.cons.inj htr₂
      exact absurd (hnone p (List.mem_append_right _ List.mem_cons_self) g hp hclient) hg

/-- What the sessions of the clients share, when the same step is taken from two states. -/
theorem shared_eq {s s' t t' : MsSys} {k : Turn} {e e' : MsEvent}
    (hsession : s.session k.session = t.session k.session) (hshared : s.shared = t.shared)
    (hstep : d.msService.step s k = .ok (s', e)) (hlate : d.msService.step t k = .ok (t', e')) :
    s'.shared = t'.shared := by
  rcases Service.step_cases hstep with ⟨g, c, info, requests, rfl, hpass, rfl⟩ |
    ⟨g, spurious, r, queue, store, info, rfl, -, -, rfl⟩
  · rcases Service.step_cases hlate with ⟨g', c', info', requests', ⟨rfl⟩, hpass', rfl⟩ |
      ⟨_, _, _, _, _, _, hc, -⟩
    · change s.session g = t.session g at hsession
      rw [hsession, hshared, hpass'] at hpass
      cases hpass
      show Function.update s.shared _ _ = Function.update t.shared _ _
      rw [hshared]
    · cases hc
  · rcases Service.step_cases hlate with ⟨_, _, _, _, hc, -⟩ |
      ⟨g', spurious', r', queue', store', info', ⟨rfl, rfl⟩, -, -, rfl⟩
    · cases hc
    · exact hshared

namespace Starting

variable {tail head : MsPtr} {tr late early : MsTrace} {s s' : MsRounds} {t : MsSys}
  {w : List MsReq} {k : Turn} {e : MsEvent}

theorem start (hpos : 0 < d.globalSessionNum) (tail head : MsPtr) :
    Starting d tail head [] (d.msRounds tail head) [] (d.msStart tail head) []
      (msSetUpBy d tail head).writes where
  lateRun := .start
  setting := .start _ hpos (msSetUpBy_start hpos tail head)
  lateFirst p hp := by cases hp
  left := ⟨[], rfl⟩
  earlyRun := .start
  earlyQuiet p hp := by cases hp
  quiet p hp := by cases hp
  shared := rfl
  sI_lt := Nat.two_pow_pos 16
  others g hg _ := by
    refine .before ?_ ?_
    · show (if g = 0 then _ else _ : MsSession).info = _
      rw [if_neg hg]
    · show (if g = 0 then _ else _ : MsSession).queue = _
      rw [if_neg hg]
  begun := Or.inl ⟨rfl, rfl, fun g hg _ => if_neg hg⟩

/-- The first client is in its loop. -/
theorem running (h : Starting d tail head tr s late t early w) :
    (s.sys.shared 0).phase = .running := by
  rw [h.shared]
  exact (h.setting.running 0).mpr rfl

/-- Session 0 is where the late run has it. -/
theorem first_eq (h : Starting d tail head tr s late t early w) :
    s.sys.session 0 = t.session 0 :=
  (early_frame h.earlyRun).1 0 fun _ => rfl

/-- What is left of the set-up, when other sessions may have begun. -/
theorem left_cases (h : Starting d tail head tr s late t early w) (hw : w.length ≤ 1) :
    w = [] ∨ ∃ ptr, w = [.writePtr d.lastSetUpKey ptr] := by
  cases w with
  | nil => exact Or.inl rfl
  | cons r w =>
    have hnil : w = [] := List.length_eq_zero_iff.mp (by simpa using hw)
    subst hnil
    obtain ⟨done, hdone⟩ := h.left
    obtain ⟨n, hn⟩ : ∃ n, d.msQueuesNum = n + 1 := by
      refine Nat.exists_eq_succ_of_ne_zero fun hzero => ?_
      have hnone : (msSetUpBy d tail head).writes = [] := by
        show (List.range d.msQueuesNum).flatMap _ = _
        rw [hzero]
        rfl
      rw [hnone] at hdone
      cases done <;> cases hdone
    have hlast : (msSetUpBy d tail head).writes.getLast? = some (.writePtr d.lastSetUpKey
        ⟨true, n, d.lastSetUpKey, 0, 1⟩) := by
      show ((List.range d.msQueuesNum).flatMap (d.setUpQueue tail head)).getLast? = _
      rw [Deployment.lastSetUpKey, hn, List.range_succ, List.flatMap_append, List.flatMap_singleton,
        List.getLast?_append]
      rfl
    rw [hdone, List.getLast?_append] at hlast
    refine Or.inr ⟨⟨true, n, d.lastSetUpKey, 0, 1⟩, ?_⟩
    rw [← Option.some.inj hlast]
    rfl

/-- A turn that the early ones can be put behind is one of the late run, too. -/
theorem late_step (h : Starting d tail head tr s late t early w)
    (hk : early = [] ∨ LateTurn d s.sys k) {u : MsSys}
    (hstep : d.msService.step s.sys k = .ok (u, e)) :
    ∃ t', d.msService.step t k = .ok (t', e) ∧ EarlyRun d t' early u := by
  rcases hk with rfl | hk
  · rw [h.earlyRun.run.eq_of_nil rfl] at hstep
    exact ⟨u, hstep, .start⟩
  · exact RunWhere.advance (Q := LateTurn d) (fun _ _ _ _ _ _ _ => early_swap) h.earlyRun hk hstep

/-- The requests of session 0 and of the clients that wait are of the set-up. -/
theorem lateTurn (h : Starting d tail head tr s late t early w) {g : Nat} {spurious : Bool}
    (hg : d.clientOf g = 0 → g = 0) : early = [] ∨ LateTurn d s.sys (.store g spurious) := by
  rcases h.begun with ⟨hnone, -⟩ | ⟨hw, -⟩
  · exact Or.inl hnone
  · refine Or.inr ⟨fun hclient => ⟨hg hclient, spurious, ?_⟩, ?_⟩
    · rw [hg hclient]
    · rintro g' spurious' r queue ⟨⟩ hqueue
      rw [(early_frame h.earlyRun).1 g hg] at hqueue
      by_cases hzero : g = 0
      · subst hzero
        obtain ⟨own, hown, -⟩ := h.setting.first
        rw [hown] at hqueue
        rcases h.left_cases hw with rfl | ⟨ptr, rfl⟩
        · rw [← (List.cons.inj hqueue).1]
          exact trivial
        · rw [← (List.cons.inj hqueue).1]
          exact (rfl : d.lastSetUpKey = d.lastSetUpKey)
      · rcases (h.setting.others g hzero).2 with hempty | hasked
        · rw [hempty] at hqueue
          cases hqueue
        · rw [hasked] at hqueue
          rw [← (List.cons.inj hqueue).1]
          exact trivial

theorem quiet_concat {p : Turn × MsEvent} (h : ∀ p ∈ tr, p.2 = .moved ∨ p.2 = .served)
    (hp : p.2 = .moved ∨ p.2 = .served) : ∀ p' ∈ tr ++ [p], p'.2 = .moved ∨ p'.2 = .served := by
  intro p' hp'
  rcases List.mem_append.mp hp' with hold | hnew
  · exact h p' hold
  · rw [List.mem_singleton.mp hnew]
    exact hp

/-- **A late turn** that leaves the rest of the set-up as it is, or executes one of its writes. -/
theorem later (h : Starting d tail head tr s late t early w)
    (hclient : d.clientOf k.session = 0 → k.session = 0) {t' : MsSys}
    (hstep : d.msService.step s.sys k = .ok (s'.sys, e)) (hsI : s'.sI 0 = s.sI 0)
    (hlate : d.msService.step t k = .ok (t', e)) (hearly : EarlyRun d t' early s'.sys)
    {w' : List MsReq} (hw : ∃ done, w = done ++ w')
    (hsetting : SettingUp (msSetUpBy d tail head) (d.msStart tail head).store
      (late ++ [(k, e)]) t' w')
    (hqueue : ∀ own, (t.session 0).queue = w ++ .releaseFlag msInitDoneFlag :: own →
      (t'.session 0).queue = w' ++ .releaseFlag msInitDoneFlag :: own) :
    Starting d tail head (tr ++ [(k, e)]) s' (late ++ [(k, e)]) t' early w' where
  lateRun := h.lateRun.snoc hlate
  setting := hsetting
  lateFirst p hp g hturn hg := by
    rcases List.mem_append.mp hp with hold | hnew
    · exact h.lateFirst p hold g hturn hg
    · rw [List.mem_singleton.mp hnew] at hturn
      cases hturn
      exact hclient hg
  left := by
    obtain ⟨done, hdone⟩ := h.left
    obtain ⟨done', rfl⟩ := hw
    exact ⟨done ++ done', by rw [hdone, List.append_assoc]⟩
  earlyRun := hearly
  earlyQuiet := h.earlyQuiet
  quiet := quiet_concat h.quiet (hsetting.events _ (List.mem_append_right _ List.mem_cons_self))
  shared := by
    refine shared_eq ?_ h.shared hstep hlate
    exact (early_frame h.earlyRun).1 k.session hclient
  sI_lt := by
    rw [hsI]
    exact h.sI_lt
  others g hg hzero := by
    have hne : k.session ≠ g := by
      rintro rfl
      exact hg (hclient hzero)
    rw [hsI, Service.step_session hstep hne]
    exact h.others g hg hzero
  begun := by
    rcases h.begun with ⟨hnone, hzero, hothers⟩ | ⟨hlength, own, hown, hfirst⟩
    · refine Or.inl ⟨hnone, hsI.trans hzero, fun g hg hclient' => ?_⟩
      have hne : k.session ≠ g := by
        rintro rfl
        exact hg (hclient hclient')
      rw [Service.step_session hlate hne]
      exact hothers g hg hclient'
    · obtain ⟨done, rfl⟩ := hw
      refine Or.inr ⟨?_, own, hown, hqueue own hfirst⟩
      rw [List.length_append] at hlength
      omega

/-- **The store executes a request of session 0**, which is one of the set-up. -/
theorem serveFirst (h : Starting d tail head tr s late t early w) (hpos : 0 < d.globalSessionNum)
    (hrun : Run d.msService.step (d.msStart tail head) tr s.sys) {spurious : Bool}
    (hstep : d.msService.step s.sys (.store 0 spurious) = .ok (s'.sys, e))
    (hsI : s'.sI = s.sI) :
    (∃ t' w', Starting d tail head (tr ++ [(.store 0 spurious, e)]) s'
        (late ++ [(.store 0 spurious, e)]) t' early w') ∨
      SetUpDone d tail head (tr ++ [(.store 0 spurious, e)]) s'.sys
        (tr ++ [(.store 0 spurious, e)]) (late ++ [(.store 0 spurious, e)] ++ early) [] := by
  obtain ⟨t', hlate, hearly⟩ := h.late_step (h.lateTurn fun _ => rfl) hstep
  obtain ⟨own, hown, hfirst⟩ := h.setting.first
  rcases Service.step_cases hlate with ⟨_, _, _, _, hc, -⟩ |
    ⟨g, spurious', r, queue, store, info, ⟨rfl, rfl⟩, hqueue, hserve, rfl⟩
  · cases hc
  · cases w with
    | cons r' w =>
      have hhead := hown.symm.trans hqueue
      obtain ⟨rfl, -⟩ := List.cons.inj hhead
      refine Or.inl ⟨_, w, h.later (fun _ => rfl) hstep (congrFun hsI 0) hlate hearly
        ⟨[r'], rfl⟩ (h.setting.write hpos hqueue hserve) fun own' hown' => ?_⟩
      rw [hqueue] at hown'
      show (Function.update t.session 0 _ 0).queue = _
      rw [Function.update_self]
      exact (List.cons.inj hown').2
    | nil =>
      -- the flag is released
      have hhead := hown.symm.trans hqueue
      obtain ⟨rfl, rfl⟩ := List.cons.inj hhead
      cases hserve
      have hreached : Run d.msService.step (d.msStart tail head)
          (late ++ [(.store 0 spurious, .served)] ++ early) s'.sys :=
        (h.lateRun.snoc hlate).trans hearly.run
      refine Or.inr ⟨(List.append_nil _).symm, ?_, ⟨s'.sys, hrun.snoc hstep, hreached, .start⟩,
        quiet_concat h.quiet (Or.inr rfl), ?_⟩
      · intro after
        rw [List.append_assoc (late ++ _)]
        refine setUpFirst_append ?_ ?_
        · have hexecuted := h.setting.executed
          rw [List.length_nil, Nat.add_zero] at hexecuted
          have hmore : Service.servedOf 0 (late ++ [(Turn.store 0 spurious, MsEvent.served)])
              = Service.servedOf 0 late + 1 := by
            rw [Service.servedOf, List.countP_append]
            rfl
          rw [hmore, hexecuted, Deployment.msSetUp, List.length_append]
          exact Nat.le_refl _
        · intro p hp g hturn hg
          rcases List.mem_append.mp hp with hold | hnew
          · exact h.lateFirst p hold g hturn hg
          · rw [List.mem_singleton.mp hnew] at hturn
            cases hturn
      · intro p hp
        rcases List.mem_append.mp hp with hlast | hput
        · exact quiet_concat (h.setting.events) (Or.inr rfl) p hlast
        · exact h.earlyQuiet p hput

/-- **The store executes a request of a client that waits**: it reads the flag. -/
theorem serveAsked (h : Starting d tail head tr s late t early w) {g : Nat}
    (hg : d.clientOf g ≠ 0) {spurious : Bool}
    (hstep : d.msService.step s.sys (.store g spurious) = .ok (s'.sys, e)) (hsI : s'.sI = s.sI) :
    ∃ t', Starting d tail head (tr ++ [(.store g spurious, e)]) s'
      (late ++ [(.store g spurious, e)]) t' early w := by
  have hne : g ≠ 0 := by
    rintro rfl
    exact hg (SettingUp.clientOf_zero d)
  obtain ⟨t', hlate, hearly⟩ := h.late_step (h.lateTurn fun hc => absurd hc hg) hstep
  refine ⟨t', h.later (k := .store g spurious) (fun hc => absurd hc hg) hstep
    (congrFun hsI 0) hlate hearly ⟨[], rfl⟩ ?_ fun own hown => ?_⟩
  · rcases Service.step_cases hlate with ⟨_, _, _, _, hc, -⟩ |
      ⟨g', spurious', r, queue, store, info, ⟨rfl, rfl⟩, hqueue, hserve, rfl⟩
    · cases hc
    · exact h.setting.asked hne hqueue hserve
  · rw [Service.step_session hlate hne]
    exact hown

/-- **A pass of a client that waits.** -/
theorem passWaiting (h : Starting d tail head tr s late t early w) {g : Nat}
    (hg : d.clientOf g ≠ 0) (hstep : d.msService.step s.sys (.client g) = .ok (s'.sys, e))
    (hsI : s'.sI 0 = s.sI 0) :
    ∃ t', Starting d tail head (tr ++ [(.client g, e)]) s'
      (late ++ [(.client g, e)]) t' early w := by
  have hne : g ≠ 0 := by
    rintro rfl
    exact hg (SettingUp.clientOf_zero d)
  have hturn : LateTurn d s.sys (.client g) := by
    refine ⟨fun hc => absurd hc hg, ?_⟩
    rintro g' spurious r queue ⟨⟩
  obtain ⟨t', hlate, hearly⟩ := h.late_step (Or.inr hturn) hstep
  refine ⟨t', h.later (k := .client g) (fun hc => absurd hc hg) hstep hsI hlate hearly
    ⟨[], rfl⟩ ?_ fun own hown => ?_⟩
  · rcases Service.step_cases hlate with ⟨g', c, info, requests, ⟨rfl⟩, hpass, rfl⟩ |
      ⟨_, _, _, _, _, _, hc, -⟩
    · exact h.setting.waitPass hne ((msSetUpBy d tail head).pass_lt hpass) hg hpass
    · cases hc
  · rw [Service.step_session hlate hne]
    exact hown

/-- **The store executes a request of another session of the first client.** -/
theorem serveEarly (h : Starting d tail head tr s late t early w) {g : Nat} (hne : g ≠ 0)
    (hg : d.clientOf g = 0) {spurious : Bool}
    (hstep : d.msService.step s.sys (.store g spurious) = .ok (s'.sys, e)) (hsI : s'.sI = s.sI) :
    Starting d tail head (tr ++ [(.store g spurious, e)]) s' late t
      (early ++ [(.store g spurious, e)]) w := by
  rcases Service.step_cases hstep with ⟨_, _, _, _, hc, -⟩ |
    ⟨g', spurious', r, queue, store, info, ⟨rfl, rfl⟩, hqueue, hserve, heq⟩
  · cases hc
  · obtain ⟨hapart, hpassed⟩ : (∀ r' ∈ r :: queue, r'.Apart d.lastSetUpKey) ∧
        (g < s.sI 0 ∨ s.sI 0 = 0) := by
      cases h.others g hne hg with
      | before hinfo hempty =>
        rw [hempty] at hqueue
        cases hqueue
      | made hpassed hapart =>
        rw [hqueue] at hapart
        exact ⟨hapart, hpassed⟩
    have hquiet : e = .served := by
      cases r with
      | readPtr | readNode | writePtr | writeNode =>
        cases hserve
        rfl
      | cas | readFlag | releaseFlag => cases hapart _ List.mem_cons_self
    have hturn : EarlyTurn d s.sys (.store g spurious) := by
      refine ⟨hg, hne, ?_⟩
      rintro g' spurious' r' queue' ⟨rfl, rfl⟩ hqueue'
      rw [hqueue] at hqueue'
      rw [← (List.cons.inj hqueue').1]
      exact hapart _ List.mem_cons_self
    exact {
      lateRun := h.lateRun
      setting := h.setting
      lateFirst := h.lateFirst
      left := h.left
      earlyRun := h.earlyRun.snoc hturn hstep
      earlyQuiet := quiet_concat h.earlyQuiet (Or.inr hquiet)
      quiet := quiet_concat h.quiet (Or.inr hquiet)
      shared := by
        rw [heq]
        exact h.shared
      sI_lt := by
        rw [hsI]
        exact h.sI_lt
      others := by
        intro g' hne' hg'
        rw [hsI, heq]
        show EarlySession d _ _ (Function.update s.sys.session g _ g')
        by_cases hsame : g' = g
        · rw [hsame, Function.update_self]
          exact .made hpassed fun r' hr' => hapart r' (List.mem_cons_of_mem _ hr')
        · rw [Function.update_of_ne hsame]
          exact h.others g' hne' hg'
      begun := by
        rcases h.begun with ⟨rfl, -, hothers⟩ | hmade
        · -- without an early pass there is nothing to execute
          rw [h.earlyRun.run.eq_of_nil rfl, hothers g hne hg] at hqueue
          cases hqueue
        · exact Or.inr hmade }

/-- **A pass over session 0** is its first one: behind that it waits for the set-up. -/
theorem passFirst (h : Starting d tail head tr s late t early w) (hpos : 0 < d.globalSessionNum)
    (hle : (s.sys.session 0).queue.length ≤ (s.sys.session 0).issued)
    (hfew : (s.sys.session 0).issued < 2 ^ 32)
    (hstep : d.msService.step s.sys (.client 0) = .ok (s'.sys, e))
    (hfits : (s'.sys.session 0).queue.length ≤ perSessionReqNum)
    (hsI : s'.sI 0 = modIncr16 (s.sI 0) d.sessionsPerClient) :
    ∃ t', Starting d tail head (tr ++ [(.client 0, e)]) s'
      (late ++ [(.client 0, e)]) t' early w := by
  rcases Service.step_cases hstep with ⟨g, c, info, requests, ⟨rfl⟩, hpass, heq⟩ |
    ⟨_, _, _, _, _, _, hc, -⟩
  · rw [show d.msService.clientOf 0 = 0 from SettingUp.clientOf_zero d] at hpass heq
    obtain ⟨cntr, hloop, rfl, rfl⟩ := loopPass_of_pass h.running hpass
    obtain ⟨own, hown, hfirst⟩ := h.setting.first
    rw [← h.first_eq] at hown hfirst
    obtain ⟨hinfo, rfl, -, -⟩ := hfirst.before_of_pass hown hle hfew hloop
    obtain ⟨-, node, ptr, hrequests⟩ := first_requests hinfo hloop
    have hthree : requests.length = 3 := by
      rw [hrequests]
      rfl
    rcases h.begun with ⟨rfl, hzero, hothers⟩ | ⟨-, own', hne, hown'⟩
    · have hsame : s.sys = t := h.earlyRun.run.eq_of_nil rfl
      subst hsame
      have hnew := h.setting.firstPass hpos hle hfew hpass
      have hqueue : (s'.sys.session 0).queue = w ++ .releaseFlag msInitDoneFlag :: requests := by
        rw [heq]
        show (Function.update s.sys.session 0 _ 0).queue = _
        rw [Function.update_self, hown, List.append_assoc]
        rfl
      have hshort : w.length ≤ 1 := by
        rw [hqueue, List.length_append, List.length_cons, hthree, perSessionReqNum] at hfits
        omega
      refine ⟨s'.sys, ?_⟩
      exact {
        lateRun := h.lateRun.snoc hstep
        setting := by
          rw [heq]
          exact hnew
        lateFirst := by
          intro p hp g hturn hg
          rcases List.mem_append.mp hp with hold | hlast
          · exact h.lateFirst p hold g hturn hg
          · rw [List.mem_singleton.mp hlast] at hturn
            cases hturn
            rfl
        left := h.left
        earlyRun := .start
        earlyQuiet := h.earlyQuiet
        quiet := quiet_concat h.quiet (Or.inl rfl)
        shared := rfl
        sI_lt := by
          rw [hsI]
          exact (modIncr16_cases _ h.sI_lt).1
        others := by
          intro g hg hclient
          rw [heq]
          show EarlySession d _ _ (Function.update s.sys.session 0 _ g)
          rw [Function.update_of_ne hg, hothers g hg hclient]
          exact .before rfl rfl
        begun := by
          refine Or.inr ⟨hshort, requests, ?_, hqueue⟩
          rintro rfl
          cases hthree }
    · -- it has made its first pass, so what it waits for is behind the set-up
      rw [← h.first_eq, hown] at hown'
      obtain ⟨-, hnil⟩ := List.cons.inj (List.append_cancel_left hown')
      exact absurd hnil.symm hne
  · cases hc

/-- **The first pass over another session of the first client.** -/
theorem passEarly (h : Starting d tail head tr s late t early w) (hkeys : MsKeysFit d) {g : Nat}
    (hne : g ≠ 0) (hg : d.clientOf g = 0) (hturn : g = s.sI 0)
    (hstep : d.msService.step s.sys (.client g) = .ok (s'.sys, e))
    (hsI : s'.sI 0 = modIncr16 (s.sI 0) d.sessionsPerClient) :
    Starting d tail head (tr ++ [(.client g, e)]) s' late t (early ++ [(.client g, e)]) w := by
  rcases Service.step_cases hstep with ⟨g', c, info, requests, ⟨rfl⟩, hpass, heq⟩ |
    ⟨_, _, _, _, _, _, hc, -⟩
  · have hlt := (msSetUpBy d tail head).pass_lt hpass
    rw [show d.msService.clientOf g = 0 from hg] at hpass heq
    obtain ⟨cntr, hloop, rfl, rfl⟩ := loopPass_of_pass h.running hpass
    cases h.others g hne hg with
    | made hpassed _ => exact absurd hturn (by omega)
    | before hinfo hempty =>
      obtain ⟨rfl, node, ptr, rfl⟩ := first_requests hinfo hloop
      have hearly : EarlyTurn d s.sys (.client g) := by
        refine ⟨hg, hne, ?_⟩
        rintro g' spurious r queue ⟨⟩
      obtain ⟨hsIlt, hnext⟩ := modIncr16_cases d.sessionsPerClient h.sI_lt
      exact {
        lateRun := h.lateRun
        setting := h.setting
        lateFirst := h.lateFirst
        left := h.left
        earlyRun := h.earlyRun.snoc hearly hstep
        earlyQuiet := quiet_concat h.earlyQuiet (Or.inl rfl)
        quiet := quiet_concat h.quiet (Or.inl rfl)
        shared := by
          rw [heq, ← h.shared]
          exact Function.update_eq_self 0 _
        sI_lt := by
          rw [hsI]
          exact hsIlt
        others := by
          intro g' hne' hg'
          rw [hsI, heq]
          show EarlySession d _ _ (Function.update s.sys.session g _ g')
          by_cases hsame : g' = g
          · rw [hsame, Function.update_self]
            refine .made (by omega) ?_
            rw [hempty]
            exact first_apart hkeys hlt
          · rw [Function.update_of_ne hsame]
            cases h.others g' hne' hg' with
            | before hinfo' hempty' => exact .before hinfo' hempty'
            | made hpassed hapart => exact .made (by omega) hapart
        begun := by
          rcases h.begun with ⟨-, hzero, -⟩ | hmade
          · exact absurd (hturn.trans hzero) hne
          · exact Or.inr hmade }
  · cases hc

/-- **A turn**, before the set-up was executed. -/
theorem step (h : Starting d tail head tr s late t early w) (hkeys : MsKeysFit d)
    (hpos : 0 < d.globalSessionNum) (hrun : Run d.msService.step (d.msStart tail head) tr s.sys)
    (hle : (s.sys.session 0).queue.length ≤ (s.sys.session 0).issued)
    (hfew : (s.sys.session 0).issued < 2 ^ 32) (hstep : d.msStep s k = .ok (s', e)) :
    (∃ late t early w, Starting d tail head (tr ++ [(k, e)]) s' late t early w) ∨
      ∃ before late after, SetUpDone d tail head (tr ++ [(k, e)]) s'.sys before late after := by
  obtain ⟨hsys, hcases⟩ := msStep_cases hstep
  rcases hcases with ⟨g, rfl, hrunning, hturn, hfits, hsI⟩ | ⟨hwaits, hsI⟩
  · left
    by_cases hg : d.clientOf g = 0
    · rw [hg, firstSession_zero, Nat.zero_add] at hturn
      rw [hg] at hsI
      have hnext : s'.sI 0 = modIncr16 (s.sI 0) d.sessionsPerClient := by
        rw [hsI, Function.update_self]
      by_cases hne : g = 0
      · subst hne
        obtain ⟨t', h'⟩ := h.passFirst hpos hle hfew hsys hfits hnext
        exact ⟨_, _, _, _, h'⟩
      · exact ⟨_, _, _, _, h.passEarly hkeys hne hg hturn hsys hnext⟩
    · have hsame : s'.sI 0 = s.sI 0 := by
        rw [hsI, Function.update_of_ne fun hc => hg hc.symm]
      obtain ⟨t', h'⟩ := h.passWaiting hg hsys hsame
      exact ⟨_, _, _, _, h'⟩
  · cases k with
    | client g =>
      left
      have hg : d.clientOf g ≠ 0 := by
        intro hc
        exact hwaits g rfl (hc ▸ h.running)
      obtain ⟨t', h'⟩ := h.passWaiting hg hsys (congrFun hsI 0)
      exact ⟨_, _, _, _, h'⟩
    | store g spurious =>
      by_cases hne : g = 0
      · subst hne
        rcases h.serveFirst hpos hrun hsys hsI with ⟨t', w', h'⟩ | h'
        · exact Or.inl ⟨_, _, _, _, h'⟩
        · exact Or.inr ⟨_, _, _, h'⟩
      · left
        by_cases hg : d.clientOf g = 0
        · exact ⟨_, _, _, _, h.serveEarly hne hg hsys hsI⟩
        · obtain ⟨t', h'⟩ := h.serveAsked hg hsys hsI
          exact ⟨_, _, _, _, h'⟩

end Starting

/-- **A turn**, behind the set-up. -/
theorem SetUpDone.step {tail head : MsPtr} {tr before late after : MsTrace} {s s' : MsSys}
    {k : Turn} {e : MsEvent} (h : SetUpDone d tail head tr s before late after)
    (hstep : d.msService.step s k = .ok (s', e)) :
    SetUpDone d tail head (tr ++ [(k, e)]) s' before late (after ++ [(k, e)]) := by
  obtain ⟨t, hbefore, hlate, hafter⟩ := h.reached
  refine ⟨?_, h.first, ⟨t, hbefore, hlate, hafter.snoc hstep⟩, h.beforeQuiet, h.lateQuiet⟩
  rw [h.trace, List.append_assoc]

/-- **Every run of the clients**: either the set-up is not executed yet, or the run can be reordered
    so that no other session of the first client begins before that. -/
theorem rounds_run (hkeys : MsKeysFit d) (hpos : 0 < d.globalSessionNum) {tail head : MsPtr}
    {tr : MsTrace} {s : MsRounds} (hrun : Run d.msStep (d.msRounds tail head) tr s)
    (hfew : ∀ g, g < d.globalSessionNum → (s.sys.session g).issued < 2 ^ 32) :
    (∃ late t early w, Starting d tail head tr s late t early w) ∨
      ∃ before late after, SetUpDone d tail head tr s.sys before late after := by
  induction hrun with
  | start => exact Or.inl ⟨_, _, _, _, .start hpos tail head⟩
  | @snoc tr s s' turn e hrun hstep ih =>
    have hsys := (msStep_cases hstep).1
    have hbefore : ∀ g, g < d.globalSessionNum → (s.sys.session g).issued < 2 ^ 32 := fun g hg =>
      Nat.lt_of_le_of_lt (Service.issued_mono hsys g) (hfew g hg)
    have hstart := (msSetUpBy_start hpos tail head).issued_eq
    have hle := Service.queue_le_issued (fun g => Nat.le_of_eq (hstart g)) (sys_run hrun)
    rcases ih hbefore with ⟨late, t, early, w, h⟩ | ⟨before, late, after, h⟩
    · exact h.step hkeys hpos (sys_run hrun) (hle 0) (hbefore 0 hpos) hstep
    · exact Or.inr ⟨before, late, _, h.step hsys⟩

/-! ## Runs that show the same -/

namespace SetUpDone

variable {tail head : MsPtr} {tr before late after : MsTrace} {s : MsSys}

/-- The reordered run. -/
theorem run (h : SetUpDone d tail head tr s before late after) :
    Run d.msService.step (d.msStart tail head) (late ++ after) s := by
  obtain ⟨t, -, hlate, hafter⟩ := h.reached
  exact hlate.trans hafter

/-- It shows what the run shows. -/
theorem shown (h : SetUpDone d tail head tr s before late after) (q : Nat) :
    entered tr q = entered (late ++ after) q ∧ left tr q = left (late ++ after) q := by
  obtain ⟨hentered, hleft⟩ := MsInv.no_events h.beforeQuiet q
  obtain ⟨hentered', hleft'⟩ := MsInv.no_events h.lateQuiet q
  rw [h.trace]
  unfold entered left at *
  rw [List.filterMap_append, List.filterMap_append, List.filterMap_append, List.filterMap_append,
    hentered, hleft, hentered', hleft']
  exact ⟨rfl, rfl⟩

end SetUpDone

end Odyssey
