/-
  THE MICHAEL-SCOTT QUEUES FROM THE START.

  `msSetUpBy` says how the first client sets the queues up (`SetUpBy`), and what that leaves is
  where `MsInv` begins.  So `MsInv` holds of every run in which the set-up was executed first.
-/
import Odyssey.MsQueueRuns

namespace Odyssey

open Lib

variable {d : Deployment}

/-! ## What the set-up writes -/

/-- A request of the set-up is executed. -/
def MsStore.apply (store : MsStore) : MsReq → MsStore
  | .writePtr key ptr => store.write key ptr
  | _ => store

/-- The store after the set-up of the first `n` queues. -/
def Deployment.setUpStore (d : Deployment) (tail head : MsPtr) (n : Nat) : MsStore :=
  ((List.range n).flatMap (d.setUpQueue tail head)).foldl MsStore.apply
    ⟨fun _ => .zero, fun _ => ⟨0, 0⟩, 0⟩

/-- A store in which `n` queues are set up. -/
structure SetUpTo (d : Deployment) (n : Nat) (store : MsStore) : Prop where
  tail : ∀ q, q < n → (store.tail q).nextKeyId = d.dummyKey q
  head : ∀ q, q < n → (store.head d q).nextKeyId = d.dummyKey q
  dummy : ∀ q, q < n → (store.link d (d.dummyKey q)).nextKeyId = 0
  node : ∀ k, d.isMsNode k → d.msNodeKeyOffset ≤ k → (store.link d k).counter = 0
  counter : ∀ key, (store.ptr key).counter ≤ 1

namespace MsFits

variable {q q' g : Nat}

theorem dummyKey_eq (h : MsFits d) (hq : q < d.msQueuesNum) :
    d.dummyKey q = d.dummyKeyIdOffset + q := by
  unfold MsFits at h
  unfold Deployment.msQueuesNum at hq
  unfold Deployment.dummyKey Deployment.dummyKeyIdOffset Deployment.lastMsNodePtr
    Deployment.msNodePtrOffset Deployment.msQueuesNum msWritesNum
  rw [u32_of_lt (by omega), Nat.mul_one]

theorem dummy_isNode (h : MsFits d) (hq : q < d.msQueuesNum) : d.isMsNode (d.dummyKey q) := by
  rw [h.dummyKey_eq hq]
  unfold Deployment.isMsNode Deployment.msInitDoneFlagKey Deployment.msNodeKeyOffset msWritesNum
  omega

theorem dummy_lt (h : MsFits d) (hq : q < d.msQueuesNum) : d.dummyKey q < d.msNodeKeyOffset := by
  rw [h.dummyKey_eq hq]
  unfold Deployment.msNodeKeyOffset msWritesNum
  omega

/-- The node of a session. -/
theorem ownedKey_eq (h : MsFits d) (hg : g < d.globalSessionNum) :
    (d.msSessInfo g).ownedKey = d.msNodeKeyOffset + g := by
  unfold MsFits at h
  show u32 (d.msNodeKeyOffset + d.globSessI g * msWritesNum) = _
  rw [d.globSessI_eq, u16, Nat.mod_eq_of_lt (by omega), msWritesNum, Nat.mul_one, u32_of_lt]
  unfold Deployment.msNodeKeyOffset Deployment.dummyKeyIdOffset Deployment.lastMsNodePtr
    Deployment.msNodePtrOffset Deployment.msQueuesNum msWritesNum
  omega

theorem owned_isNode (h : MsFits d) (hg : g < d.globalSessionNum) :
    d.isMsNode (d.msSessInfo g).ownedKey := by
  rw [h.ownedKey_eq hg]
  unfold Deployment.isMsNode Deployment.msInitDoneFlagKey Deployment.msNodeKeyOffset msWritesNum
    Deployment.msQueuesNum
  omega

end MsFits

namespace SetUpTo

variable {store : MsStore} {n : Nat}

theorem zero : SetUpTo d 0 ⟨fun _ => .zero, fun _ => ⟨0, 0⟩, 0⟩ where
  tail _ hq := absurd hq (Nat.not_lt_zero _)
  head _ hq := absurd hq (Nat.not_lt_zero _)
  dummy _ hq := absurd hq (Nat.not_lt_zero _)
  node _ _ _ := rfl
  counter _ := Nat.zero_le _

/-- One more queue is set up. -/
theorem succ (h : SetUpTo d n store) (hf : MsFits d) (hn : n < d.msQueuesNum) (tail head : MsPtr) :
    SetUpTo d (n + 1) ((d.setUpQueue tail head n).foldl MsStore.apply store) := by
  have hdummy := hf.dummy_isNode hn
  have hhead : u32 (d.msHeadKeyIdOffset + n) = d.headKey n := by
    rw [Deployment.headKey, Nat.add_comm]
  have hstore : (d.setUpQueue tail head n).foldl MsStore.apply store
      = ((store.write n { tail with nextKeyId := d.dummyKey n, counter := 0, myKeyId := n }).write
        (d.headKey n) { head with nextKeyId := d.dummyKey n, counter := 0, myKeyId := d.headKey n }).write
        (d.msGetNodePtrKeyId (d.dummyKey n))
        ⟨true, n, d.msGetNodePtrKeyId (d.dummyKey n), 0, 1⟩ := by
    rw [← hhead]
    rfl
  rw [hstore]
  constructor
  · intro q hq
    rw [MsStore.write_link_tail hf hdummy (by omega), MsStore.write_head_tail hf hn (by omega),
      MsStore.write_tail]
    split
    · rename_i heq
      rw [heq]
    · exact h.tail q (by omega)
  · intro q hq
    rw [MsStore.write_link_head hf hdummy (by omega), MsStore.write_head hf hn (by omega)]
    split
    · rename_i heq
      rw [heq]
    · rw [MsStore.write_tail_head hf hn (by omega)]
      exact h.head q (by omega)
  · intro q hq
    have hnode := hf.dummy_isNode (show q < d.msQueuesNum by omega)
    rw [MsStore.write_link hf hdummy hnode]
    split
    · rfl
    · rename_i hne
      rw [MsStore.write_head_link hf hn hnode, MsStore.write_tail_link hf hn hnode]
      refine h.dummy q ?_
      rcases Nat.lt_or_eq_of_le (Nat.le_of_lt_succ hq) with hlt | rfl
      · exact hlt
      · exact absurd rfl hne
  · intro k hk hle
    rw [MsStore.write_link hf hdummy hk, if_neg, MsStore.write_head_link hf hn hk,
      MsStore.write_tail_link hf hn hk]
    · exact h.node k hk hle
    · rintro rfl
      exact absurd (hf.dummy_lt hn) (Nat.not_lt.mpr hle)
  · exact MsStore.write_counter_le (MsStore.write_counter_le (MsStore.write_counter_le h.counter
      (Nat.zero_le 1)) (Nat.zero_le 1)) (Nat.le_refl 1)

/-- **The queues are set up**: each has its dummy node only. -/
theorem setUpStore (hf : MsFits d) (tail head : MsPtr) : ∀ n, n ≤ d.msQueuesNum →
    SetUpTo d n (d.setUpStore tail head n)
  | 0, _ => zero
  | n + 1, hn => by
      have hsucc := (setUpStore hf tail head n (by omega)).succ hf (by omega) tail head
      unfold Deployment.setUpStore at hsucc ⊢
      rw [List.range_succ, List.flatMap_append, List.foldl_append]
      simpa using hsucc

end SetUpTo

/-! ## How the queues are set up -/

/-- What session 0 issues behind the set-up: it makes its first pass and then waits. -/
inductive FirstPass (d : Deployment) (info : MsSessInfo) (issued : Nat) : List MsReq → Prop
  | before (hinfo : info = d.msSessInfo 0) : FirstPass d info issued []
  | made {k : Nat} {node : MsNode} {ptr : MsPtr} (hat : info.At .enqueuing .readTail false)
      (hqueue : info.queueId = (d.msSessInfo 0).queueId)
      (howned : info.ownedKey = (d.msSessInfo 0).ownedKey)
      (hkeyPtr : info.ownedKeyPtr = (d.msSessInfo 0).ownedKeyPtr)
      (hlastReq : info.lastReqId = u32 issued) (hnext : ptr.nextKeyId = 0)
      (hcounter : ptr.counter = 0) :
      FirstPass d info issued [.writeNode k node, .writePtr info.ownedKeyPtr ptr,
        .readPtr info.queueId .tail]

theorem setUp_writes {tail head : MsPtr} {n : Nat} {r : MsReq}
    (hr : r ∈ (List.range n).flatMap (d.setUpQueue tail head)) : ∃ key ptr, r = .writePtr key ptr := by
  obtain ⟨q, -, hr⟩ := List.mem_flatMap.mp hr
  rcases List.mem_cons.mp hr with rfl | hr
  · exact ⟨_, _, rfl⟩
  · rcases List.mem_cons.mp hr with rfl | hr
    · exact ⟨_, _, rfl⟩
    · rw [List.mem_singleton.mp hr]
      exact ⟨_, _, rfl⟩

namespace FirstPass

variable {x : MsSession} {info : MsSessInfo} {requests own w : List MsReq} {issued : Nat}

theorem made_of_pass (hinfo : x.info = d.msSessInfo 0)
    (hpass : d.msEnqueue x = .ok (info, requests)) :
    FirstPass d info (x.issued + requests.length) requests := by
  unfold Deployment.msEnqueue at hpass
  rw [hinfo] at hpass
  cases hpass
  exact .made ⟨rfl, rfl, rfl⟩ rfl rfl rfl rfl rfl rfl

/-- **A pass of the first client** in session 0 is the first one, since it then waits. -/
theorem before_of_pass (h : FirstPass d x.info x.issued own)
    (hqueue : x.queue = w ++ .releaseFlag msInitDoneFlag :: own)
    (hle : x.queue.length ≤ x.issued) (hfew : x.issued < 2 ^ 32) {cntr cntr' : Nat}
    (hpass : d.msLoopPass cntr x = .ok (cntr', info, requests)) :
    x.info = d.msSessInfo 0 ∧ own = [] ∧ cntr' = cntr ∧ d.msEnqueue x = .ok (info, requests) := by
  cases h with
  | before hinfo =>
    rw [Deployment.msLoopPass, hinfo] at hpass
    obtain ⟨⟨info', requests'⟩, henq, hpass⟩ := bind_eq_ok.mp hpass
    cases hpass
    exact ⟨hinfo, rfl, rfl, henq⟩
  | made hat hqid howned hkeyPtr hlastReq hnext hcounter =>
    -- the request that it waits for is behind the set-up
    rw [Deployment.msLoopPass, hat.enqOrDeq] at hpass
    obtain ⟨_, henq, -⟩ := bind_eq_ok.mp hpass
    unfold Deployment.msEnqueue at henq
    dsimp only at henq
    rw [hat.state] at henq
    obtain ⟨_, hpoll, -⟩ := bind_eq_ok.mp henq
    rw [hlastReq] at hpoll
    have hnone := executed_of_poll hle hfew (Nat.le_refl _) hpoll
    rw [hqueue, List.length_append, List.length_cons] at hnone
    omega

theorem pass (h : FirstPass d x.info x.issued own)
    (hqueue : x.queue = w ++ .releaseFlag msInitDoneFlag :: own)
    (hle : x.queue.length ≤ x.issued) (hfew : x.issued < 2 ^ 32) {cntr cntr' : Nat}
    (hpass : d.msLoopPass cntr x = .ok (cntr', info, requests)) :
    cntr' = cntr ∧ FirstPass d info (x.issued + requests.length) (own ++ requests) := by
  obtain ⟨hinfo, rfl, rfl, henq⟩ := h.before_of_pass hqueue hle hfew hpass
  exact ⟨rfl, made_of_pass hinfo henq⟩

end FirstPass

/-- A pass of a client that is in the loop. -/
theorem loopPass_of_pass {c c' : BenchClient} {x : MsSession} {info : MsSessInfo}
    {more : List MsReq} {g : Nat} {e : MsEvent} (hphase : c.phase = .running)
    (h : d.msService.pass g c x = .ok (c', info, more, e)) :
    ∃ cntr, d.msLoopPass c.queueIdCntr x = .ok (cntr, info, more) ∧
      c' = { c with queueIdCntr := cntr } ∧ e = .moved := by
  change (if g < d.globalSessionNum then _ else _) = _ at h
  split at h
  · obtain ⟨⟨c'', info', more'⟩, hms, h⟩ := bind_eq_ok.mp h
    cases h
    rw [Deployment.msPass, if_pos hphase] at hms
    obtain ⟨⟨cntr, info'', more''⟩, hloop, hms⟩ := bind_eq_ok.mp hms
    cases hms
    exact ⟨cntr, hloop, rfl, rfl⟩
  · nomatch h

/-- How the first client sets the queues up. -/
def msSetUpBy (d : Deployment) (tail head : MsPtr) : SetUpBy d d.msService where
  init := d.msSessInfo
  idle info := info.At .enqueuing .init false
  ask := .readFlag
  release := .releaseFlag msInitDoneFlag
  writes := (List.range d.msQueuesNum).flatMap (d.setUpQueue tail head)
  apply := MsStore.apply
  unset store := store.initDone = 0
  flag := MsSessInfo.initDoneFlag
  done := msInitDoneFlag
  first := FirstPass d
  quiet e := e = .moved ∨ e = .served
  clientOf_eq := rfl
  release_ne h := nomatch h
  idle_init _ := ⟨rfl, rfl, rfl⟩
  flag_init _ := by
    show 0 ≠ msInitDoneFlag
    decide
  first_init _ := .before rfl
  pass_lt {g c x r} h := by
    by_contra hc
    change (if g < d.globalSessionNum then _ else _) = _ at h
    rw [if_neg hc] at h
    nomatch h
  first_pass {c x requests w c' info more e} hphase hfirst hqueue hle hfew h := by
    obtain ⟨cntr, hloop, rfl, rfl⟩ := loopPass_of_pass hphase h
    obtain ⟨rfl, hpass⟩ := hfirst.pass hqueue hle hfew hloop
    exact ⟨hphase, rfl, Or.inl rfl, hpass⟩
  wait_pass {g c x c' info more e} hphase h := by
    change (if g < d.globalSessionNum then _ else _) = _ at h
    split at h
    · obtain ⟨⟨c'', info', more'⟩, hms, h⟩ := bind_eq_ok.mp h
      cases h
      rw [Deployment.msPass, if_neg hphase] at hms
      exact ⟨Or.inl rfl, hms⟩
    · nomatch h
  serve_write {spurious store info r store' info' e} hr h := by
    obtain ⟨key, ptr, rfl⟩ := setUp_writes hr
    cases h
    exact ⟨rfl, rfl, Or.inr rfl⟩
  serve_ask {spurious store g store' info' e} hunset h := by
    cases h
    rw [hunset]
    exact ⟨rfl, rfl, Or.inr rfl⟩
  unset_apply {store r} hr hunset := by
    obtain ⟨key, ptr, rfl⟩ := setUp_writes hr
    exact hunset

theorem msSetUpBy_start (hpos : 0 < d.msQueuesNum) (tail head : MsPtr) :
    (msSetUpBy d tail head).Start (d.msStart tail head) where
  first := by
    show (⟨_, _, _⟩ : MsSession) = _
    rw [Deployment.msSetUp, List.length_append]
    rfl
  others g hg := if_neg hg
  running c := by
    show (if c = 0 then InitPhase.running else .waiting) = _ ↔ _
    by_cases hc : c = 0
    · rw [if_pos hc]
      exact ⟨fun _ => hc, fun _ => rfl⟩
    · rw [if_neg hc]
      exact ⟨fun h => (nomatch h), fun h => absurd h hc⟩
  cntr_lt c := Nat.mod_lt _ hpos
  unset := rfl

/-! ## Where the invariant begins -/

namespace MsInv

variable {tail head : MsPtr} {tr : MsTrace} {s : MsSys} {g : Nat}

/-- The nodes when the queues are set up: every session has its own, every queue its dummy. -/
theorem placed_start (hf : MsFits d) {owned : Nat → Option Nat}
    (howned : ∀ g, g < d.globalSessionNum → owned g = some (d.msNodeKeyOffset + g)) :
    Placed d.isMsNode (holdsNode d.globalSessionNum d.msQueuesNum owned fun q => [d.dummyKey q]) where
  somewhere {k} hk := by
    obtain ⟨hlo, hhi⟩ := hk
    rw [Deployment.msInitDoneFlagKey, msWritesNum, Nat.one_mul] at hhi
    have hoffset : d.msNodeKeyOffset = d.dummyKeyIdOffset + d.msQueuesNum := by
      rw [Deployment.msNodeKeyOffset, msWritesNum, Nat.one_mul]
    have hsessions : d.msQueuesNum = d.globalSessionNum := rfl
    by_cases hdummy : k < d.msNodeKeyOffset
    · have hq : k - d.dummyKeyIdOffset < d.msQueuesNum := by omega
      refine ⟨.linked (k - d.dummyKeyIdOffset), hq, ?_⟩
      show k ∈ [d.dummyKey (k - d.dummyKeyIdOffset)]
      rw [hf.dummyKey_eq hq, List.mem_singleton]
      omega
    · have hg : k - d.msNodeKeyOffset < d.globalSessionNum := by omega
      refine ⟨.session (k - d.msNodeKeyOffset), hg, ?_⟩
      rw [howned _ hg]
      exact congrArg some (by omega)
  once {p p' k} hp hp' := by
    have hsession : ∀ {g}, g < d.globalSessionNum → owned g = some k → k = d.msNodeKeyOffset + g := by
      intro g hg hk
      rw [howned g hg] at hk
      exact (Option.some.inj hk).symm
    rcases p with g | q
    · have hk := hsession hp.1 hp.2
      rcases p' with g' | q'
      · have hk' := hsession hp'.1 hp'.2
        rw [show g = g' by omega]
      · have hlt := hf.dummy_lt hp'.1
        rw [← List.mem_singleton.mp hp'.2] at hlt
        omega
    · have hk := List.mem_singleton.mp hp.2
      have hlt := hf.dummy_lt hp.1
      rcases p' with g' | q'
      · have hk' := hsession hp'.1 hp'.2
        omega
      · have hk' := List.mem_singleton.mp hp'.2
        rw [hf.dummyKey_eq hp.1] at hk
        rw [hf.dummyKey_eq hp'.1] at hk'
        rw [show q = q' by omega]
  isItem {p k} hp := by
    rcases p with g | q
    · have hk := hp.2
      rw [howned g hp.1, ← hf.ownedKey_eq hp.1] at hk
      rw [← Option.some.inj hk]
      exact hf.owned_isNode hp.1
    · rw [List.mem_singleton.mp hp.2]
      exact hf.dummy_isNode hp.1

/-- A session when the queues are set up. -/
structure AtStart (d : Deployment) (store : MsStore) (g : Nat) (x : MsSession) : Prop where
  queueId : x.info.queueId = (d.msSessInfo g).queueId
  ownedKey : x.info.ownedKey = (d.msSessInfo g).ownedKey
  ownedKeyPtr : x.info.ownedKeyPtr = (d.msSessInfo g).ownedKeyPtr
  owned : x.info.owned = some x.info.ownedKey
  point : MsPoint d store [d.dummyKey x.info.queueId] x
  lastReq : x.info.state ≠ .init → x.info.lastReqId = u32 x.issued ∧ x.info.lag = 0

theorem owned_of_at {info : MsSessInfo} {state : MsState} (hat : info.At .enqueuing state false) :
    info.owned = some info.ownedKey := by
  rw [MsSessInfo.owned, hat.enqOrDeq, hat.success]
  rfl

theorem atStart_idle {store : MsStore} {x : MsSession} (hinfo : x.info = d.msSessInfo g)
    (hcounter : (store.link d (d.msSessInfo g).ownedKey).counter = 0)
    (hqueue : x.queue = [] ∨ x.queue = [.readFlag]) : AtStart d store g x := by
  have hat : x.info.At .enqueuing .init false := by
    rw [hinfo]
    exact ⟨rfl, rfl, rfl⟩
  have hlink : (store.link d x.info.ownedKey).counter = x.info.ownedNodePtr.counter := by
    rw [hinfo]
    exact hcounter
  constructor
  · rw [hinfo]
  · rw [hinfo]
  · rw [hinfo]
  · exact owned_of_at hat
  · rcases hqueue with hempty | hasked
    · exact .enqInit hat hempty hlink
    · exact .enqAsking hat hasked hlink
  · exact fun hc => absurd hat.state hc

theorem atStart_first {store : MsStore} {x : MsSession} {requests : List MsReq}
    (hcounter : (store.link d (d.msSessInfo 0).ownedKey).counter = 0)
    (hqueue : x.queue = requests) (hfirst : FirstPass d x.info x.issued requests) : AtStart d store 0 x := by
  cases hfirst with
  | before hinfo => exact atStart_idle hinfo hcounter (Or.inl hqueue)
  | made hat hqueueId howned hkeyPtr hlastReq hnext hzero =>
    refine ⟨hqueueId, howned, hkeyPtr, owned_of_at hat, .enqWriting hat hqueue hnext ?_,
      fun _ => ⟨hlastReq, ?_⟩⟩
    · rw [howned, hcounter, hzero]
    · rw [MsSessInfo.lag, hat.enqOrDeq, if_neg (fun hc => by cases hc.1)]

theorem no_events (h : ∀ t ∈ tr, t.2 = .moved ∨ t.2 = .served) (q : Nat) :
    entered tr q = [] ∧ left tr q = [] := by
  constructor
  · refine List.filterMap_eq_nil_iff.mpr ?_
    rintro ⟨turn, e⟩ ht
    rcases h _ ht with rfl | rfl <;> rfl
  · refine List.filterMap_eq_nil_iff.mpr ?_
    rintro ⟨turn, e⟩ ht
    rcases h _ ht with rfl | rfl <;> rfl

/-- **The queues are set up**, when the flag is released. -/
theorem start (h : SettingUp (msSetUpBy d tail head) (d.msStart tail head).store tr s [])
    (hf : MsFits d) (hpos : 0 < d.msQueuesNum) {turn : Turn} {e : MsEvent} (he : e = .moved ∨ e = .served) {x : MsSession}
    {requests : List MsReq} (hqueue : x.queue = requests)
    (hfirst : FirstPass d x.info x.issued requests) :
    MsInv d (tr ++ [(turn, e)]) ⟨{ s.store with initDone := msInitDoneFlag }, s.shared,
      Function.update s.session 0 x⟩ fun q => [d.dummyKey q] := by
  have hstore : SetUpTo d d.msQueuesNum s.store := by
    have hstored := h.stored
    rw [List.foldl_nil] at hstored
    rw [hstored]
    exact SetUpTo.setUpStore hf tail head _ (Nat.le_refl _)
  have hcounter : ∀ g, g < d.globalSessionNum →
      (s.store.link d (d.msSessInfo g).ownedKey).counter = 0 := fun g hg =>
    hstore.node _ (hf.owned_isNode hg) (by rw [hf.ownedKey_eq hg]; exact Nat.le_add_right ..)
  have hsession : ∀ g, g < d.globalSessionNum →
      AtStart d s.store g (Function.update s.session 0 x g) := by
    intro g hg
    by_cases hne : g = 0
    · subst hne
      rw [Function.update_self]
      exact atStart_first (hcounter 0 hg) hqueue hfirst
    · rw [Function.update_of_ne hne]
      obtain ⟨hinfo, hqueue⟩ := h.others g hne
      exact atStart_idle hinfo (hcounter g hg) hqueue
  have hqueueId : ∀ g, g < d.globalSessionNum → (d.msSessInfo g).queueId = g := by
    intro g hg
    unfold MsFits at hf
    show d.globSessI g = g
    rw [d.globSessI_eq, u16, Nat.mod_eq_of_lt (by omega)]
  constructor
  case point =>
    intro g hg
    have hends : EndsIn d s.store fun q => [d.dummyKey q] :=
      ⟨fun q hq => List.mem_singleton.mpr (hstore.tail q hq),
        fun q hq => List.mem_singleton.mpr (hstore.head q hq)⟩
    have hframe : MsFrame d s.store { s.store with initDone := msInitDoneFlag }
        (fun q => [d.dummyKey q]) (fun q => [d.dummyKey q])
        (Function.update s.session 0 x g).info.owned := .same (by rfl) _
    refine hframe.point hends ?_ (hsession g hg).point
    rw [(hsession g hg).queueId, hqueueId g hg]
    exact hg
  case queue_lt =>
    intro g hg
    show (Function.update s.session 0 x g).info.queueId < _
    rw [(hsession g hg).queueId, hqueueId g hg]
    exact hg
  case keyPtr =>
    intro g hg
    show (Function.update s.session 0 x g).info.ownedKeyPtr
      = d.msGetNodePtrKeyId (Function.update s.session 0 x g).info.ownedKey
    rw [(hsession g hg).ownedKeyPtr, (hsession g hg).ownedKey]
    rfl
  case lastReq =>
    intro g hg hinit _
    obtain ⟨hreq, hlag⟩ := (hsession g hg).lastReq hinit
    show (Function.update s.session 0 x g).info.lastReqId = u32 ((Function.update s.session 0 x g).issued
      - (Function.update s.session 0 x g).info.lag)
    rw [hlag]
    exact hreq
  case outside =>
    intro g hg
    show (Function.update s.session 0 x g).queue = _ ∧ (Function.update s.session 0 x g).issued = _
    rw [Function.update_of_ne (by rintro rfl; exact absurd hpos (Nat.not_lt.mpr hg))]
    exact h.outside g hg
  case phases =>
    refine h.phases.running (fun _ => rfl) ?_ ?_
    · rw [SettingUp.clientOf_zero]
      exact (h.running 0).mpr rfl
    · rw [hqueue]
      intro hc
      cases hfirst with
      | before => nomatch hc
      | made => nomatch hc
  case cntr_lt => exact fun c _ => h.cntr_lt c
  case initDone => rfl
  case path =>
    intro q hq
    exact ⟨hstore.head q hq, hstore.dummy q hq⟩
  case nodup => exact fun q _ => List.nodup_singleton _
  case tail_mem => exact fun q hq => List.mem_singleton.mpr (hstore.tail q hq)
  case waiting_eq =>
    intro q _
    have hnone : MsSys.waiting d ⟨{ s.store with initDone := msInitDoneFlag }, s.shared,
        Function.update s.session 0 x⟩ q = 0 := by
      refine List.countP_eq_zero.mpr fun g hg => ?_
      show ¬ (_ && (Function.update s.session 0 x g).info.owned.isNone) = true
      rw [(hsession g (List.mem_range.mp hg)).owned, Option.isNone_some, Bool.and_false]
      decide
    rw [hnone]
    rfl
  case order =>
    intro q _
    obtain ⟨hentered, hleft⟩ : entered (tr ++ [(turn, e)]) q = [] ∧ left (tr ++ [(turn, e)]) q = [] :=
      no_events (h.events_concat he) q
    rw [hentered, hleft]
    rfl
  case placed =>
    refine placed_start hf fun g hg => ?_
    show (Function.update s.session 0 x g).info.owned = _
    rw [(hsession g hg).owned, (hsession g hg).ownedKey, hf.ownedKey_eq hg]
  case bound => exact fun key => Nat.le_trans (hstore.counter key) (Nat.le_add_left ..)

end MsInv

/-- What a run under the conditions has reached: either the set-up is not executed yet, or the
    queues are as they should be. -/
theorem ms_run (hf : MsFits d) (hpos : 0 < d.msQueuesNum) {tail head : MsPtr} {tr : MsTrace}
    {s : MsSys} (hrun : Run d.msService.step (d.msStart tail head) tr s)
    (hfew : ∀ g, g < d.globalSessionNum → (s.session g).issued < 2 ^ 32)
    (hfirst : SetUpFirst d (d.msSetUp tail head).length tr) :
    (∃ w, SettingUp (msSetUpBy d tail head) (d.msStart tail head).store tr s w) ∨
      ∃ chain, MsInv d tr s chain := by
  have hlength : (d.msSetUp tail head).length = (msSetUpBy d tail head).writes.length + 1 :=
    List.length_append
  rw [hlength] at hfirst
  refine (msSetUpBy d tail head).invariant hf hpos (msSetUpBy_start hpos tail head)
    (fun tr s => ∃ chain, MsInv d tr s chain) ?_ ?_ ?_ hrun hfew hfirst
  · intro tr s spurious requests store info e h hpass hserve
    cases hserve
    exact ⟨_, MsInv.start h hf hpos (Or.inr rfl) rfl hpass⟩
  · rintro tr s ⟨chain, h⟩ g hg
    exact (h.outside g hg).2
  · rintro tr s k s' e ⟨chain, h⟩ hle hissued hserved hstep
    exact h.step hf hle hissued hserved hstep

/-- **What is to hold of the queues**: queue `q` has the nodes `chain q`. -/
structure MsQueues (d : Deployment) (tr : MsTrace) (s : MsSys) (chain : Nat → List Nat) : Prop where
  /-- from the node at the head, the pointers lead to the end -/
  path : ∀ q, q < d.msQueuesNum → Path (s.store.next d) (s.store.head d q).nextKeyId (chain q) 0
  /-- and through no node twice -/
  nodup : ∀ q, q < d.msQueuesNum → (chain q).Nodup
  /-- the tail does not fall behind the head -/
  tail : ∀ q, q < d.msQueuesNum →
    (s.store.tail q).nextKeyId ∈ chain q ∧ (s.store.tail q).nextKeyId ≠ 0
  /-- what entered a queue, its first node included, has left it in this order or is in it -/
  order : ∀ q, q < d.msQueuesNum → d.dummyKey q :: entered tr q = left tr q ++ chain q
  /-- every node is with one session or in one queue -/
  place : ∀ k, d.isMsNode k → ∃! p, holdsNode d.globalSessionNum d.msQueuesNum
    (fun g => (s.session g).info.owned) chain p k

theorem MsInv.queues {tr : MsTrace} {s : MsSys} {chain : Nat → List Nat}
    (h : MsInv d tr s chain) : MsQueues d tr s chain where
  path := h.path
  nodup := h.nodup
  tail q hq := ⟨h.tail_mem q hq, isMsNode_ne_zero (h.node_of_mem hq (h.tail_mem q hq))⟩
  order := h.order
  place _ hk := h.placed.existsUnique hk

/-- Without a session there is nothing to hold. -/
theorem MsQueues.of_none (hnone : d.globalSessionNum = 0) (tr : MsTrace) (s : MsSys) :
    MsQueues d tr s fun _ => [] := by
  change d.msQueuesNum = 0 at hnone
  refine ⟨?_, ?_, ?_, ?_, ?_⟩
  · exact fun q hq => absurd hq (by omega)
  · exact fun q hq => absurd hq (by omega)
  · exact fun q hq => absurd hq (by omega)
  · exact fun q hq => absurd hq (by omega)
  · rintro k ⟨hlo, hhi⟩
    unfold Deployment.msInitDoneFlagKey Deployment.msNodeKeyOffset at hhi
    rw [hnone] at hhi
    omega

/-- The queues are correct once they are set up, whatever order the sessions make their passes in,
    if no other session of the first client began before the set-up was executed. -/
theorem queues_of_first (hf : MsFits d) {tail head : MsPtr} {tr : MsTrace} {s : MsSys}
    (hrun : Run d.msService.step (d.msStart tail head) tr s)
    (hfew : ∀ g, g < d.globalSessionNum → (s.session g).issued < 2 ^ 32)
    (hfirst : SetUpFirst d (d.msSetUp tail head).length tr)
    (hinit : s.store.initDone = msInitDoneFlag) : ∃ chain, MsQueues d tr s chain := by
  rcases Nat.eq_zero_or_pos d.msQueuesNum with hnone | hpos
  · exact ⟨_, .of_none hnone tr s⟩
  · rcases ms_run hf hpos hrun hfew hfirst with ⟨w, h⟩ | ⟨chain, h⟩
    · nomatch hinit.symm.trans h.unset
    · exact ⟨chain, h.queues⟩

/-! ## Two machines with two sessions each -/

/-- Two machines with one client each, of two sessions. -/
def Deployment.four : Deployment where
  machineNum := 2
  sessionsPerMachine := 2
  sessionsPerClient := 2
  clientsPerMachine := 1
  numOfRmwKeys := 60000
  clientAssertions := false
  sessionsPerMachine_pos := by decide
  sessionsPerMachine_le := by decide

end Odyssey
