/-
  THE HARRIS-MICHAEL LISTS FROM THE START.

  `hmSetUpBy` says how the first client sets the lists up: behind every head is one node, which no
  session owns.  That is where `HmInv` begins, so it holds of every run in which the set-up was
  executed first and no pointer is taken for the one that was read after it was overwritten.

  What that says of the lists is in terms of their nodes (`HmNodes`), which are found from a head by
  their `next_key_id`.
-/
import Odyssey.HarrisMichaelSteps

namespace Odyssey

open Lib

variable {d : Deployment}

/-! ## What the set-up writes -/

/-- A request of the set-up is executed. -/
def HmStore.apply (store : HmStore) : HmReq → HmStore
  | .writePtr key ptr => store.write key ptr
  | .writeNode key node => { store with node := Function.update store.node key node }
  | _ => store

/-- The store after the set-up of the first `n` lists. -/
def Deployment.hmSetUpStore (d : Deployment) (n : Nat) : HmStore :=
  ((List.range n).flatMap d.setUpList).foldl HmStore.apply ⟨fun _ => .zero, fun _ => ⟨0, 0⟩, 0⟩

/-- The node that the set-up puts in a list. -/
def Deployment.preinserted (d : Deployment) (list : Nat) : Nat :=
  d.hmPreinsertedNodeKeyOffset + hmWritesNum * list

/-- A store in which `n` lists are set up. -/
structure HmSetUpTo (d : Deployment) (n : Nat) (store : HmStore) : Prop where
  head : ∀ l, l < n → store.ptr l = ⟨true, false, l, l, d.preinserted l, 0⟩
  node : ∀ l, l < n → store.ptr (d.hmListsNum + l) = ⟨true, false, l, d.hmListsNum + l, 0, 0⟩
  body : ∀ l, l < n → store.BodyOk d (d.preinserted l)
  counter : ∀ key, (store.ptr key).counter = 0

namespace HmFits

variable {l g : Nat}

theorem preinserted_isHmNode (_ : HmFits d) (hl : l < d.hmListsNum) :
    d.isHmNode (d.preinserted l) := ⟨l, by omega, rfl⟩

theorem preinserted_linkKey (h : HmFits d) (hl : l < d.hmListsNum) :
    d.hmGetNodePtrKeyId (d.preinserted l) = d.hmListsNum + l := h.linkKey_eq (by omega)

theorem preinserted_inj {l' : Nat} (h : d.preinserted l = d.preinserted l') : l = l' := by
  unfold Deployment.preinserted hmWritesNum at h
  omega

/-- The keys of the session. -/
theorem hmSessInfo_keyed (h : HmFits d) (hg : g < d.globalSessionNum) :
    Keyed d (d.hmOwnedKey g) (d.hmSessInfo g) := by
  have hsessions := h.sessions
  have hindex : d.globSessI g = g := by
    rw [d.globSessI_eq, u16, Nat.mod_eq_of_lt (by omega)]
  have hkey : u32 (d.hmFreeNodeKeyOffset + d.globSessI g * hmWritesNum) = d.hmOwnedKey g := by
    rw [hindex]
    exact u32_of_lt (Nat.lt_of_lt_of_le (h.isHmNode_lt (h.owned_isHmNode hg)) (Nat.sub_le ..))
  refine ⟨hkey, ?_, ?_, rfl⟩
  · show d.hmGetNodePtrKeyId _ = _
    rw [hkey]
  · show d.globSessI g < _
    rw [hindex]
    exact hg

/-- The pointers of the sessions are behind those that the set-up writes. -/
theorem owned_linkKey (h : HmFits d) (hg : g < d.globalSessionNum) :
    d.hmGetNodePtrKeyId (d.hmOwnedKey g) = d.hmListsNum + (d.hmListsNum + g) := by
  have hkey : d.hmOwnedKey g = d.hmPreinsertedNodeKeyOffset + hmWritesNum * (d.hmListsNum + g) := by
    unfold Deployment.hmOwnedKey Deployment.hmFreeNodeKeyOffset
    rw [Nat.mul_add, Nat.mul_comm g]
    omega
  rw [hkey]
  refine h.linkKey_eq ?_
  unfold Deployment.hmListsNum
  omega

end HmFits

namespace HmSetUpTo

variable {store : HmStore} {n : Nat}

theorem zero : HmSetUpTo d 0 ⟨fun _ => .zero, fun _ => ⟨0, 0⟩, 0⟩ where
  head _ hl := absurd hl (Nat.not_lt_zero _)
  node _ hl := absurd hl (Nat.not_lt_zero _)
  body _ hl := absurd hl (Nat.not_lt_zero _)
  counter _ := rfl

/-- One more list is set up. -/
theorem succ (h : HmSetUpTo d n store) (hf : HmFits d) (hn : n < d.hmListsNum) :
    HmSetUpTo d (n + 1) ((d.setUpList n).foldl HmStore.apply store) := by
  have hkey : u32 (d.hmPreinsertedNodeKeyOffset + hmWritesNum * n) = d.preinserted n :=
    u32_of_lt (Nat.lt_of_lt_of_le (hf.isHmNode_lt (hf.preinserted_isHmNode hn)) (Nat.sub_le ..))
  have hlink := hf.preinserted_linkKey hn
  let store' := (store.write n ⟨true, false, n, n, d.preinserted n, 0⟩).write (d.hmListsNum + n)
    ⟨true, false, n, d.hmListsNum + n, 0, 0⟩
  have hstore : (d.setUpList n).foldl HmStore.apply store =
      { store' with
        node := Function.update store.node (d.preinserted n)
          ⟨d.preinserted n, d.hmListsNum + n⟩ } := by
    unfold Deployment.setUpList
    dsimp only
    rw [hkey, hlink]
    rfl
  rw [hstore]
  constructor
  case head =>
    intro l hl
    show store'.ptr l = _
    rw [HmStore.write_of_ne (by omega)]
    by_cases hne : l = n
    · rw [hne, HmStore.write_self]
    · rw [HmStore.write_of_ne hne]
      exact h.head l (by omega)
  case node =>
    intro l hl
    show store'.ptr _ = _
    by_cases hne : l = n
    · rw [hne, HmStore.write_self]
    · rw [HmStore.write_of_ne (by omega), HmStore.write_of_ne (by omega)]
      exact h.node l (by omega)
  case body =>
    intro l hl
    by_cases hne : l = n
    · rw [hne]
      exact .written hlink.symm
    · have hbody : store'.BodyOk d (d.preinserted l) := h.body l (by omega)
      exact hbody.kept (fun hc => hne (HmFits.preinserted_inj hc)) _
  case counter =>
    intro key
    show (store'.ptr key).counter = 0
    by_cases hnode : key = d.hmListsNum + n
    · rw [hnode, HmStore.write_self]
    · rw [HmStore.write_of_ne hnode]
      by_cases hhead : key = n
      · rw [hhead, HmStore.write_self]
      · rw [HmStore.write_of_ne hhead]
        exact h.counter key

/-- **The lists are set up**: each has one node. -/
theorem hmSetUpStore (hf : HmFits d) : ∀ n, n ≤ d.hmListsNum → HmSetUpTo d n (d.hmSetUpStore n)
  | 0, _ => zero
  | n + 1, hn => by
      have hsucc := (hmSetUpStore hf n (by omega)).succ hf (by omega)
      unfold Deployment.hmSetUpStore at hsucc ⊢
      rw [List.range_succ, List.flatMap_append, List.foldl_append]
      simpa using hsucc

/-- **The lists** that the set-up leaves. -/
theorem lists (h : HmSetUpTo d d.hmListsNum store) (hf : HmFits d) :
    HmLists d store fun l => [l, d.hmListsNum + l] := by
  have hcell : ∀ {l p : Nat}, p ∈ [l, d.hmListsNum + l] → p = l ∨ p = d.hmListsNum + l := by
    intro l p hp
    simpa using hp
  constructor
  case path =>
    intro l hl
    have hafter : store.after d l = d.hmListsNum + l := by
      have hne := hf.isHmNode_ne_zero (hf.preinserted_isHmNode hl)
      rw [HmStore.after, h.head l hl, behind_of_ne hne]
      exact hf.preinserted_linkKey hl
    have hlast : store.after d (d.hmListsNum + l) = d.lastHmNodePtr := by
      rw [HmStore.after, h.node l hl]
      rfl
    exact ⟨rfl, hafter, hlast⟩
  case sorted =>
    intro l hl
    simp
    omega
  case node =>
    intro l p hl hp
    rcases hcell hp with rfl | rfl
    · exact Or.inl rfl
    · exact Or.inr ⟨d.preinserted l, hf.preinserted_isHmNode hl, (hf.preinserted_linkKey hl).symm⟩
  case disjoint =>
    intro l l' p hl hl' hp hp'
    rcases hcell hp with rfl | rfl
    · rcases hcell hp' with heq | heq <;> omega
    · rcases hcell hp' with heq | heq <;> omega
  case valid =>
    intro l p hl hp hne
    rcases hcell hp with rfl | rfl
    · rw [h.head p hl]
      exact hf.preinserted_isHmNode hl
    · rw [h.node l hl] at hne
      exact absurd rfl hne
  case myKey =>
    intro l p hl hp
    rcases hcell hp with rfl | rfl
    · rw [h.head p hl]
    · rw [h.node l hl]
  case body =>
    intro l k hl hk hp
    have hrange := (hf.linkKey_range hk).1
    rcases hcell hp with heq | heq
    · omega
    · rw [← hf.preinserted_linkKey hl] at heq
      rw [hf.linkKey_inj hk (hf.preinserted_isHmNode hl) heq]
      exact h.body l hl
  case head =>
    intro l hl
    rw [h.head l hl]

/-- The nodes of the sessions are in no list. -/
theorem owned_out (hf : HmFits d) {g : Nat} (hg : g < d.globalSessionNum) :
    OutOfLists d (fun l => [l, d.hmListsNum + l]) (d.hmGetNodePtrKeyId (d.hmOwnedKey g)) := by
  intro l hl hp
  rw [hf.owned_linkKey hg] at hp
  have hcell : d.hmListsNum + (d.hmListsNum + g) = l ∨
      d.hmListsNum + (d.hmListsNum + g) = d.hmListsNum + l := by simpa using hp
  omega

end HmSetUpTo

/-! ## How the lists are set up -/

/-- What session 0 issues behind the set-up: it makes its first pass and then waits. -/
inductive HmFirstPass (d : Deployment) (info : HmSessInfo) (issued : Nat) : List HmReq → Prop
  | before (hinfo : info = d.hmSessInfo 0) : HmFirstPass d info issued []
  | made {x : HmSession} (hx : x.info = d.hmSessInfo 0) (hinfo : info = (hmInsertInit x).1)
      (hissued : issued = x.issued + (hmInsertInit x).2.length) :
      HmFirstPass d info issued (hmInsertInit x).2

theorem hmSetUp_writes {n : Nat} {r : HmReq} (hr : r ∈ (List.range n).flatMap d.setUpList) :
    (∃ key ptr, r = .writePtr key ptr) ∨ ∃ key node, r = .writeNode key node := by
  obtain ⟨l, -, hr⟩ := List.mem_flatMap.mp hr
  rcases List.mem_cons.mp hr with rfl | hr
  · exact Or.inl ⟨_, _, rfl⟩
  · rcases List.mem_cons.mp hr with rfl | hr
    · exact Or.inl ⟨_, _, rfl⟩
    · rw [List.mem_singleton.mp hr]
      exact Or.inr ⟨_, _, rfl⟩

/-- **A pass of the first client** in session 0 is the first one, since it then waits. -/
theorem HmFirstPass.pass {x : HmSession} {info : HmSessInfo} {requests own w : List HmReq}
    (h : HmFirstPass d x.info x.issued own)
    (hqueue : x.queue = w ++ .releaseFlag hmInitDoneFlag :: own)
    (hle : x.queue.length ≤ x.issued) (hfew : x.issued < 2 ^ 32) {noConflict : Bool}
    {cntr cntr' : Nat} (hpass : d.hmLoopPass noConflict cntr x = .ok (cntr', info, requests)) :
    cntr' = cntr ∧ HmFirstPass d info (x.issued + requests.length) (own ++ requests) := by
  cases h with
  | before hinfo =>
    have hinsert := hmInsert_of_pass hpass (by rw [hinfo]; rfl)
    unfold Deployment.hmLoopPass at hpass
    rw [hinfo] at hpass
    obtain ⟨⟨info', requests'⟩, -, hpass⟩ := bind_eq_ok.mp hpass
    cases hpass
    unfold hmInsert at hinsert
    rw [hinfo] at hinsert
    have hpair : hmInsertInit x = (info, requests) := Except.ok.inj hinsert
    have hmade := HmFirstPass.made (d := d) hinfo rfl rfl
    rw [hpair] at hmade
    exact ⟨rfl, hmade⟩
  | @made x' hx hinfo hissued =>
    -- the request that it waits for is behind the set-up
    have hsearching : x.info.insOrDelState = .searchingIns := by
      rw [hinfo]
      show x'.info.insOrDelState.searching = _
      rw [hx]
      rfl
    obtain ⟨hpoll, -⟩ := searchInnerLoop_of_pass (hmSearch_of_pass hpass (Or.inl hsearching))
      (by rw [hinfo]; rfl)
    have hlast : x.info.lastReqId = u32 x.issued := by
      rw [hinfo, hissued]
      rfl
    rw [hlast] at hpoll
    have hnone := executed_of_poll hle hfew (Nat.le_refl _) hpoll
    rw [hqueue, List.length_append, List.length_cons] at hnone
    omega

/-- A pass of a client that is in the loop. -/
theorem hmLoopPass_of_pass {noConflict : Bool} {c c' : BenchClient} {x : HmSession}
    {info : HmSessInfo} {more : List HmReq} {g : Nat} {e : HmEvent} (hphase : c.phase = .running)
    (h : (d.hmService noConflict).pass g c x = .ok (c', info, more, e)) :
    ∃ cntr, d.hmLoopPass noConflict c.queueIdCntr x = .ok (cntr, info, more) ∧
      c' = { c with queueIdCntr := cntr } ∧ e = .moved := by
  change (if g < d.globalSessionNum then _ else _) = _ at h
  split at h
  · obtain ⟨⟨c'', info', more'⟩, hhm, h⟩ := bind_eq_ok.mp h
    cases h
    rw [Deployment.hmPass, if_pos hphase] at hhm
    obtain ⟨⟨cntr, info'', more''⟩, hloop, hhm⟩ := bind_eq_ok.mp hhm
    cases hhm
    exact ⟨cntr, hloop, rfl, rfl⟩
  · cases h

/-- An event of the set-up. -/
def HmEvent.OfSetUp : HmEvent → Prop
  | .moved | .served | .wrote _ => True
  | _ => False

/-- How the first client sets the lists up. -/
def hmSetUpBy (d : Deployment) (noConflict : Bool) : SetUpBy d (d.hmService noConflict) where
  init := d.hmSessInfo
  idle info := info.At .inserting .init
  ask := .readFlag
  release := .releaseFlag hmInitDoneFlag
  writes := (List.range d.hmListsNum).flatMap d.setUpList
  apply := HmStore.apply
  unset store := store.initDone = 0
  flag := HmSessInfo.initDoneFlag
  done := hmInitDoneFlag
  first := HmFirstPass d
  quiet := HmEvent.OfSetUp
  clientOf_eq := rfl
  release_ne h := by cases h
  idle_init _ := ⟨rfl, rfl⟩
  flag_init _ := by
    show 0 ≠ hmInitDoneFlag
    decide
  first_init _ := .before rfl
  pass_lt {g c x r} h := by
    by_contra hc
    change (if g < d.globalSessionNum then _ else _) = _ at h
    rw [if_neg hc] at h
    cases h
  first_pass {c x requests w c' info more e} hphase hfirst hqueue hle hfew h := by
    obtain ⟨cntr, hloop, rfl, rfl⟩ := hmLoopPass_of_pass hphase h
    obtain ⟨rfl, hpass⟩ := hfirst.pass hqueue hle hfew hloop
    exact ⟨hphase, rfl, trivial, hpass⟩
  wait_pass {g c x c' info more e} hphase h := by
    change (if g < d.globalSessionNum then _ else _) = _ at h
    split at h
    · obtain ⟨⟨c'', info', more'⟩, hhm, h⟩ := bind_eq_ok.mp h
      cases h
      rw [Deployment.hmPass, if_neg hphase] at hhm
      exact ⟨trivial, hhm⟩
    · cases h
  serve_write {spurious store info r store' info' e} hr h := by
    rcases hmSetUp_writes hr with ⟨key, ptr, rfl⟩ | ⟨key, node, rfl⟩
    · cases h
      exact ⟨rfl, rfl, trivial⟩
    · cases h
      exact ⟨rfl, rfl, trivial⟩
  serve_ask {spurious store g store' info' e} hunset h := by
    cases h
    rw [hunset]
    exact ⟨rfl, rfl, trivial⟩
  unset_apply {store r} hr hunset := by
    rcases hmSetUp_writes hr with ⟨key, ptr, rfl⟩ | ⟨key, node, rfl⟩
    · exact hunset
    · exact hunset

theorem hmSetUpBy_start (hpos : 0 < d.hmListsNum) (noConflict : Bool) :
    (hmSetUpBy d noConflict).Start d.hmStart where
  first := by
    show (⟨_, _, _⟩ : HmSession) = _
    rw [Deployment.hmSetUp, List.length_append]
    rfl
  others g hg := if_neg hg
  running c := by
    show (if c = 0 then InitPhase.running else .waiting) = _ ↔ _
    by_cases hc : c = 0
    · rw [if_pos hc]
      exact ⟨fun _ => hc, fun _ => rfl⟩
    · rw [if_neg hc]
      exact ⟨fun h => (by cases h), fun h => absurd h hc⟩
  cntr_lt c := Nat.mod_lt _ hpos
  unset := rfl

/-! ## Where the invariant begins -/

theorem memberOf_setUp {tr : HmTrace} (h : ∀ t ∈ tr, t.2.OfSetUp) (k : Nat) :
    memberOf d k tr = none := by
  induction tr using List.reverseRecOn with
  | nil => rfl
  | append_singleton tr t ih =>
    obtain ⟨hold, hnew⟩ := List.forall_mem_append.mp h
    rw [memberOf_concat, ih hold]
    have hlast := hnew t (List.mem_singleton.mpr rfl)
    cases ht : t.2 with
    | moved | served | wrote => rfl
    | read | matched | inserted | marked | unlinked =>
      rw [ht] at hlast
      exact hlast.elim

namespace HmInv

variable {noConflict : Bool} {tr : HmTrace} {s : HmSys}

/-- **The lists are set up**, when the flag is released. -/
theorem start (h : SettingUp (hmSetUpBy d noConflict) d.hmStart.store tr s []) (hf : HmFits d)
    (hpos : 0 < d.globalSessionNum) {turn : Turn} {e : HmEvent} (he : e.OfSetUp) {x : HmSession}
    {requests : List HmReq} (hqueue : x.queue = requests)
    (hfirst : HmFirstPass d x.info x.issued requests) :
    HmInv d (tr ++ [(turn, e)]) ⟨{ s.store with initDone := hmInitDoneFlag }, s.shared,
      Function.update s.session 0 x⟩ fun l => [l, d.hmListsNum + l] := by
  have hstore : HmSetUpTo d d.hmListsNum s.store := by
    have hstored := h.stored
    rw [List.foldl_nil] at hstored
    rw [hstored]
    exact HmSetUpTo.hmSetUpStore hf _ (Nat.le_refl _)
  -- the flag is no part of a list
  have hset : HmSetUpTo d d.hmListsNum { s.store with initDone := hmInitDoneFlag } :=
    ⟨hstore.head, hstore.node, hstore.body, hstore.counter⟩
  have hnone : ∀ k, memberOf d k (tr ++ [(turn, e)]) = none := memberOf_setUp (h.events_concat he)
  -- the first session has made its first pass at most
  have hzero : HmKeys d (d.hmOwnedKey 0) x ∧ ∀ store good member,
      HmPoint d store (fun l => [l, d.hmListsNum + l]) good member x := by
    have hkeyed := hf.hmSessInfo_keyed hpos
    have hout := HmSetUpTo.owned_out hf hpos
    cases hfirst with
    | before hinfo =>
      rw [← hinfo] at hkeyed
      rw [← hkeyed.ownedKeyPtr] at hout
      have hat : x.info.At .inserting .init := by
        rw [hinfo]
        exact ⟨rfl, rfl⟩
      exact ⟨⟨hkeyed, fun hc => absurd hat.state hc⟩,
        fun _ _ _ => .insInit hat (Or.inl hqueue) hout⟩
    | @made x' hx hinfo hissued =>
      rw [← hx] at hkeyed
      rw [← hkeyed.ownedKeyPtr] at hout
      have hat : x'.info.At .inserting .init := by
        rw [hx]
        exact ⟨rfl, rfl⟩
      have hx' : x = ⟨(hmInsertInit x').1, (hmInsertInit x').2,
          x'.issued + (hmInsertInit x').2.length⟩ := by
        rw [← hinfo, ← hissued, ← hqueue]
      rw [hx']
      have hkeys : HmKeys d (d.hmOwnedKey 0) x' := ⟨hkeyed, fun hc => absurd hat.state hc⟩
      have hinsert : hmInsert x' = .ok (hmInsertInit x') := by
        unfold hmInsert
        rw [hat.state]
      refine ⟨hkeys.insertPass hinsert _, fun store good member => ?_⟩
      exact .insertInit (x := ⟨x'.info, [], x'.issued⟩) hf (hf.owned_isHmNode hpos)
        ⟨hkeyed, fun hc => absurd hat.state hc⟩ rfl hat hout
  have hsession : ∀ g, g < d.globalSessionNum →
      HmKeys d (d.hmOwnedKey g) (Function.update s.session 0 x g) ∧ ∀ store good member,
      HmPoint d store (fun l => [l, d.hmListsNum + l]) good member
        (Function.update s.session 0 x g) := by
    intro g hg
    by_cases hne : g = 0
    · rw [hne, Function.update_self]
      exact hzero
    · rw [Function.update_of_ne hne]
      obtain ⟨hinfo, hwaits⟩ := h.others g hne
      have hkeyed := hf.hmSessInfo_keyed hg
      have hout := HmSetUpTo.owned_out hf hg
      change (s.session g).info = d.hmSessInfo g at hinfo
      rw [← hinfo] at hkeyed
      rw [← hkeyed.ownedKeyPtr] at hout
      have hat : (s.session g).info.At .inserting .init := by
        rw [hinfo]
        exact ⟨rfl, rfl⟩
      exact ⟨⟨hkeyed, fun hc => absurd hat.state hc⟩, fun _ _ _ => .insInit hat hwaits hout⟩
  constructor
  case lists => exact hset.lists hf
  case point => exact fun g hg => (hsession g hg).2 _ _ _
  case keys => exact fun g hg => (hsession g hg).1
  case members =>
    intro k l _ hin
    rw [hnone] at hin
    cases hin
  case outside =>
    intro g hg
    show (Function.update s.session 0 x g).queue = _ ∧ (Function.update s.session 0 x g).issued = _
    rw [Function.update_of_ne (by omega)]
    exact h.outside g hg
  case phases =>
    refine h.phases.running (fun _ => rfl) ?_ ?_
    · rw [SettingUp.clientOf_zero]
      exact (h.running 0).mpr rfl
    · rw [hqueue]
      intro hc
      cases hfirst with
      | before => cases hc
      | made => cases hc
  case cntr_lt => exact fun c _ => h.cntr_lt c
  case initDone => rfl
  case bound =>
    intro key
    rw [hset.counter key]
    exact Nat.zero_le _

end HmInv

/-! ## Every run -/

/-- A pointer that a step finds to be the one that its session has read was not overwritten
    since. -/
def comparesFresh (tr : HmTrace) : Turn × HmEvent → Bool
  | (.store g _, e) => e.compared.all fun key => fresh g key tr
  | _ => true

/-- **No pointer is taken for another one**, by a search, an insert or an unlink. -/
def NotReused (tr : HmTrace) : Prop :=
  ∀ tr₁ t tr₂, tr = tr₁ ++ t :: tr₂ → comparesFresh tr₁ t = true

instance (tr : HmTrace) : Decidable (NotReused tr) :=
  decidable_of_iff (∀ i : Fin tr.length, comparesFresh (tr.take i) tr[i] = true) (by
    constructor
    · rintro h tr₁ t tr₂ rfl
      have hi := h ⟨tr₁.length, by simp⟩
      simpa using hi
    · intro h i
      refine h _ _ (tr.drop (i + 1)) ?_
      rw [Fin.getElem_fin, List.getElem_cons_drop, List.take_append_drop])

/-- What a run under the conditions has reached: either the set-up is not executed yet, or the lists
    are as they should be. -/
theorem hm_run (hf : HmFits d) (hpos : 0 < d.globalSessionNum) {noConflict : Bool} {tr : HmTrace}
    {s : HmSys} (hrun : Run (d.hmService noConflict).step d.hmStart tr s)
    (hfew : ∀ g, g < d.globalSessionNum → (s.session g).issued < 2 ^ 32)
    (hfirst : SetUpFirst d d.hmSetUp.length tr) (hreused : NotReused tr) :
    (∃ w, SettingUp (hmSetUpBy d noConflict) d.hmStart.store tr s w) ∨
      ∃ chain, HmInv d tr s chain := by
  have hlength : d.hmSetUp.length = (hmSetUpBy d noConflict).writes.length + 1 := List.length_append
  rw [hlength] at hfirst
  have hstart := hmSetUpBy_start (d := d) hpos noConflict
  have hreached := (hmSetUpBy d noConflict).run_rule hpos hstart
    (fun tr s => NotReused tr → ∃ chain, HmInv d tr s chain) ?_ ?_ hrun hfew hfirst
  · exact hreached.imp_right fun h => h hreused
  · intro tr s spurious requests store info e h hpass hserve _
    cases hserve
    exact ⟨_, HmInv.start h hf hpos (e := .served) trivial rfl hpass⟩
  · -- the condition on the last step is what the step needs
    intro tr s k s' e hrun h hle hissued hstep hreused
    obtain ⟨hold, hnew⟩ := forall_concat.mp hreused
    obtain ⟨chain, h⟩ := h hold
    have hserved := Service.served_le hstart.issued_eq hrun (fun g hg => (h.outside g hg).2)
      fun g hg => Nat.le_of_lt (hissued g hg)
    have hsmall : d.globalSessionNum * 2 ^ 32 ≤ 2 ^ 16 * 2 ^ 32 :=
      Nat.mul_le_mul_right _ hf.sessions
    refine h.step hf hle hissued (by omega) (fun g spurious key hk he => ?_) hstep
    rw [hk, comparesFresh, he] at hnew
    exact hnew

/-! ## The lists as the nodes see them -/

/-- `next_key_id` of the pointer of a node -/
def HmStore.nextKey (d : Deployment) (store : HmStore) (k : Nat) : Nat :=
  (store.ptr (d.hmGetNodePtrKeyId k)).nextKeyId

/-- The node is not marked. -/
def HmStore.unmarked (d : Deployment) (store : HmStore) (k : Nat) : Bool :=
  (store.ptr (d.hmGetNodePtrKeyId k)).marked = false

/-- The request writes the node, or its pointer. -/
def HmReq.Rewrites (d : Deployment) (k : Nat) : HmReq → Prop
  | .writePtr key _ => key = d.hmGetNodePtrKeyId k
  | .writeNode key _ => ∃ i, i < hmWritesNum ∧ key = u32 (k + i)
  | _ => False

/-- **What is to hold of the lists**: list `l` has the nodes `nodes l`. -/
structure HmNodes (d : Deployment) (tr : HmTrace) (s : HmSys) (nodes : Nat → List Nat) : Prop where
  /-- from the head, the pointers lead to the end -/
  path : ∀ l, l < d.hmListsNum → Path (s.store.nextKey d) (s.store.ptr l).nextKeyId (nodes l) 0
  node : ∀ l k, l < d.hmListsNum → k ∈ nodes l → d.isHmNode k
  /-- a node that was inserted, and not marked since, is in its list and in no other one -/
  member : ∀ k l, d.isHmNode k → memberOf d k tr = some l →
    l < d.hmListsNum ∧ ∀ l', l' < d.hmListsNum → (k ∈ nodes l' ↔ l' = l)
  /-- the nodes that are not marked are in order -/
  sorted : ∀ l, l < d.hmListsNum → ((nodes l).filter (s.store.unmarked d)).Pairwise fun a b =>
    (s.store.node a).nodePtrKeyId < (s.store.node b).nodePtrKeyId
  /-- a session that is about to write its node has it in no list -/
  rewritten : ∀ g r queue, (s.session g).queue = r :: queue →
    r.Rewrites d (s.session g).info.ownedKey →
    ∀ l, l < d.hmListsNum → (s.session g).info.ownedKey ∉ nodes l
  /-- a search for a delete has found the node of its session -/
  found : ∀ g, g < d.globalSessionNum → (s.session g).info.At .deleting .tryDelete →
    (s.session g).info.currPtr.nextKeyId = (s.session g).info.ownedKey

/-- The node that has the pointer. -/
def Deployment.nodeOf (d : Deployment) (p : Nat) : Nat :=
  d.hmPreinsertedNodeKeyOffset + hmWritesNum * (p - d.hmListsNum)

theorem HmFits.nodeOf_linkKey (h : HmFits d) {k : Nat} (hk : d.isHmNode k) :
    d.nodeOf (d.hmGetNodePtrKeyId k) = k := by
  obtain ⟨i, hi, rfl⟩ := hk
  rw [h.linkKey_eq hi, Deployment.nodeOf, Nat.add_sub_cancel_left]

/-- The nodes behind a pointer. -/
theorem nodes_path {store : HmStore} (hf : HmFits d) {p : Nat} {cells : List Nat}
    (hpath : Path (store.after d) p (p :: cells) d.lastHmNodePtr)
    (hvalid : ∀ q ∈ p :: cells, (store.ptr q).nextKeyId ≠ 0 → d.isHmNode (store.ptr q).nextKeyId)
    (hlast : ∀ q ∈ p :: cells, q ≠ d.lastHmNodePtr) :
    Path (store.nextKey d) (store.ptr p).nextKeyId (cells.map d.nodeOf) 0 := by
  induction cells generalizing p with
  | nil =>
    obtain ⟨-, hend⟩ := hpath
    change store.after d p = d.lastHmNodePtr at hend
    show (store.ptr p).nextKeyId = 0
    by_contra hne
    have hrange := (hf.linkKey_range (hvalid p List.mem_cons_self hne)).2
    rw [HmStore.after, behind_of_ne hne] at hend
    omega
  | cons q cells ih =>
    obtain ⟨-, hq⟩ := hpath
    have hafter : store.after d p = q := hq.1
    rw [hafter] at hq
    have hne : (store.ptr p).nextKeyId ≠ 0 := by
      intro hzero
      rw [HmStore.after, behind_of_zero hzero] at hafter
      exact hlast q (List.mem_cons_of_mem _ List.mem_cons_self) hafter.symm
    have hnode := hvalid p List.mem_cons_self hne
    rw [HmStore.after, behind_of_ne hne] at hafter
    have hkey : d.nodeOf q = (store.ptr p).nextKeyId := by
      rw [← hafter]
      exact hf.nodeOf_linkKey hnode
    refine ⟨hkey.symm, ?_⟩
    rw [hkey, HmStore.nextKey, hafter]
    exact ih hq (fun r hr => hvalid r (List.mem_cons_of_mem _ hr))
      fun r hr => hlast r (List.mem_cons_of_mem _ hr)

namespace HmInv

variable {tr : HmTrace} {s : HmSys} {chain : Nat → List Nat}

/-- The pointers behind a head. -/
theorem exists_tail (h : HmInv d tr s chain) {l : Nat} (hl : l < d.hmListsNum) :
    chain l = l :: (chain l).tail := by
  have hne : l ≠ d.lastHmNodePtr := by
    unfold Deployment.lastHmNodePtr
    omega
  obtain ⟨rest, heq, -⟩ := (h.lists.path l hl).exists_cons hne
  rw [heq]
  rfl

/-- What is behind a head are pointers of nodes. -/
theorem tail_node (h : HmInv d tr s chain) {l p : Nat} (hl : l < d.hmListsNum)
    (hp : p ∈ (chain l).tail) : p ∈ chain l ∧ ∃ k, d.isHmNode k ∧ p = d.hmGetNodePtrKeyId k := by
  have hmem : p ∈ chain l := List.mem_of_mem_tail hp
  have hsorted := h.lists.sorted l hl
  rw [h.exists_tail hl, List.pairwise_cons] at hsorted
  refine ⟨hmem, (h.lists.node l p hl hmem).resolve_left ?_⟩
  exact Nat.ne_of_gt (hsorted.1 p hp)

/-- The nodes of a list, by their pointers. -/
theorem mem_nodes (h : HmInv d tr s chain) (hf : HmFits d) {l k : Nat} (hl : l < d.hmListsNum) :
    k ∈ (chain l).tail.map d.nodeOf ↔ d.isHmNode k ∧ d.hmGetNodePtrKeyId k ∈ chain l := by
  constructor
  · intro hin
    obtain ⟨p, hp, rfl⟩ := List.mem_map.mp hin
    obtain ⟨hmem, k, hk, rfl⟩ := h.tail_node hl hp
    rw [hf.nodeOf_linkKey hk]
    exact ⟨hk, hmem⟩
  · rintro ⟨hk, hmem⟩
    rw [h.exists_tail hl] at hmem
    have hrange := (hf.linkKey_range hk).1
    refine List.mem_map.mpr ⟨_, ?_, hf.nodeOf_linkKey hk⟩
    rcases List.mem_cons.mp hmem with heq | hin
    · omega
    · exact hin

/-- The nodes of a list are in order. -/
theorem nodes_sorted (h : HmInv d tr s chain) (hf : HmFits d) {l : Nat} (hl : l < d.hmListsNum) :
    ((chain l).tail.map d.nodeOf).Pairwise fun a b =>
      (s.store.node a).nodePtrKeyId < (s.store.node b).nodePtrKeyId := by
  have hbody : ∀ p ∈ (chain l).tail, (s.store.node (d.nodeOf p)).nodePtrKeyId = p := by
    intro p hp
    obtain ⟨hmem, k, hk, rfl⟩ := h.tail_node hl hp
    rw [hf.nodeOf_linkKey hk]
    exact h.lists.body l k hl hk hmem
  have hsorted := h.lists.sorted l hl
  rw [h.exists_tail hl, List.pairwise_cons] at hsorted
  refine List.pairwise_map.mpr (hsorted.2.imp_of_mem fun hp hq hlt => ?_)
  rw [hbody _ hp, hbody _ hq]
  exact hlt

/-- A session that is about to write its node has it in no list. -/
theorem rewritten_out (h : HmInv d tr s chain) {g : Nat}
    (hg : g < d.globalSessionNum) {r : HmReq} {queue : List HmReq}
    (hqueue : (s.session g).queue = r :: queue) (hr : r.Rewrites d (s.session g).info.ownedKey) :
    OutOfLists d chain (s.session g).info.ownedKeyPtr := by
  have hnone : (s.session g).queue ≠ [] := by
    rw [hqueue]
    exact List.cons_ne_nil _ _
  cases h.point g hg with
  | insInit _ _ hout => exact hout
  | insWriting _ _ _ _ hout => exact hout
  | insPointing _ _ _ hout => exact hout
  | insSwapping _ _ _ hout => exact hout
  | searchStart _ hwaits =>
    obtain ⟨rfl, -⟩ := List.cons.inj (hqueue.symm.trans hwaits)
    exact hr.elim
  | searchHelp _ hwaits =>
    obtain ⟨rfl, -⟩ := List.cons.inj (hqueue.symm.trans hwaits)
    exact hr.elim
  | searchNext _ hwaits =>
    obtain ⟨rfl, -⟩ := List.cons.inj (hqueue.symm.trans hwaits)
    exact hr.elim
  | searchNode _ hwaits =>
    obtain ⟨rfl, -⟩ := List.cons.inj (hqueue.symm.trans hwaits)
    exact hr.elim
  | searchAgain _ hwaits =>
    obtain ⟨rfl, -⟩ := List.cons.inj (hqueue.symm.trans hwaits)
    exact hr.elim
  | @delMarking reads _ hwaits hreads =>
    cases reads with
    | nil =>
      obtain ⟨rfl, -⟩ := List.cons.inj (hqueue.symm.trans hwaits)
      exact hr.elim
    | cons r' reads =>
      obtain ⟨rfl, -⟩ := List.cons.inj (hqueue.symm.trans hwaits)
      obtain ⟨key, rfl⟩ := hreads _ List.mem_cons_self
      exact hr.elim
  | delUnlinking _ hwaits =>
    obtain ⟨rfl, -⟩ := List.cons.inj (hqueue.symm.trans hwaits)
    exact hr.elim
  | searchCurr _ hempty => exact absurd hempty hnone
  | searched _ hempty => exact absurd hempty hnone
  | _ _ hempty => exact absurd hempty hnone

/-- A search for a delete has found its node. -/
theorem found (h : HmInv d tr s chain) {g : Nat} (hg : g < d.globalSessionNum)
    (hat : (s.session g).info.At .deleting .tryDelete) :
    (s.session g).info.currPtr.nextKeyId = (s.session g).info.ownedKey := by
  cases h.point g hg with
  | tryDelete _ _ _ _ hnext => exact hnext
  | searchStart hstate => exact absurd (hat.state.symm.trans hstate) (by decide)
  | searchHelp hstate => exact absurd (hat.state.symm.trans hstate) (by decide)
  | searchCurr hstate =>
    rcases hstate with hstate | hstate
    · exact absurd (hat.state.symm.trans hstate) (by decide)
    · exact absurd (hat.state.symm.trans hstate) (by decide)
  | searchNext hstate => exact absurd (hat.state.symm.trans hstate) (by decide)
  | searchNode hstate => exact absurd (hat.state.symm.trans hstate) (by decide)
  | searchAgain hstate => exact absurd (hat.state.symm.trans hstate) (by decide)
  | searched hstate => exact absurd (hat.state.symm.trans hstate) (by decide)
  | tryInsert hat' => exact absurd (hat.insOrDel.symm.trans hat'.insOrDel) (by decide)
  | _ hat' => exact absurd (hat.state.symm.trans hat'.state) (by decide)

/-- **The lists**, by their nodes. -/
theorem nodes (h : HmInv d tr s chain) (hf : HmFits d) :
    HmNodes d tr s fun l => (chain l).tail.map d.nodeOf where
  path l hl := by
    have hpath := h.lists.path l hl
    have htail := h.exists_tail hl
    rw [htail] at hpath
    refine nodes_path hf hpath (fun q hq => ?_) fun q hq => ?_
    · rw [← htail] at hq
      exact h.lists.valid l q hl hq
    · rw [← htail] at hq
      exact Nat.ne_of_lt (h.lists.lt_last hf hl hq)
  node l k hl hk := ((h.mem_nodes hf hl).mp hk).1
  member k l hk hin := by
    obtain ⟨hl, hmem, -⟩ := h.members k l hk hin
    refine ⟨hl, fun l' hl' => ⟨fun hc => ?_, ?_⟩⟩
    · exact h.lists.disjoint l' l _ hl' hl ((h.mem_nodes hf hl').mp hc).2 hmem
    · rintro rfl
      exact (h.mem_nodes hf hl).mpr ⟨hk, hmem⟩
  sorted l hl := (h.nodes_sorted hf hl).filter _
  rewritten g r queue hqueue hr l hl hc := by
    have hg : g < d.globalSessionNum := by
      by_contra hout
      have hempty := (h.outside g (Nat.le_of_not_lt hout)).1
      rw [hempty] at hqueue
      cases hqueue
    have hkeys := h.keys g hg
    refine h.rewritten_out hg hqueue hr l hl ?_
    rw [hkeys.ownedKeyPtr, ← hkeys.ownedKey]
    exact ((h.mem_nodes hf hl).mp hc).2
  found g hg hat := h.found hg hat

end HmInv

/-- **The lists are correct** once they are set up, if the keys fit, each session has issued fewer
    than `2^32` requests, no other session of the first client began before the set-up was executed,
    and no pointer that was overwritten is taken for the one that was read before. -/
theorem hm_lists_correct (hf : HmFits d) {noConflict : Bool} {tr : HmTrace} {s : HmSys}
    (hrun : Run (d.hmService noConflict).step d.hmStart tr s)
    (hfew : ∀ g, g < d.globalSessionNum → (s.session g).issued < 2 ^ 32)
    (hfirst : SetUpFirst d d.hmSetUp.length tr) (hreused : NotReused tr)
    (hinit : s.store.initDone = hmInitDoneFlag) : ∃ nodes, HmNodes d tr s nodes := by
  rcases Nat.eq_zero_or_pos d.globalSessionNum with hnone | hpos
  · have hempty : d.hmListsNum = 0 := hnone
    refine ⟨fun _ => [], ?_, ?_, ?_, ?_, ?_, ?_⟩
    · exact fun l hl => absurd hl (by omega)
    · exact fun l k hl => absurd hl (by omega)
    · rintro k l ⟨i, hi, -⟩
      omega
    · exact fun l hl => absurd hl (by omega)
    · exact fun g r queue _ _ l hl => absurd hl (by omega)
    · exact fun g hg => absurd hg (by omega)
  · rcases hm_run hf hpos hrun hfew hfirst hreused with ⟨w, h⟩ | ⟨chain, h⟩
    · cases hinit.symm.trans h.unset
    · exact ⟨_, h.nodes hf⟩

/-! ## Two machines with one session each -/

/-- A search goes on to the next node. -/
def hmHop (g : Nat) : List Turn := [.client g] ++ serves g 3 ++ [.client g]

/-- Session `g` searches behind the first `n` nodes, and issues the two requests of an insert. -/
def insertBehind (g n : Nat) : List Turn :=
  [.client g] ++ serves g 5 ++ (List.replicate n (hmHop g)).flatten ++ [.client g, .client g]

/-- Session `g` marks its node, which is behind `n` others, and links it out. -/
def deleteBehind (g n : Nat) : List Turn :=
  [.client g, .client g] ++ serves g 1 ++ (List.replicate (n + 1) (hmHop g)).flatten ++
    [.client g] ++ serves g 5 ++ [.client g] ++ serves g 1 ++ [.client g]

/-- A session of two machines with one session each is the only one of its client. -/
theorem two_first_client {g : Nat} (hclient : Deployment.two.clientOf g = 0) : g = 0 := by
  have hmachine : g / 1 * 1 + g % 1 / 1 = 0 := hclient
  omega

theorem two_hmFits : HmFits Deployment.two := ⟨by decide, by decide, by decide⟩

/-- Both sessions insert their nodes, in two lists. -/
def bothInsert : List Turn :=
  serves 0 7 ++ [Turn.client 1] ++ serves 1 1 ++ [Turn.client 1] ++ insertBehind 0 1 ++ serves 0 2 ++
    insertBehind 1 1 ++ serves 1 2

/-- Session 1 goes on to the list of session 0, and session 0 leaves it. -/
def oneLeaves : List Turn :=
  deleteBehind 1 1 ++ insertBehind 1 2 ++ serves 1 2 ++ deleteBehind 0 1

/-- Two sessions insert and delete. -/
theorem hm_lists_correct_two : ∃ tr tr' s,
    Run (Deployment.two.hmService false).step Deployment.two.hmStart (tr ++ tr') s ∧
      memberOf Deployment.two 60008 tr = some 0 ∧ memberOf Deployment.two 60012 tr = some 1 ∧
      memberOf Deployment.two 60008 (tr ++ tr') = none ∧
      memberOf Deployment.two 60012 (tr ++ tr') = some 0 ∧
      ∃ nodes, HmNodes Deployment.two (tr ++ tr') s nodes ∧ 60012 ∈ nodes 0 := by
  have h : (do
      let p ← exec (Deployment.two.hmService false).step Deployment.two.hmStart bothInsert
      let q ← exec (Deployment.two.hmService false).step p.2 oneLeaves
      return ((∀ g, g < Deployment.two.globalSessionNum → (q.2.session g).issued < 2 ^ 32) ∧
        NotReused (p.1 ++ q.1) ∧ q.2.store.initDone = hmInitDoneFlag ∧
        memberOf Deployment.two 60008 p.1 = some 0 ∧ memberOf Deployment.two 60012 p.1 = some 1 ∧
        memberOf Deployment.two 60008 (p.1 ++ q.1) = none ∧
        memberOf Deployment.two 60012 (p.1 ++ q.1) = some 0 : Bool)) = .ok true := by
    decide +kernel
  obtain ⟨⟨tr, s₁⟩, hexec, h⟩ := bind_eq_ok.mp h
  obtain ⟨⟨tr', s⟩, hexec', h⟩ := bind_eq_ok.mp h
  obtain ⟨hfew, hreused, hinit, hfirst, hsecond, hleft, hmember⟩ :=
    of_decide_eq_true (Except.ok.inj h)
  have hrun := (run_of_exec hexec).trans (run_of_exec hexec')
  obtain ⟨nodes, hnodes⟩ := hm_lists_correct two_hmFits hrun hfew
    (fun tr₁ t tr₂ _ g _ hclient hg => absurd (two_first_client hclient) hg) hreused hinit
  obtain ⟨hl, hin⟩ := hnodes.member 60012 0 ⟨3, by decide, rfl⟩ hmember
  exact ⟨tr, tr', s, hrun, hfirst, hsecond, hleft, hmember, nodes, hnodes, (hin 0 hl).mpr rfl⟩

/-- **A node is lost**: session 1 is about to insert its node behind that of session 0, which leaves
    the list and has its pointer written again, the same as it was.  The swap succeeds, and the node
    is behind a pointer that is in no list. -/
theorem lost_node : ∃ tr s,
    Run (Deployment.two.hmService false).step Deployment.two.hmStart tr s ∧
      s.store.initDone = hmInitDoneFlag ∧ ¬ ∃ nodes, HmNodes Deployment.two tr s nodes := by
  have h : (do
      let p ← exec (Deployment.two.hmService false).step Deployment.two.hmStart
        (serves 0 7 ++ [Turn.client 1] ++ serves 1 1 ++ [Turn.client 1] ++
          -- session 1 goes on to list 0, finds the node of session 0 there, and stops at its swap
          insertBehind 1 1 ++ serves 1 2 ++ deleteBehind 1 1 ++
          insertBehind 0 1 ++ serves 0 2 ++ insertBehind 1 2 ++ serves 1 1 ++
          -- session 0 leaves, and writes its pointer for the next insert
          deleteBehind 0 1 ++ insertBehind 0 1 ++ serves 0 1 ++ serves 1 1)
      return (p.2.store.initDone = hmInitDoneFlag ∧
        memberOf Deployment.two 60012 p.1 = some 0 ∧ (p.2.store.ptr 0).nextKeyId = 60000 ∧
        p.2.store.nextKey Deployment.two 60000 = 0 : Bool)) = .ok true := by decide +kernel
  obtain ⟨⟨tr, s⟩, hexec, h⟩ := bind_eq_ok.mp h
  obtain ⟨hinit, hmember, hhead, hlast⟩ := of_decide_eq_true (Except.ok.inj h)
  refine ⟨tr, s, run_of_exec hexec, hinit, ?_⟩
  rintro ⟨nodes, hnodes⟩
  obtain ⟨hl, hin⟩ := hnodes.member 60012 0 ⟨3, by decide, rfl⟩ hmember
  have hmem := (hin 0 hl).mpr rfl
  have hpath : Path (s.store.nextKey Deployment.two) (s.store.ptr 0).nextKeyId [60000] 0 :=
    ⟨hhead, hlast⟩
  have hzero : 0 ∉ nodes 0 := fun hc =>
    two_hmFits.isHmNode_ne_zero (hnodes.node 0 0 hl hc) rfl
  rw [(hnodes.path 0 hl).unique hpath hzero (by decide)] at hmem
  exact absurd hmem (by decide)

end Odyssey
