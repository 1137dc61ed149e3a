/-
  THE TREIBER STACKS UNDER EVERY INTERLEAVING.

  `TrPoint` says, for every point that a session can be at, which of its requests wait and what it
  knows.  A session that has read the top of its stack knows a top of the past (`Top.Before`); the
  counters only grow, so if the top is the same again it has been the same all the time, and the
  node below it as well, which nobody writes while it is linked (`TrPoint.frame`).

  `TrInv` adds where the nodes are: every one is at one place, with a session or in a stack.  A
  stack has as many nodes as sessions have pushed to it and not popped yet, so it is not empty for
  a session that pops (`TrInv.not_empty`).

  All of this needs that a session waits for its requests, hence that the number of a request fits
  in the `uint32_t` that it is kept in (`treiber_correct`).  When it does not, a session goes on
  before its compare-and-swap was executed, and links a node to itself (`self_loop`).
-/
import Odyssey.Treiber
import Odyssey.Lib.Paths

namespace Odyssey

open Lib

/-! ## Tops of the past -/

/-- `t` is `t'`, or was the top some time before `t'`. -/
def Top.Before (t t' : Top) : Prop :=
  t = t' ∨ (t.pushCounter ≤ t'.pushCounter ∧ t.popCounter ≤ t'.popCounter ∧
    t.pushCounter + t.popCounter < t'.pushCounter + t'.popCounter)

namespace Top.Before

variable {t t' t'' : Top}

theorem refl (t : Top) : t.Before t := Or.inl rfl

theorem push_le (h : t.Before t') : t.pushCounter ≤ t'.pushCounter := by
  rcases h with rfl | ⟨hpush, -, -⟩
  · exact Nat.le_refl _
  · exact hpush

theorem trans (h : t.Before t') (h' : t'.Before t'') : t.Before t'' := by
  rcases h with rfl | ⟨hpush, hpop, hsum⟩
  · exact h'
  · rcases h' with rfl | ⟨hpush', hpop', hsum'⟩
    · exact Or.inr ⟨hpush, hpop, hsum⟩
    · exact Or.inr ⟨by omega, by omega, by omega⟩

/-- **No top comes back.** -/
theorem antisymm (h : t.Before t') (h' : t'.Before t) : t = t' := by
  rcases h with heq | ⟨-, -, hsum⟩
  · exact heq
  · rcases h' with heq | ⟨-, -, hsum'⟩
    · exact heq.symm
    · omega

end Top.Before

/-! ## Where a session is -/

namespace TrSessInfo

variable (info : TrSessInfo)

/-- The node that a session owns: the one it is going to push, until it is linked, and the one it
    has popped. -/
def owned : Option Nat :=
  match info.pushOrPullState with
  | .pushing => if info.success = true then none else some info.ownedKey
  | .popping => if info.success = true then some info.top.keyId else none

/-- Where the state machines are. -/
structure At (p : PushOrPull) (state : TrState) (success : Bool) : Prop where
  pushOrPull : info.pushOrPullState = p
  state : info.state = state
  success : info.success = success

end TrSessInfo

/-- The keys of the nodes. -/
def Deployment.isTrNode (d : Deployment) (k : Nat) : Prop :=
  ∃ g, g < d.globalSessionNum ∧ k = d.trKeyOffset + g * treiberWritesNum

theorem Deployment.isTrNode.le {d : Deployment} {k : Nat} (h : d.isTrNode k) :
    d.trKeyOffset ≤ k := by
  obtain ⟨g, -, rfl⟩ := h
  exact Nat.le_add_right ..

/-- The counters of a stack: it holds at most one node for each session. -/
structure Top.Counts (d : Deployment) (t : Top) : Prop where
  pop_le : t.popCounter ≤ t.pushCounter
  push_le : t.pushCounter ≤ t.popCounter + d.globalSessionNum

/-- What a popping session knows of the top it has read. -/
structure TrSeen (d : Deployment) (store : TrStore) (info : TrSessInfo) : Prop where
  key : d.isTrNode info.top.keyId
  last : info.lastPushedCounter ≤ info.top.pushCounter
  before : info.top.Before (store.top info.stackId)

/-- The node it has read, if the top is still the one it has read before. -/
def TrHeld (store : TrStore) (info : TrSessInfo) : Prop :=
  store.top info.stackId = info.top → info.newNode 0 = store.node info.top.keyId

/-- **The points of a session**, in order, with the requests that wait there. -/
inductive TrPoint (d : Deployment) (store : TrStore) (x : TrSession) : Prop
  | pushInit (hat : x.info.At .pushing .init false) (hqueue : x.queue = [])
  | pushReading (hat : x.info.At .pushing .readTop false)
      (hqueue : x.queue = [.readTop x.info.stackId])
  | pushRead (hat : x.info.At .pushing .readTop false) (hqueue : x.queue = [])
      (hcounts : x.info.top.Counts d)
  | pushWriting (hat : x.info.At .pushing .readTop false) (hnew : x.info.newTop = pushTop x.info)
      (hqueue : x.queue = [.writeNode x.info.ownedKey ⟨x.info.top.keyId⟩,
        .cas x.info.stackId (pushTop x.info)])
  | pushSwapping (hat : x.info.At .pushing .readTop false) (hnew : x.info.newTop = pushTop x.info)
      (hqueue : x.queue = [.cas x.info.stackId (pushTop x.info)])
      (hnode : store.node x.info.ownedKey = ⟨x.info.top.keyId⟩)
  | pushed (hat : x.info.At .pushing .readTop true) (hqueue : x.queue = [])
      (hlast : x.info.newTop.pushCounter ≤ (store.top x.info.stackId).pushCounter)
  | popInit (hat : x.info.At .popping .init false) (hqueue : x.queue = [])
      (hlast : x.info.lastPushedCounter ≤ (store.top x.info.stackId).pushCounter)
  | popReading (hat : x.info.At .popping .readTop false)
      (hqueue : x.queue = [.readTop x.info.stackId])
      (hlast : x.info.lastPushedCounter ≤ (store.top x.info.stackId).pushCounter)
  | popRead (hat : x.info.At .popping .readTop false) (hqueue : x.queue = [])
      (hseen : TrSeen d store x.info)
  | popReadingNode (hat : x.info.At .popping .readFirst false)
      (hqueue : x.queue = [.readNode x.info.top.keyId 0]) (hseen : TrSeen d store x.info)
  | popReadNode (hat : x.info.At .popping .readFirst false) (hqueue : x.queue = [])
      (hseen : TrSeen d store x.info) (hheld : TrHeld store x.info)
  | popSwapping (hat : x.info.At .popping .readTop false)
      (hqueue : x.queue = [.cas x.info.stackId (popTop x.info)])
      (hseen : TrSeen d store x.info) (hheld : TrHeld store x.info)
  | popped (hat : x.info.At .popping .readTop true) (hqueue : x.queue = [])
      (hkey : d.isTrNode x.info.top.keyId)
      (hlast : x.info.lastPushedCounter ≤ x.info.top.pushCounter)

variable {d : Deployment}

theorem TrSeen.frame {store store' : TrStore} {info : TrSessInfo} (h : TrSeen d store info)
    (htop : ∀ q, (store.top q).Before (store'.top q)) : TrSeen d store' info :=
  ⟨h.key, h.last, h.before.trans (htop _)⟩

theorem TrSeen.last_le {store : TrStore} {info : TrSessInfo} (h : TrSeen d store info) :
    info.lastPushedCounter ≤ (store.top info.stackId).pushCounter :=
  Nat.le_trans h.last h.before.push_le

/-- The pointers of the nodes. -/
def TrStore.next (store : TrStore) (k : Nat) : Nat := (store.node k).nextKeyId

/-- **What another session does** moves tops on, and writes neither a node that is owned nor the
    first node of a stack. -/
theorem TrPoint.frame {store store' : TrStore} {x : TrSession} (h : TrPoint d store x)
    (htop : ∀ q, (store.top q).Before (store'.top q))
    (hnode : ∀ k, x.info.owned = some k → store'.node k = store.node k)
    (hheld : store'.top x.info.stackId = store.top x.info.stackId →
      d.trKeyOffset ≤ (store.top x.info.stackId).keyId →
      store'.node (store.top x.info.stackId).keyId = store.node (store.top x.info.stackId).keyId) :
    TrPoint d store' x := by
  have hlater : ∀ {n q}, n ≤ (store.top q).pushCounter → n ≤ (store'.top q).pushCounter :=
    fun hle => Nat.le_trans hle (htop _).push_le
  -- the top is the one that was read, so it has not changed now
  have hstill : TrSeen d store x.info → TrHeld store x.info → TrHeld store' x.info := by
    intro hseen hold hsame
    have hback := htop x.info.stackId
    rw [hsame] at hback
    have heq := hseen.before.antisymm hback
    have hkey := hseen.key.le
    rw [heq] at hkey
    have hkeep := hheld (by rw [hsame, heq]) hkey
    rw [hold heq.symm, heq, hkeep]
  cases h with
  | pushInit hat hqueue => exact .pushInit hat hqueue
  | pushReading hat hqueue => exact .pushReading hat hqueue
  | pushRead hat hqueue hcounts => exact .pushRead hat hqueue hcounts
  | pushWriting hat hnew hqueue => exact .pushWriting hat hnew hqueue
  | pushSwapping hat hnew hqueue hwritten =>
    refine .pushSwapping hat hnew hqueue ?_
    rw [hnode, hwritten]
    rw [TrSessInfo.owned, hat.pushOrPull, hat.success]
    rfl
  | pushed hat hqueue hlast => exact .pushed hat hqueue (hlater hlast)
  | popInit hat hqueue hlast => exact .popInit hat hqueue (hlater hlast)
  | popReading hat hqueue hlast => exact .popReading hat hqueue (hlater hlast)
  | popRead hat hqueue hseen => exact .popRead hat hqueue (hseen.frame htop)
  | popReadingNode hat hqueue hseen => exact .popReadingNode hat hqueue (hseen.frame htop)
  | popReadNode hat hqueue hseen hold =>
    exact .popReadNode hat hqueue (hseen.frame htop) (hstill hseen hold)
  | popSwapping hat hqueue hseen hold =>
    exact .popSwapping hat hqueue (hseen.frame htop) (hstill hseen hold)
  | popped hat hqueue hkey hlast => exact .popped hat hqueue hkey hlast

/-! ## Where the nodes are -/

abbrev TrTrace := List (Turn × TrEvent)

/-- The pushes that a stack has seen. -/
def pushes (tr : TrTrace) (q : Nat) : Nat :=
  tr.countP fun
    | (_, .pushed q' _) => q' == q
    | _ => false

theorem pushes_append (tr tr' : TrTrace) (q : Nat) :
    pushes (tr ++ tr') q = pushes tr q + pushes tr' q := List.countP_append

theorem pushes_pushed (tr : TrTrace) (turn : Turn) (q k q' : Nat) :
    pushes (tr ++ [(turn, .pushed q k)]) q' = pushes tr q' + if q = q' then 1 else 0 := by
  rw [pushes, List.countP_append, List.countP_singleton]
  simp only [beq_iff_eq]
  rfl

theorem pushes_other {tr : TrTrace} {turn : Turn} {e : TrEvent} {q : Nat}
    (he : ∀ q k, e ≠ .pushed q k) : pushes (tr ++ [(turn, e)]) q = pushes tr q := by
  rw [pushes, List.countP_append, List.countP_singleton]
  cases e with
  | pushed q k => exact absurd rfl (he q k)
  | moved => rfl
  | served => rfl
  | popped q k => rfl

/-- The sessions that have pushed to a stack, and have not popped from it. -/
def TrSys.waiting (d : Deployment) (s : TrSys) (q : Nat) : Nat :=
  (List.range d.globalSessionNum).countP fun g =>
    (s.session g).info.stackId == q && (s.session g).info.owned.isNone

/-- Where the nodes are. -/
abbrev TrSys.holds (d : Deployment) (s : TrSys) (chain : Nat → List Nat) : NodePlace → Nat → Prop :=
  holdsNode d.globalSessionNum d.numberOfStacks (fun g => (s.session g).info.owned) chain

/-- **The invariant**: `chain q` are the nodes of stack `q`. -/
structure TrInv (d : Deployment) (tr : TrTrace) (s : TrSys) (chain : Nat → List Nat) : Prop where
  point : ∀ g, g < d.globalSessionNum → TrPoint d s.store (s.session g)
  stack_lt : ∀ g, g < d.globalSessionNum → (s.session g).info.stackId < d.numberOfStacks
  lastReq : ∀ g, g < d.globalSessionNum → (s.session g).info.state ≠ .init →
    (s.session g).info.lastReqId = u32 (s.session g).issued
  outside : ∀ g, d.globalSessionNum ≤ g → (s.session g).queue = []
  cntr_lt : ∀ c, 0 < d.numberOfStacks → s.shared c < d.numberOfStacks
  path : ∀ q, q < d.numberOfStacks → Path s.store.next (s.store.top q).keyId (chain q) 0
  nodup : ∀ q, q < d.numberOfStacks → (chain q).Nodup
  count : ∀ q, q < d.numberOfStacks →
    (s.store.top q).popCounter + (chain q).length = (s.store.top q).pushCounter
  pushes_eq : ∀ q, q < d.numberOfStacks → (s.store.top q).pushCounter = pushes tr q
  waiting_eq : ∀ q, q < d.numberOfStacks → (chain q).length = s.waiting d q
  placed : Placed d.isTrNode (s.holds d chain)

/-- The sessions that wait, after one session has changed. -/
theorem TrSys.waiting_update (s : TrSys) {g : Nat} (hg : g < d.globalSessionNum) (store : TrStore)
    (shared : Nat → Nat) (x : TrSession) (q : Nat) :
    TrSys.waiting d ⟨store, shared, Function.update s.session g x⟩ q
        + (if ((s.session g).info.stackId == q && (s.session g).info.owned.isNone) = true then 1
          else 0)
      = s.waiting d q + (if (x.info.stackId == q && x.info.owned.isNone) = true then 1 else 0) :=
  countP_update (fun x : TrSession => x.info.stackId == q && x.info.owned.isNone) s.session hg x

namespace TrInv

variable {tr : TrTrace} {s : TrSys} {chain : Nat → List Nat} {g q k : Nat}

/-- A node that a session owns is in no stack. -/
theorem not_linked (h : TrInv d tr s chain) (hg : g < d.globalSessionNum)
    (howned : (s.session g).info.owned = some k) (hq : q < d.numberOfStacks) : k ∉ chain q :=
  holdsNode.not_linked h.placed hg (show (fun g => (s.session g).info.owned) g = some k from howned) hq

/-- The key of a top is null or the first node of its stack. -/
theorem mem_of_top (h : TrInv d tr s chain) (hq : q < d.numberOfStacks)
    (hkey : (s.store.top q).keyId ≠ 0) : (s.store.top q).keyId ∈ chain q := by
  obtain ⟨l, hl, -⟩ := (h.path q hq).exists_cons hkey
  rw [hl]
  exact List.mem_cons_self

theorem node_of_mem (h : TrInv d tr s chain) (hq : q < d.numberOfStacks) (hk : k ∈ chain q) :
    d.isTrNode k := h.placed.isItem (show s.holds d chain (.linked q) k from ⟨hq, hk⟩)

theorem stacks_pos (h : TrInv d tr s chain) (hg : g < d.globalSessionNum) :
    0 < d.numberOfStacks := Nat.lt_of_le_of_lt (Nat.zero_le _) (h.stack_lt g hg)

theorem counts (h : TrInv d tr s chain) (hq : q < d.numberOfStacks) :
    (s.store.top q).Counts d := by
  have hcount := h.count q hq
  have hlen : s.waiting d q ≤ (List.range d.globalSessionNum).length := List.countP_le_length
  rw [← h.waiting_eq q hq, List.length_range] at hlen
  exact ⟨by omega, by omega⟩

/-- **A stack is not empty for a session that has pushed to it.** -/
theorem not_empty (h : TrInv d tr s chain) (hg : g < d.globalSessionNum)
    (howned : (s.session g).info.owned = none) :
    d.isTrNode (s.store.top (s.session g).info.stackId).keyId := by
  have hq := h.stack_lt g hg
  have hpos : 0 < s.waiting d (s.session g).info.stackId :=
    List.countP_pos_iff.mpr ⟨g, List.mem_range.mpr hg, by simp [howned]⟩
  rw [← h.waiting_eq _ hq] at hpos
  obtain ⟨a, l, hl⟩ := List.exists_cons_of_length_pos hpos
  have hpath := h.path _ hq
  rw [hl] at hpath
  obtain ⟨rfl, -⟩ := hpath
  exact h.node_of_mem hq (by rw [hl]; exact List.mem_cons_self)

/-- **A step that swaps no top**: the session goes to another point, and may have written a node
    that it owns. -/
theorem quiet (h : TrInv d tr s chain) (hg : g < d.globalSessionNum) {turn : Turn}
    {e : TrEvent} (he : ∀ q, pushes (tr ++ [(turn, e)]) q = pushes tr q) {store : TrStore}
    {x : TrSession} {shared : Nat → Nat} (htop : store.top = s.store.top)
    (hnode : ∀ k, (s.session g).info.owned ≠ some k → store.node k = s.store.node k)
    (hcntr : ∀ c, 0 < d.numberOfStacks → shared c < d.numberOfStacks)
    (hpoint : TrPoint d store x) (howned : x.info.owned = (s.session g).info.owned)
    (hstack : x.info.stackId < d.numberOfStacks)
    (hsame : x.info.owned = none → x.info.stackId = (s.session g).info.stackId)
    (hlast : x.info.state ≠ .init → x.info.lastReqId = u32 x.issued) :
    TrInv d (tr ++ [(turn, e)]) ⟨store, shared, Function.update s.session g x⟩ chain := by
  have hlinked : ∀ q, q < d.numberOfStacks → ∀ k ∈ chain q, store.node k = s.store.node k :=
    fun q hq k hk => hnode k fun hc => h.not_linked hg hc hq hk
  have hwaits : ∀ q, (x.info.stackId == q && x.info.owned.isNone)
      = ((s.session g).info.stackId == q && (s.session g).info.owned.isNone) := by
    intro q
    cases hx : x.info.owned with
    | none => rw [← howned, hx, hsame hx]
    | some k => rw [← howned, hx, Option.isNone_some, Bool.and_false, Bool.and_false]
  constructor
  case point =>
    intro g' hg'
    show TrPoint d store (Function.update s.session g x g')
    by_cases hne : g' = g
    · rw [hne, Function.update_self]
      exact hpoint
    · rw [Function.update_of_ne hne]
      refine (h.point g' hg').frame (fun q => ?_) (fun k hk => hnode k fun hc => ?_)
        fun _ hkey => ?_
      · rw [htop]
        exact .refl _
      · have hmine : s.holds d chain (.session g) k := ⟨hg, hc⟩
        have htheirs : s.holds d chain (.session g') k := ⟨hg', hk⟩
        cases h.placed.once hmine htheirs
        exact hne rfl
      · have hq := h.stack_lt g' hg'
        have hpos := h.stacks_pos hg'
        exact hlinked _ hq _ (h.mem_of_top hq (by unfold Deployment.trKeyOffset at hkey; omega))
  case stack_lt =>
    intro g' hg'
    show (Function.update s.session g x g').info.stackId < _
    by_cases hne : g' = g
    · rw [hne, Function.update_self]
      exact hstack
    · rw [Function.update_of_ne hne]
      exact h.stack_lt g' hg'
  case lastReq =>
    intro g' hg'
    show (Function.update s.session g x g').info.state ≠ _ → _
    by_cases hne : g' = g
    · subst hne
      simp only [Function.update_self]
      exact hlast
    · simp only [Function.update_of_ne hne]
      exact h.lastReq g' hg'
  case outside =>
    intro g' hg'
    show (Function.update s.session g x g').queue = []
    rw [Function.update_of_ne (by omega)]
    exact h.outside g' hg'
  case cntr_lt => exact hcntr
  case path =>
    intro q hq
    show Path store.next (store.top q).keyId (chain q) 0
    rw [htop]
    exact (h.path q hq).congr fun k hk => by rw [TrStore.next, hlinked q hq k hk]; rfl
  case nodup => exact h.nodup
  case count => intro q hq; show (store.top q).popCounter + _ = _; rw [htop]; exact h.count q hq
  case pushes_eq =>
    intro q hq
    show (store.top q).pushCounter = _
    rw [htop, he]
    exact h.pushes_eq q hq
  case waiting_eq =>
    intro q hq
    rw [h.waiting_eq q hq]
    refine List.countP_congr fun g' _ => ?_
    show _ ↔ ((Function.update s.session g x g').info.stackId == q &&
      (Function.update s.session g x g').info.owned.isNone) = true
    by_cases hne : g' = g
    · rw [hne, Function.update_self, hwaits]
    · rw [Function.update_of_ne hne]
  case placed =>
    refine h.placed.congr fun p k => ?_
    cases p with
    | linked q => exact Iff.rfl
    | session g' =>
      show (_ ∧ (Function.update s.session g x g').info.owned = some k) ↔ (_ ∧ _)
      by_cases hne : g' = g
      · rw [hne, Function.update_self, howned]
      · rw [Function.update_of_ne hne]

/-- **A swap of a top**, which counts it, while the nodes stay as they are: what is left to say is
    where the node is that changes hands. -/
theorem swap (h : TrInv d tr s chain) (hg : g < d.globalSessionNum) {turn : Turn}
    {e : TrEvent} {t : Top} {l : List Nat}
    {info : TrSessInfo} (hinfo : info = { (s.session g).info with success := true })
    (hq : q < d.numberOfStacks) (hstack : (s.session g).info.stackId = q)
    (hbefore : (s.store.top q).Before t) (hl : Path s.store.next t.keyId l 0) (hnodup : l.Nodup)
    (hcount : t.popCounter + l.length = t.pushCounter)
    (hpushes : ∀ q', q' ≠ q → pushes (tr ++ [(turn, e)]) q' = pushes tr q')
    (hpush : t.pushCounter = pushes (tr ++ [(turn, e)]) q)
    (hpoint : TrPoint d ⟨Function.update s.store.top q t, s.store.node⟩
      ⟨info, [], (s.session g).issued⟩)
    (hwaits : l.length + (if (s.session g).info.owned.isNone = true then 1 else 0)
      = (chain q).length
        + (if info.owned.isNone = true then 1
          else 0))
    (hplaced : Placed d.isTrNode (TrSys.holds d
      ⟨⟨Function.update s.store.top q t, s.store.node⟩, s.shared, Function.update s.session g
        ⟨info, [], (s.session g).issued⟩⟩ (Function.update chain q l))) :
    TrInv d (tr ++ [(turn, e)])
      ⟨⟨Function.update s.store.top q t, s.store.node⟩, s.shared, Function.update s.session g
        ⟨info, [], (s.session g).issued⟩⟩
      (Function.update chain q l) := by
  have hsame : info.stackId = q := by rw [hinfo]; exact hstack
  have hlater : ∀ q', (s.store.top q').Before (Function.update s.store.top q t q') := by
    intro q'
    by_cases hne : q' = q
    · rw [hne, Function.update_self]
      exact hbefore
    · rw [Function.update_of_ne hne]
      exact .refl _
  constructor
  case point =>
    intro g' hg'
    show TrPoint d _ (Function.update s.session g _ g')
    by_cases hne : g' = g
    · rw [hne, Function.update_self]
      exact hpoint
    · rw [Function.update_of_ne hne]
      exact (h.point g' hg').frame hlater (fun _ _ => rfl) fun _ _ => rfl
  case stack_lt =>
    intro g' hg'
    show (Function.update s.session g _ g').info.stackId < _
    by_cases hne : g' = g
    · rw [hne, Function.update_self]
      rw [hsame]
      exact hq
    · rw [Function.update_of_ne hne]
      exact h.stack_lt g' hg'
  case lastReq =>
    intro g' hg'
    show (Function.update s.session g _ g').info.state ≠ _ → _
    by_cases hne : g' = g
    · subst hne
      simp only [Function.update_self, hinfo]
      exact h.lastReq g' hg
    · simp only [Function.update_of_ne hne]
      exact h.lastReq g' hg'
  case outside =>
    intro g' hg'
    show (Function.update s.session g _ g').queue = []
    rw [Function.update_of_ne (by omega)]
    exact h.outside g' hg'
  case cntr_lt => exact h.cntr_lt
  case path =>
    intro q' hq'
    show Path s.store.next (Function.update s.store.top q t q').keyId
      (Function.update chain q l q') 0
    by_cases hne : q' = q
    · rw [hne, Function.update_self, Function.update_self]
      exact hl
    · rw [Function.update_of_ne hne, Function.update_of_ne hne]
      exact h.path q' hq'
  case nodup =>
    intro q' hq'
    by_cases hne : q' = q
    · rw [hne, Function.update_self]
      exact hnodup
    · rw [Function.update_of_ne hne]
      exact h.nodup q' hq'
  case count =>
    intro q' hq'
    show (Function.update s.store.top q t q').popCounter + _
      = (Function.update s.store.top q t q').pushCounter
    by_cases hne : q' = q
    · rw [hne, Function.update_self, Function.update_self]
      exact hcount
    · rw [Function.update_of_ne hne, Function.update_of_ne hne]
      exact h.count q' hq'
  case pushes_eq =>
    intro q' hq'
    show (Function.update s.store.top q t q').pushCounter = _
    by_cases hne : q' = q
    · rw [hne, Function.update_self]
      exact hpush
    · rw [Function.update_of_ne hne, hpushes q' hne]
      exact h.pushes_eq q' hq'
  case waiting_eq =>
    intro q' hq'
    have hcounts := s.waiting_update hg ⟨Function.update s.store.top q t, s.store.node⟩ s.shared
      ⟨info, [], (s.session g).issued⟩ q'
    have hold := h.waiting_eq q' hq'
    by_cases hne : q' = q
    · rw [hne] at hcounts hold ⊢
      simp only [hstack, hsame, beq_self_eq_true, Bool.true_and] at hcounts
      rw [Function.update_self]
      omega
    · have hother : (q == q') = false := by
        rw [beq_eq_false_iff_ne]
        exact fun hc => hne hc.symm
      simp only [hstack, hsame, hother, Bool.false_and] at hcounts
      rw [Function.update_of_ne hne]
      omega
  case placed => exact hplaced

/-- **A compare-and-swap of a push that succeeds.** -/
theorem push (h : TrInv d tr s chain) (hg : g < d.globalSessionNum) {turn : Turn}
    {info : TrSessInfo} (hinfo : info = { (s.session g).info with success := true })
    (hat : (s.session g).info.At .pushing .readTop false)
    (hnew : (s.session g).info.newTop = pushTop (s.session g).info)
    (hnode : s.store.node (s.session g).info.ownedKey = ⟨(s.session g).info.top.keyId⟩)
    (hstack : (s.session g).info.stackId = q)
    (hstill : s.store.top q = (s.session g).info.top)
    (hfew : pushes (tr ++ [(turn, .pushed q k)]) q < 2 ^ 32) :
    ∃ chain', TrInv d (tr ++ [(turn, .pushed q k)])
      ⟨⟨Function.update s.store.top q (pushTop (s.session g).info), s.store.node⟩, s.shared,
        Function.update s.session g ⟨info, [], (s.session g).issued⟩⟩ chain' := by
  have hq : q < d.numberOfStacks := hstack ▸ h.stack_lt g hg
  have howned : (s.session g).info.owned = some (s.session g).info.ownedKey := by
    rw [TrSessInfo.owned, hat.pushOrPull, hat.success]
    rfl
  have hnone : info.owned = none := by
    rw [hinfo, TrSessInfo.owned]
    simp only [hat.pushOrPull]
    rfl
  generalize hown : (s.session g).info.ownedKey = own at howned hnode
  have hpush := h.pushes_eq q hq
  have hpushed : pushes (tr ++ [(turn, .pushed q k)]) q = pushes tr q + 1 := by
    rw [pushes_pushed, if_pos rfl]
  have hcounter : (pushTop (s.session g).info).pushCounter = (s.store.top q).pushCounter + 1 := by
    show u32 ((s.session g).info.top.pushCounter + 1) = _
    rw [← hstill, u32_of_lt (by omega)]
  have hpop : (pushTop (s.session g).info).popCounter = (s.store.top q).popCounter := by
    rw [hstill]
    rfl
  have hkey : (pushTop (s.session g).info).keyId = own := hown
  refine ⟨Function.update chain q (own :: chain q), h.swap hg hinfo hq hstack ?_ ?_ ?_ ?_ ?_ ?_ ?_ ?_ ?_⟩
  · exact Or.inr ⟨by omega, by omega, by omega⟩
  · rw [hkey]
    refine ⟨rfl, ?_⟩
    rw [TrStore.next, hnode, ← hstill]
    exact h.path q hq
  · exact List.nodup_cons.mpr ⟨h.not_linked hg howned hq, h.nodup q hq⟩
  · have hcount := h.count q hq
    rw [List.length_cons]
    omega
  · intro q' hne
    rw [pushes_pushed, if_neg (fun hc => hne hc.symm)]
    rfl
  · omega
  · refine .pushed ?_ rfl ?_
    · rw [hinfo]
      exact ⟨hat.pushOrPull, hat.state, rfl⟩
    · rw [hinfo]
      show (s.session g).info.newTop.pushCounter
        ≤ (Function.update s.store.top q _ (s.session g).info.stackId).pushCounter
      rw [hstack, Function.update_self, hnew]
  · rw [hnone, howned, List.length_cons]
    rfl
  · refine holdsNode.link h.placed hg hq howned ?_ ?_ fun k' => List.mem_cons
    · simp only [Function.update_self]
      exact hnone
    · intro g' hne
      simp only [Function.update_of_ne hne]

/-- **A compare-and-swap of a pop that succeeds.** -/
theorem pop (h : TrInv d tr s chain) (hg : g < d.globalSessionNum) {turn : Turn}
    {info : TrSessInfo} (hinfo : info = { (s.session g).info with success := true })
    (hat : (s.session g).info.At .popping .readTop false)
    (hseen : TrSeen d s.store (s.session g).info) (hheld : TrHeld s.store (s.session g).info)
    (hstack : (s.session g).info.stackId = q)
    (hstill : s.store.top q = (s.session g).info.top) (hfew : pushes tr q < 2 ^ 32) :
    ∃ chain', TrInv d (tr ++ [(turn, .popped q k)])
      ⟨⟨Function.update s.store.top q (popTop (s.session g).info), s.store.node⟩, s.shared,
        Function.update s.session g ⟨info, [], (s.session g).issued⟩⟩ chain' := by
  have hq : q < d.numberOfStacks := hstack ▸ h.stack_lt g hg
  have hpos := h.stacks_pos hg
  have hnone : (s.session g).info.owned = none := by
    rw [TrSessInfo.owned, hat.pushOrPull, hat.success]
    rfl
  generalize hkey : (s.store.top q).keyId = key
  have howned : info.owned = some key := by
    rw [hinfo, TrSessInfo.owned]
    simp only [hat.pushOrPull]
    rw [← hkey, hstill]
    rfl
  obtain ⟨l, hchain, hl⟩ := (h.path q hq).exists_cons (by
    have hoffset := hseen.key.le
    rw [← hstill] at hoffset
    unfold Deployment.trKeyOffset at hoffset
    omega)
  rw [hkey] at hchain hl
  have hnodup := h.nodup q hq
  rw [hchain] at hnodup
  obtain ⟨hnotin, hnodup⟩ := List.nodup_cons.mp hnodup
  have hcount := h.count q hq
  rw [hchain, List.length_cons] at hcount
  have hpush := h.pushes_eq q hq
  have hcounter : (popTop (s.session g).info).popCounter = (s.store.top q).popCounter + 1 := by
    show u32 ((s.session g).info.top.popCounter + 1) = _
    rw [← hstill, u32_of_lt (by omega)]
  have hsame : (popTop (s.session g).info).pushCounter = (s.store.top q).pushCounter := by
    rw [hstill]
    rfl
  have hnext : (popTop (s.session g).info).keyId = s.store.next key := by
    show ((s.session g).info.newNode 0).nextKeyId = _
    rw [hheld (by rw [hstack]; exact hstill), ← hstill, hkey]
    rfl
  have hquiet : ∀ q', pushes (tr ++ [(turn, .popped q k)]) q' = pushes tr q' :=
    fun q' => pushes_other fun _ _ hc => nomatch hc
  refine ⟨Function.update chain q l,
    h.swap hg hinfo hq hstack ?_ ?_ hnodup ?_ (fun q' _ => hquiet q') ?_ ?_ ?_ ?_⟩
  · exact Or.inr ⟨by omega, by omega, by omega⟩
  · rw [hnext]
    exact hl
  · omega
  · rw [hquiet]
    omega
  · rw [hinfo]
    exact .popped ⟨hat.pushOrPull, hat.state, rfl⟩ rfl hseen.key hseen.last
  · rw [hnone, howned, hchain, List.length_cons]
    rfl
  · refine holdsNode.unlink h.placed hg hq ?_ hnone ?_ (fun k' => ?_) hnotin
    · simp only [Function.update_self]
      exact howned
    · intro g' hne
      simp only [Function.update_of_ne hne]
    · rw [hchain, List.mem_cons]

/-- A request that swaps no top. -/
theorem served (h : TrInv d tr s chain) (hg : g < d.globalSessionNum) (spurious : Bool)
    {store : TrStore} {info : TrSessInfo} {queue : List TrReq}
    (htop : store.top = s.store.top)
    (hnode : ∀ k, (s.session g).info.owned ≠ some k → store.node k = s.store.node k)
    (hpoint : TrPoint d store ⟨info, queue, (s.session g).issued⟩)
    (howned : info.owned = (s.session g).info.owned)
    (hstack : info.stackId = (s.session g).info.stackId)
    (hstate : info.state = (s.session g).info.state)
    (hlast : info.lastReqId = (s.session g).info.lastReqId) :
    ∃ chain', TrInv d (tr ++ [(.store g spurious, .served)])
      ⟨store, s.shared, Function.update s.session g ⟨info, queue, (s.session g).issued⟩⟩
      chain' := by
  have hquiet : ∀ q, pushes (tr ++ [(.store g spurious, .served)]) q = pushes tr q :=
    fun q => pushes_other fun _ _ hc => nomatch hc
  refine ⟨chain, h.quiet hg hquiet htop hnode h.cntr_lt hpoint howned ?_
    (fun _ => hstack) ?_⟩
  · rw [hstack]
    exact h.stack_lt g hg
  · intro hinit
    show info.lastReqId = _
    rw [hlast]
    refine h.lastReq g hg ?_
    rw [← hstate]
    exact hinit

/-- **The store executes a request.** -/
theorem serve (h : TrInv d tr s chain) {spurious : Bool} {r : TrReq} {queue : List TrReq}
    {store : TrStore} {info : TrSessInfo} {e : TrEvent}
    (hqueue : (s.session g).queue = r :: queue)
    (hserve : trServe spurious s.store (s.session g).info r = (store, info, e))
    (hfew : ∀ q, q < d.numberOfStacks →
      pushes (tr ++ [(.store g spurious, e)]) q < 2 ^ 32) :
    ∃ chain', TrInv d (tr ++ [(.store g spurious, e)])
      ⟨store, s.shared, Function.update s.session g ⟨info, queue, (s.session g).issued⟩⟩
      chain' := by
  have hg : g < d.globalSessionNum := by
    by_contra hc
    rw [h.outside g (Nat.le_of_not_lt hc)] at hqueue
    cases hqueue
  have hstack := h.stack_lt g hg
  have hnext : ∀ {l}, (s.session g).queue = l → l = r :: queue := fun hc => hc.symm.trans hqueue
  cases h.point g hg with
  | pushInit hat hwaits => cases hnext hwaits
  | pushRead hat hwaits => cases hnext hwaits
  | pushed hat hwaits => cases hnext hwaits
  | popInit hat hwaits => cases hnext hwaits
  | popRead hat hwaits => cases hnext hwaits
  | popReadNode hat hwaits => cases hnext hwaits
  | popped hat hwaits => cases hnext hwaits
  | pushReading hat hwaits =>
    cases hnext hwaits
    cases hserve
    refine h.served hg spurious rfl (fun _ _ => rfl)
      (.pushRead ⟨hat.pushOrPull, hat.state, hat.success⟩ rfl (h.counts hstack)) ?_ rfl rfl rfl
    simp only [TrSessInfo.owned, hat.pushOrPull]
  | pushWriting hat hnew hwaits =>
    cases hnext hwaits
    cases hserve
    refine h.served hg spurious rfl ?_
      (.pushSwapping hat hnew rfl (Function.update_self ..)) rfl rfl rfl rfl
    intro k hk
    refine Function.update_of_ne (fun hc => hk ?_) ..
    rw [hc, TrSessInfo.owned, hat.pushOrPull, hat.success]
    rfl
  | pushSwapping hat hnew hwaits hnode =>
    cases hnext hwaits
    unfold trServe at hserve
    by_cases hcas : s.store.top (s.session g).info.stackId = (s.session g).info.top ∧ spurious = false
    · have hpop : (pushTop (s.session g).info).popCounter
          = (s.store.top (s.session g).info.stackId).popCounter := by rw [hcas.1]; rfl
      simp only [if_pos hcas, if_pos hpop] at hserve
      cases hserve
      exact h.push hg rfl hat hnew hnode rfl hcas.1 (hfew _ hstack)
    · simp only [if_neg hcas] at hserve
      cases hserve
      refine h.served hg spurious rfl (fun _ _ => rfl)
        (.pushRead ⟨hat.pushOrPull, hat.state, rfl⟩ rfl (h.counts hstack)) ?_ rfl rfl rfl
      simp only [TrSessInfo.owned, hat.pushOrPull, hat.success]
  | popReading hat hwaits hlast =>
    cases hnext hwaits
    cases hserve
    have hnone : (s.session g).info.owned = none := by
      rw [TrSessInfo.owned, hat.pushOrPull, hat.success]
      rfl
    refine h.served hg spurious rfl (fun _ _ => rfl)
      (.popRead ⟨hat.pushOrPull, hat.state, hat.success⟩ rfl
        ⟨h.not_empty hg hnone, hlast, .refl _⟩) ?_ rfl rfl rfl
    simp only [TrSessInfo.owned, hat.pushOrPull, hat.success]
    rfl
  | popReadingNode hat hwaits hseen =>
    cases hnext hwaits
    cases hserve
    refine h.served hg spurious rfl (fun _ _ => rfl)
      (.popReadNode ⟨hat.pushOrPull, hat.state, hat.success⟩ rfl
        ⟨hseen.key, hseen.last, hseen.before⟩ ?_) ?_ rfl rfl rfl
    · intro _
      show Function.update (s.session g).info.newNode 0 _ 0 = _
      rw [Function.update_self]
      rfl
    · simp only [TrSessInfo.owned, hat.pushOrPull]
  | popSwapping hat hwaits hseen hheld =>
    cases hnext hwaits
    have hnone : (s.session g).info.owned = none := by
      rw [TrSessInfo.owned, hat.pushOrPull, hat.success]
      rfl
    unfold trServe at hserve
    by_cases hcas : s.store.top (s.session g).info.stackId = (s.session g).info.top ∧ spurious = false
    · have hcount := h.count _ hstack
      have hpushes := h.pushes_eq _ hstack
      have hgrow : pushes tr (s.session g).info.stackId < 2 ^ 32 := by
        refine Nat.lt_of_le_of_lt ?_ (hfew _ hstack)
        rw [pushes_append]
        exact Nat.le_add_right ..
      have hpop : (popTop (s.session g).info).popCounter
          ≠ (s.store.top (s.session g).info.stackId).popCounter := by
        show u32 ((s.session g).info.top.popCounter + 1) ≠ _
        have hlinked := h.mem_of_top hstack (by
          have hkey := (h.not_empty hg hnone).le
          have hpos := h.stacks_pos hg
          unfold Deployment.trKeyOffset at hkey
          omega)
        have hlen := List.length_pos_of_mem hlinked
        rw [← hcas.1, u32_of_lt (by omega)]
        omega
      simp only [if_pos hcas, if_neg hpop] at hserve
      cases hserve
      exact h.pop hg rfl hat hseen hheld rfl hcas.1 hgrow
    · simp only [if_neg hcas] at hserve
      cases hserve
      refine h.served hg spurious rfl (fun _ _ => rfl)
        (.popRead ⟨hat.pushOrPull, hat.state, rfl⟩ rfl
          ⟨h.not_empty hg hnone, hseen.last_le, .refl _⟩) ?_ rfl rfl rfl
      simp only [TrSessInfo.owned, hat.pushOrPull, hat.success]
      rfl

/-! ### What a client does -/

/-- After the wait, no request is left. -/
theorem queue_of_poll (h : TrInv d tr s chain) (hg : g < d.globalSessionNum)
    (hle : (s.session g).queue.length ≤ (s.session g).issued)
    (hfew : (s.session g).issued < 2 ^ 32) (hinit : (s.session g).info.state ≠ .init)
    (hpoll : pollAReqBlocking (s.session g) (s.session g).info.lastReqId = .ok ()) :
    (s.session g).queue = [] := by
  rw [h.lastReq g hg hinit] at hpoll
  have hlen := executed_of_poll hle hfew (Nat.le_refl _) hpoll
  exact List.eq_nil_of_length_eq_zero (by omega)

/-- A pass that ends at another point. -/
theorem moved (h : TrInv d tr s chain) (hg : g < d.globalSessionNum) {c : Nat}
    {info : TrSessInfo} {queue : List TrReq} {issued : Nat}
    (hcntr : 0 < d.numberOfStacks → c < d.numberOfStacks)
    (hpoint : TrPoint d s.store ⟨info, queue, issued⟩)
    (howned : info.owned = (s.session g).info.owned) (hstack : info.stackId < d.numberOfStacks)
    (hsame : info.owned = none → info.stackId = (s.session g).info.stackId)
    (hlast : info.state ≠ .init → info.lastReqId = u32 issued) :
    ∃ chain', TrInv d (tr ++ [(.client g, .moved)])
      ⟨s.store, Function.update s.shared (d.clientOf g) c,
        Function.update s.session g ⟨info, queue, issued⟩⟩ chain' := by
  have hquiet : ∀ q, pushes (tr ++ [(.client g, .moved)]) q = pushes tr q :=
    fun q => pushes_other fun _ _ hc => nomatch hc
  refine ⟨chain, h.quiet hg hquiet rfl (fun _ _ => rfl) ?_ hpoint howned hstack hsame hlast⟩
  intro c' hpos
  by_cases hne : c' = d.clientOf g
  · rw [hne, Function.update_self]
    exact hcntr hpos
  · rw [Function.update_of_ne hne]
    exact h.cntr_lt c' hpos

/-- **A pass of the push.** -/
theorem pushPass (h : TrInv d tr s chain) (hg : g < d.globalSessionNum)
    (hle : (s.session g).queue.length ≤ (s.session g).issued)
    (hfew : (s.session g).issued < 2 ^ 32) (hpush : (s.session g).info.pushOrPullState = .pushing)
    {info : TrSessInfo} {requests : List TrReq}
    (hpass : treiberPush (s.session g) = .ok (info, requests)) :
    ∃ chain', TrInv d (tr ++ [(.client g, .moved)])
      ⟨s.store, Function.update s.shared (d.clientOf g) (s.shared (d.clientOf g)),
        Function.update s.session g ⟨info, (s.session g).queue ++ requests,
          (s.session g).issued + requests.length⟩⟩ chain' := by
  have hcntr := h.cntr_lt (d.clientOf g)
  have hstack := h.stack_lt g hg
  have hpoint := h.point g hg
  unfold treiberPush at hpass
  cases hstate : (s.session g).info.state with
  | init =>
    rw [hstate] at hpass
    cases hpass
    cases hpoint with
    | pushInit hat hqueue =>
      rw [hqueue]
      exact h.moved hg hcntr (.pushReading ⟨hat.pushOrPull, rfl, hat.success⟩ rfl)
        rfl hstack (fun _ => rfl) (fun _ => rfl)
    | _ hat => first
      | exact absurd (hstate.symm.trans hat.state) (by decide)
      | exact absurd (hpush.symm.trans hat.pushOrPull) (by decide)
  | readTop =>
    rw [hstate] at hpass
    obtain ⟨_, hpoll, hpass⟩ := bind_eq_ok.mp hpass
    have hempty := h.queue_of_poll hg hle hfew (by rw [hstate]; decide) hpoll
    rw [hempty]
    cases hpoint with
    | pushRead hat hqueue =>
      rw [if_pos hat.success, tryPush] at hpass
      split at hpass
      · nomatch hpass
      · cases hpass
        exact h.moved hg hcntr (.pushWriting ⟨hat.pushOrPull, hat.state, hat.success⟩ rfl rfl)
          rfl hstack (fun _ => rfl) (fun _ => rfl)
    | pushReading hat hqueue => nomatch hempty.symm.trans hqueue
    | pushWriting hat hnew hqueue => nomatch hempty.symm.trans hqueue
    | pushSwapping hat hnew hqueue => nomatch hempty.symm.trans hqueue
    | pushed hat hqueue hlast =>
      rw [if_neg (by rw [hat.success]; decide)] at hpass
      cases hpass
      refine h.moved hg hcntr (.popInit ⟨rfl, rfl, rfl⟩ rfl hlast) ?_ hstack (fun _ => rfl)
        fun hc => absurd rfl hc
      simp only [TrSessInfo.owned, hat.pushOrPull, hat.success]
      rfl
    | _ hat => first
      | exact absurd (hstate.symm.trans hat.state) (by decide)
      | exact absurd (hpush.symm.trans hat.pushOrPull) (by decide)
  | readFirst =>
    cases hpoint with
    | _ hat => first
      | exact absurd (hstate.symm.trans hat.state) (by decide)
      | exact absurd (hpush.symm.trans hat.pushOrPull) (by decide)

theorem incrStackId_lt {cntr : Nat} (hcntr : cntr < d.numberOfStacks) :
    d.incrStackId cntr < d.numberOfStacks := by
  have hle : u32 (cntr + 1) ≤ cntr + 1 := Nat.mod_le ..
  rw [Deployment.incrStackId]
  split
  · omega
  · omega

/-- **A pass of the pop.** -/
theorem popPass (h : TrInv d tr s chain) (hg : g < d.globalSessionNum)
    (hkeys : d.maxTrNodeKey ≤ 2 ^ 32)
    (hle : (s.session g).queue.length ≤ (s.session g).issued)
    (hfew : (s.session g).issued < 2 ^ 32) (hpop : (s.session g).info.pushOrPullState = .popping)
    {noConflicts : Bool} {c : Nat} {info : TrSessInfo} {requests : List TrReq}
    (hpass : d.treiberPop noConflicts (s.shared (d.clientOf g)) (s.session g)
      = .ok (c, info, requests)) :
    ∃ chain', TrInv d (tr ++ [(.client g, .moved)])
      ⟨s.store, Function.update s.shared (d.clientOf g) c,
        Function.update s.session g ⟨info, (s.session g).queue ++ requests,
          (s.session g).issued + requests.length⟩⟩ chain' := by
  have hcntr := h.cntr_lt (d.clientOf g)
  have hpos := h.stacks_pos hg
  have hstack := h.stack_lt g hg
  have hpoint := h.point g hg
  unfold Deployment.treiberPop at hpass
  cases hstate : (s.session g).info.state with
  | init =>
    rw [hstate] at hpass
    cases hpass
    cases hpoint with
    | popInit hat hqueue hlast =>
      rw [hqueue]
      exact h.moved hg hcntr (.popReading ⟨hat.pushOrPull, rfl, hat.success⟩ rfl hlast)
        rfl hstack (fun _ => rfl) (fun _ => rfl)
    | _ hat => first
      | exact absurd (hstate.symm.trans hat.state) (by decide)
      | exact absurd (hpop.symm.trans hat.pushOrPull) (by decide)
  | readTop =>
    rw [hstate] at hpass
    obtain ⟨_, hpoll, hpass⟩ := bind_eq_ok.mp hpass
    have hempty := h.queue_of_poll hg hle hfew (by rw [hstate]; decide) hpoll
    rw [hempty]
    split at hpass
    · nomatch hpass
    · cases hpoint with
      | popRead hat hqueue hseen =>
        rw [if_pos hat.success] at hpass
        cases hpass
        have hnone : (s.session g).info.owned = none := by
          rw [TrSessInfo.owned, hat.pushOrPull, hat.success]
          rfl
        refine h.moved hg hcntr (.popReadingNode ⟨hat.pushOrPull, rfl, hat.success⟩ ?_
          ⟨hseen.key, hseen.last, hseen.before⟩) rfl hstack (fun _ => rfl) (fun _ => rfl)
        -- the top is a node, and the key of a node fits
        show [TrReq.readNode (u32 ((s.session g).info.top.keyId + 0)) 0] = _
        rw [Nat.add_zero, u32_of_lt]
        obtain ⟨g', hg', hkey⟩ := hseen.key
        unfold Deployment.maxTrNodeKey at hkeys
        unfold treiberWritesNum at hkeys hkey
        omega
      | popped hat hqueue hkey hlast =>
        rw [if_neg (by rw [hat.success]; decide)] at hpass
        cases hpass
        refine h.moved hg ?_ (.pushInit ⟨rfl, rfl, rfl⟩ rfl) ?_ ?_ (fun hc => nomatch hc)
          fun hc => absurd rfl hc
        · intro _
          split
          · exact hcntr hpos
          · exact incrStackId_lt (hcntr hpos)
        · simp only [TrSessInfo.owned, hat.pushOrPull, hat.success]
          rfl
        · show (if noConflicts = true then _ else _) < _
          split
          · exact hstack
          · exact hcntr hpos
      | popReading hat hqueue => nomatch hempty.symm.trans hqueue
      | popSwapping hat hqueue => nomatch hempty.symm.trans hqueue
      | _ hat => first
        | exact absurd (hstate.symm.trans hat.state) (by decide)
        | exact absurd (hpop.symm.trans hat.pushOrPull) (by decide)
  | readFirst =>
    rw [hstate] at hpass
    obtain ⟨_, hpoll, hpass⟩ := bind_eq_ok.mp hpass
    have hempty := h.queue_of_poll hg hle hfew (by rw [hstate]; decide) hpoll
    rw [hempty]
    cases hpoint with
    | popReadNode hat hqueue hseen hheld =>
      dsimp only at hpass
      split at hpass
      · cases hpass
        exact h.moved hg hcntr (.popInit ⟨hat.pushOrPull, rfl, hat.success⟩ rfl hseen.last_le)
          rfl hstack (fun _ => rfl) fun hc => absurd rfl hc
      · cases hpass
        exact h.moved hg hcntr (.popSwapping ⟨hat.pushOrPull, rfl, hat.success⟩ rfl
          ⟨hseen.key, hseen.last, hseen.before⟩ hheld) rfl hstack (fun _ => rfl) (fun _ => rfl)
    | popReadingNode hat hqueue => nomatch hempty.symm.trans hqueue
    | _ hat => exact absurd (hstate.symm.trans hat.state) (by decide)

/-- **A turn keeps the invariant.** -/
theorem step (h : TrInv d tr s chain) (hkeys : d.maxTrNodeKey ≤ 2 ^ 32)
    {noConflicts : Bool} {k : Turn} {s' : TrSys} {e : TrEvent}
    (hle : ∀ g, (s.session g).queue.length ≤ (s.session g).issued)
    (hstep : (d.trService noConflicts).step s k = .ok (s', e))
    (hfew : ∀ g, g < d.globalSessionNum → (s.session g).issued < 2 ^ 32)
    (hpushes : ∀ q, q < d.numberOfStacks → pushes (tr ++ [(k, e)]) q < 2 ^ 32) :
    ∃ chain', TrInv d (tr ++ [(k, e)]) s' chain' := by
  rcases Service.step_cases hstep with ⟨g, c, info, requests, rfl, hpass, rfl⟩ |
    ⟨g, spurious, r, queue, store, info, rfl, hqueue, hserve, rfl⟩
  · change (if g < d.globalSessionNum then _ else _) = _ at hpass
    split at hpass
    · rename_i hg
      obtain ⟨⟨c', info', requests'⟩, htr, hpass⟩ := bind_eq_ok.mp hpass
      cases hpass
      rw [Deployment.trPass] at htr
      cases hstate : (s.session g).info.pushOrPullState with
      | pushing =>
        rw [hstate] at htr
        obtain ⟨⟨info', requests'⟩, hpush, htr⟩ := bind_eq_ok.mp htr
        cases htr
        exact h.pushPass hg (hle g) (hfew g hg) hstate hpush
      | popping =>
        rw [hstate] at htr
        exact h.popPass hg hkeys (hle g) (hfew g hg) hstate htr
    · cases hpass
  · exact h.serve hqueue hserve hpushes

/-- The nodes at first: session `g` has the node of its number. -/
theorem start (hkeys : d.maxTrNodeKey ≤ 2 ^ 32) :
    TrInv d [] d.trStart fun _ => [] := by
  have hmax : d.maxTrNodeKey = d.trKeyOffset + d.globalSessionNum := by
    rw [Deployment.maxTrNodeKey, treiberWritesNum, Nat.mul_one, Nat.add_comm]
  have howned : ∀ g, g < d.globalSessionNum → (d.trSessInfo g).owned = some (d.trKeyOffset + g) := by
    intro g hg
    show some (u32 (d.trKeyOffset + (d.sessionsPerMachine * (g / d.sessionsPerMachine)
      + g % d.sessionsPerMachine) * treiberWritesNum)) = _
    rw [Nat.div_add_mod, treiberWritesNum, Nat.mul_one, u32_of_lt (by omega)]
  constructor
  case point => exact fun g _ => .pushInit ⟨rfl, rfl, rfl⟩ rfl
  case stack_lt =>
    intro g hg
    show d.globSessI g < _
    rw [d.globSessI_eq]
    exact Nat.lt_of_le_of_lt (Nat.mod_le ..) hg
  case lastReq => exact fun g _ hc => absurd rfl hc
  case outside => exact fun _ _ => rfl
  case cntr_lt => exact fun c hpos => Nat.mod_lt _ hpos
  case path => exact fun _ _ => rfl
  case nodup => exact fun _ _ => List.nodup_nil
  case count => exact fun _ _ => rfl
  case pushes_eq => exact fun _ _ => rfl
  case waiting_eq =>
    intro q _
    refine (List.countP_eq_zero.mpr fun g hg => ?_).symm
    show ¬ (d.globSessI g == q && (d.trSessInfo g).owned.isNone) = true
    rw [howned g (List.mem_range.mp hg), Option.isNone_some, Bool.and_false]
    exact Bool.false_ne_true
  case placed =>
    constructor
    · rintro k ⟨g, hg, rfl⟩
      refine ⟨.session g, hg, ?_⟩
      rw [treiberWritesNum, Nat.mul_one]
      exact howned g hg
    · rintro (g | q) (g' | q') k ⟨hg, hk⟩ ⟨hg', hk'⟩
      · have hown : (d.trSessInfo g).owned = some k := hk
        have hown' : (d.trSessInfo g').owned = some k := hk'
        rw [howned g hg] at hown
        rw [howned g' hg', ← hown] at hown'
        have heq := Option.some.inj hown'
        rw [show g = g' by omega]
      · nomatch hk'
      · nomatch hk
      · nomatch hk
    · rintro (g | q) k ⟨hg, hk⟩
      · have hown : (d.trSessInfo g).owned = some k := hk
        rw [howned g hg] at hown
        refine ⟨g, hg, ?_⟩
        rw [← Option.some.inj hown, treiberWritesNum, Nat.mul_one]
      · nomatch hk

end TrInv

/-! ## Every run -/

/-- No session has issued `2^32` requests, and no stack has seen `2^32` pushes. -/
def TrFew (d : Deployment) (tr : TrTrace) (s : TrSys) : Prop :=
  (∀ g, g < d.globalSessionNum → (s.session g).issued < 2 ^ 32) ∧
    ∀ q, q < d.numberOfStacks → pushes tr q < 2 ^ 32

instance (tr : TrTrace) (s : TrSys) : Decidable (TrFew d tr s) :=
  inferInstanceAs (Decidable (_ ∧ _))

theorem TrFew.before {tr : TrTrace} {s s' : TrSys} {noConflicts : Bool} {k : Turn} {e : TrEvent}
    (hstep : (d.trService noConflicts).step s k = .ok (s', e)) (h : TrFew d (tr ++ [(k, e)]) s') :
    TrFew d tr s := by
  obtain ⟨hissued, hpushes⟩ := h
  refine ⟨fun g hg => Nat.lt_of_le_of_lt ?_ (hissued g hg),
    fun q hq => Nat.lt_of_le_of_lt ?_ (hpushes q hq)⟩
  · exact Service.issued_mono hstep g
  · rw [pushes_append]
    exact Nat.le_add_right ..

theorem TrInv.run (hkeys : d.maxTrNodeKey ≤ 2 ^ 32) {noConflicts : Bool} {tr : TrTrace} {s : TrSys}
    (hrun : Run (d.trService noConflicts).step d.trStart tr s) (hfew : TrFew d tr s) :
    ∃ chain, TrInv d tr s chain := by
  refine hrun.invariant (fun tr s => TrFew d tr s → ∃ chain, TrInv d tr s chain)
    (fun _ => ⟨_, TrInv.start hkeys⟩) ?_ hfew
  intro tr s k s' e hrun ih hstep hfew
  obtain ⟨chain, hinv⟩ := ih (hfew.before hstep)
  exact hinv.step hkeys (Service.queue_le_issued (fun _ => Nat.le_refl _) hrun) hstep
    (hfew.before hstep).1 hfew.2

theorem pollAReqBlocking_cases {L R : Type} (x : Issuer L R) (n : Nat) :
    pollAReqBlocking x n = .ok () ∨ pollAReqBlocking x n = .error .waiting := by
  unfold pollAReqBlocking
  split
  · exact Or.inl rfl
  · exact Or.inr rfl

/-- **No new top of a push looks empty**: the assertion in `tryPush` holds. -/
theorem tryPush_not_undefined {x : TrSession} (hcounts : x.info.top.Counts d)
    (hkeys : d.maxTrNodeKey ≤ 2 ^ 32) : tryPush x ≠ .error .undefined := by
  have hle := hcounts.pop_le
  have hnodes := hcounts.push_le
  have hne : (pushTop x.info).popCounter ≠ (pushTop x.info).pushCounter := by
    show x.info.top.popCounter ≠ (x.info.top.pushCounter + 1) % 2 ^ 32
    unfold Deployment.maxTrNodeKey Deployment.trKeyOffset Deployment.numberOfStacks
      treiberWritesNum at hkeys
    omega
  rw [tryPush, if_neg fun hc => hne hc.1]
  exact fun hc => nomatch hc

namespace TrInv

variable {tr : TrTrace} {s : TrSys} {chain : Nat → List Nat} {g : Nat}

/-- **A pop does not read an empty top**, nor one that is older than the push of the session. -/
theorem top_of_pop (h : TrInv d tr s chain) (hg : g < d.globalSessionNum)
    (hpop : (s.session g).info.pushOrPullState = .popping)
    (hinit : (s.session g).info.state ≠ .init)
    (hread : .readTop (s.session g).info.stackId ∉ (s.session g).queue) :
    d.isTrNode (s.session g).info.top.keyId ∧
      (s.session g).info.lastPushedCounter ≤ (s.session g).info.top.pushCounter := by
  cases h.point g hg with
  | popInit hat => exact absurd hat.state hinit
  | popReading hat hqueue => exact absurd (by rw [hqueue]; exact List.mem_cons_self) hread
  | popRead hat hqueue hseen => exact ⟨hseen.key, hseen.last⟩
  | popReadingNode hat hqueue hseen => exact ⟨hseen.key, hseen.last⟩
  | popReadNode hat hqueue hseen => exact ⟨hseen.key, hseen.last⟩
  | popSwapping hat hqueue hseen => exact ⟨hseen.key, hseen.last⟩
  | popped hat hqueue hkey hlast => exact ⟨hkey, hlast⟩
  | _ hat => exact absurd (hpop.symm.trans hat.pushOrPull) (by decide)

/-- **The assertions hold**: those on the top that a pop has read, and that on a new top. -/
theorem pass_not_undefined (h : TrInv d tr s chain) (hkeys : d.maxTrNodeKey ≤ 2 ^ 32)
    (hg : g < d.globalSessionNum) (hle : (s.session g).queue.length ≤ (s.session g).issued)
    (hfew : (s.session g).issued < 2 ^ 32) (noConflicts : Bool) (cntr : Nat) :
    d.trPass noConflicts cntr (s.session g) ≠ .error .undefined := by
  have hempty := h.queue_of_poll hg hle hfew
  have hpoint := h.point g hg
  unfold Deployment.trPass
  cases hpush : (s.session g).info.pushOrPullState with
  | pushing =>
    show (treiberPush _ >>= _) ≠ _
    unfold treiberPush
    cases hstate : (s.session g).info.state with
    | init => exact fun hc => nomatch hc
    | readFirst => exact fun hc => nomatch hc
    | readTop =>
      show ((pollAReqBlocking _ _ >>= _) >>= _) ≠ _
      rcases pollAReqBlocking_cases (s.session g) (s.session g).info.lastReqId with hpoll | hpoll
      · have hqueue := hempty (by rw [hstate]; decide) hpoll
        rw [hpoll]
        show ((if _ then _ else _) >>= _) ≠ _
        by_cases hsuccess : (s.session g).info.success = false
        · rw [if_pos hsuccess]
          cases hpoint with
          | pushRead hat hnone hcounts =>
            have htry := tryPush_not_undefined hcounts hkeys
            intro hc
            rcases bind_eq_error.mp hc with hfailed | ⟨p, -, hp⟩
            · exact htry hfailed
            · nomatch hp
          | pushReading hat hwaits => nomatch hqueue.symm.trans hwaits
          | pushWriting hat hnew hwaits => nomatch hqueue.symm.trans hwaits
          | pushSwapping hat hnew hwaits => nomatch hqueue.symm.trans hwaits
          | pushed hat => exact absurd (hsuccess.symm.trans hat.success) (by decide)
          | pushInit hat => exact absurd (hstate.symm.trans hat.state) (by decide)
          | _ hat => exact absurd (hpush.symm.trans hat.pushOrPull) (by decide)
        · rw [if_neg hsuccess]
          exact fun hc => nomatch hc
      · rw [hpoll]
        exact fun hc => nomatch hc
  | popping =>
    show d.treiberPop _ _ _ ≠ _
    unfold Deployment.treiberPop
    cases hstate : (s.session g).info.state with
    | init => exact fun hc => nomatch hc
    | readTop =>
      show (pollAReqBlocking _ _ >>= _) ≠ _
      rcases pollAReqBlocking_cases (s.session g) (s.session g).info.lastReqId with hpoll | hpoll
      · have hqueue := hempty (by rw [hstate]; decide) hpoll
        obtain ⟨hkey, hlast⟩ := h.top_of_pop hg hpush (by rw [hstate]; decide) (by
          rw [hqueue]
          exact List.not_mem_nil)
        have hoffset := hkey.le
        rw [hpoll]
        show (if _ then _ else _) ≠ _
        rw [if_neg (by omega)]
        split <;> exact fun hc => nomatch hc
      · rw [hpoll]
        exact fun hc => nomatch hc
    | readFirst =>
      show (pollAReqBlocking _ _ >>= _) ≠ _
      rcases pollAReqBlocking_cases (s.session g) (s.session g).info.lastReqId with hpoll | hpoll
      · rw [hpoll]
        show (if _ then _ else _) ≠ _
        split <;> exact fun hc => nomatch hc
      · rw [hpoll]
        exact fun hc => nomatch hc

end TrInv

/-- **THE STACKS ARE CORRECT**, under every interleaving, while fewer than `2^32` requests were
    issued in each session and fewer than `2^32` pushes made to each stack: a node is with one
    session, or linked in one stack, once; a stack is a chain of `push_counter - pop_counter` nodes
    that ends in null; what a pop has read is a node, and no older than the push of the session;
    and no assertion fails. -/
theorem treiber_correct (hkeys : d.maxTrNodeKey ≤ 2 ^ 32) {noConflicts : Bool} {tr : TrTrace}
    {s : TrSys} (hrun : Run (d.trService noConflicts).step d.trStart tr s) (hfew : TrFew d tr s) :
    (∃ chain : Nat → List Nat,
      (∀ q, q < d.numberOfStacks →
        Path s.store.next (s.store.top q).keyId (chain q) 0 ∧ (chain q).Nodup ∧
          (s.store.top q).popCounter ≤ (s.store.top q).pushCounter ∧
          (chain q).length = (s.store.top q).pushCounter - (s.store.top q).popCounter ∧
          ∀ k ∈ chain q, d.isTrNode k) ∧
      ∀ k, d.isTrNode k →
        ((∃! g, g < d.globalSessionNum ∧ (s.session g).info.owned = some k) ∧
          ∀ q, q < d.numberOfStacks → k ∉ chain q) ∨
        ((∃! q, q < d.numberOfStacks ∧ k ∈ chain q) ∧
          ∀ g, g < d.globalSessionNum → (s.session g).info.owned ≠ some k)) ∧
    ∀ g, g < d.globalSessionNum →
      ((s.session g).info.pushOrPullState = .popping → (s.session g).info.state ≠ .init →
        .readTop (s.session g).info.stackId ∉ (s.session g).queue →
        d.isTrNode (s.session g).info.top.keyId ∧
          (s.session g).info.lastPushedCounter ≤ (s.session g).info.top.pushCounter) ∧
      (d.trService noConflicts).pass g (s.shared (d.clientOf g)) (s.session g)
        ≠ .error .undefined := by
  obtain ⟨chain, h⟩ := TrInv.run hkeys hrun hfew
  refine ⟨⟨chain, fun q hq => ?_, fun k hk => ?_⟩, fun g hg => ⟨h.top_of_pop hg, ?_⟩⟩
  · have hcount := h.count q hq
    exact ⟨h.path q hq, h.nodup q hq, by omega, by omega, fun k hk => h.node_of_mem hq hk⟩
  · obtain ⟨p, hp⟩ := h.placed.somewhere hk
    cases p with
    | session g =>
      left
      refine ⟨⟨g, hp, fun g' hg' => ?_⟩, fun q hq => h.not_linked hp.1 hp.2 hq⟩
      have htheirs : s.holds d chain (.session g') k := hg'
      cases h.placed.once hp htheirs
      rfl
    | linked q =>
      right
      refine ⟨⟨q, hp, fun q' hq' => ?_⟩, fun g hg hown => h.not_linked hg hown hp.1 hp.2⟩
      have htheirs : s.holds d chain (.linked q') k := hq'
      cases h.placed.once hp htheirs
      rfl
  · have hundefined := h.pass_not_undefined hkeys hg
      (Service.queue_le_issued (fun _ => Nat.le_refl _) hrun g) (hfew.1 g hg) noConflicts
      (s.shared (d.clientOf g))
    show (if g < d.globalSessionNum then _ else _) ≠ _
    rw [if_pos hg]
    intro hc
    rcases bind_eq_error.mp hc with hpass | ⟨p, -, hp⟩
    · exact hundefined hpass
    · nomatch hp

/-- Two sessions push, and one of them pops. -/
theorem treiber_correct_two : ∃ tr s,
    Run (Deployment.two.trService false).step Deployment.two.trStart tr s ∧
      pushes tr 0 = 1 ∧ pushes tr 1 = 1 ∧ (s.session 0).info.owned = some 2 ∧
      ∃ chain : Nat → List Nat, Path s.store.next (s.store.top 1).keyId (chain 1) 0 ∧
        (chain 1).length = 1 := by
  have h : (do
      let p ← exec (Deployment.two.trService false).step Deployment.two.trStart
        ([Turn.client 0, Turn.client 1] ++ serves 0 1 ++ serves 1 1 ++
          [Turn.client 0, Turn.client 1] ++ serves 0 2 ++ serves 1 2 ++
          [Turn.client 0, Turn.client 0] ++ serves 0 1 ++ [Turn.client 0] ++ serves 0 1 ++
          [Turn.client 0] ++ serves 0 1)
      return (TrFew Deployment.two p.1 p.2 ∧ pushes p.1 0 = 1 ∧ pushes p.1 1 = 1 ∧
        (p.2.session 0).info.owned = some 2 ∧ (p.2.store.top 1).pushCounter = 1 ∧
        (p.2.store.top 1).popCounter = 0 : Bool)) = .ok true := by decide +kernel
  obtain ⟨⟨tr, s⟩, hexec, h⟩ := bind_eq_ok.mp h
  obtain ⟨hfew, hpush₀, hpush₁, howned, hpush, hpop⟩ := of_decide_eq_true (Except.ok.inj h)
  have hrun := run_of_exec hexec
  obtain ⟨⟨chain, hstack, -⟩, -⟩ := treiber_correct (by decide) hrun hfew
  obtain ⟨hpath, -, -, hlen, -⟩ := hstack 1 (by decide)
  rw [hpush, hpop] at hlen
  exact ⟨tr, s, hrun, hpush₀, hpush₁, howned, chain, hpath, hlen⟩

/-- What session 0 holds while its compare-and-swap fails. -/
def retryInfo (newTop : Top) (issued : Nat) : TrSessInfo :=
  { Deployment.two.trSessInfo 0 with
    state := .readTop, newTop := newTop, lastReqId := u32 issued }

/-- The push of session 0, whose compare-and-swap has failed every time so far. -/
def retrying (newTop : Top) (issued : Nat) : TrSys where
  store := Deployment.two.trStart.store
  shared := Deployment.two.trStart.shared
  session := Function.update Deployment.two.trStart.session 0 ⟨retryInfo newTop issued, [], issued⟩

/-- It fails once more. -/
theorem retrying_step (newTop : Top) {issued : Nat} (h : issued < 2 ^ 32) :
    Run (Deployment.two.trService false).step (retrying newTop issued)
      [(.client 0, .moved), (.store 0 false, .served), (.store 0 true, .served)]
      (retrying ⟨2, 0, 1⟩ (issued + 2)) := by
  have hpoll : pollAReqBlocking ((retrying newTop issued).session 0) (u32 issued) = .ok () := by
    unfold pollAReqBlocking Issuer.executed
    rw [if_pos]
    simp only [retrying, Function.update_self, List.length_nil, Nat.sub_zero]
    rw [u32_of_lt h, u64_of_lt (by omega)]
  -- the node is written as it is, so only the number of the request changes
  have hnode : Function.update (fun _ => (⟨0⟩ : TrNode)) 0 ⟨0⟩ = fun _ => ⟨0⟩ :=
    Function.update_eq_self 0 _
  have hwritten : Function.update (fun _ => (⟨0⟩ : TrNode)) 2 ⟨0⟩ = fun _ => ⟨0⟩ :=
    Function.update_eq_self 2 _
  have hpass : (Deployment.two.trService false).pass 0 ((retrying newTop issued).shared 0)
      ((retrying newTop issued).session 0) = .ok ((retrying newTop issued).shared 0,
        { retryInfo ⟨2, 0, 1⟩ (issued + 2) with newNode := Function.update (fun _ => ⟨0⟩) 0 ⟨0⟩ },
        [.writeNode 2 ⟨0⟩, .cas 0 ⟨2, 0, 1⟩], .moved) := by
    show (((pollAReqBlocking ((retrying newTop issued).session 0) (u32 issued)) >>= _) >>= _) >>= _ = _
    rw [hpoll]
    rfl
  rw [hnode] at hpass
  have hclient : (Deployment.two.trService false).step (retrying newTop issued) (.client 0) = .ok
      (⟨(retrying newTop issued).store, (retrying newTop issued).shared, Function.update
        Deployment.two.trStart.session 0 ⟨retryInfo ⟨2, 0, 1⟩ (issued + 2),
          [.writeNode 2 ⟨0⟩, .cas 0 ⟨2, 0, 1⟩], issued + 2⟩⟩, .moved) := by
    refine bind_eq_ok.mpr ⟨_, hpass, ?_⟩
    show Except.ok (Sessions.mk _ (Function.update (retrying newTop issued).shared 0
      ((retrying newTop issued).shared _)) (Function.update (Function.update _ 0 _) 0 _), _) = _
    rw [Function.update_eq_self, Function.update_idem]
    rfl
  have hwrite : (Deployment.two.trService false).step
      ⟨(retrying newTop issued).store, (retrying newTop issued).shared, Function.update
        Deployment.two.trStart.session 0 ⟨retryInfo ⟨2, 0, 1⟩ (issued + 2),
          [.writeNode 2 ⟨0⟩, .cas 0 ⟨2, 0, 1⟩], issued + 2⟩⟩ (.store 0 false) = .ok
      (⟨(retrying newTop issued).store, (retrying newTop issued).shared, Function.update
        Deployment.two.trStart.session 0 ⟨retryInfo ⟨2, 0, 1⟩ (issued + 2),
          [.cas 0 ⟨2, 0, 1⟩], issued + 2⟩⟩, .served) := by
    show Except.ok (Sessions.mk (TrStore.mk _ (Function.update (fun _ => ⟨0⟩) 2 ⟨0⟩)) _
      (Function.update (Function.update _ 0 _) 0 _), _) = _
    rw [hwritten, Function.update_idem]
    rfl
  have hswap : (Deployment.two.trService false).step
      ⟨(retrying newTop issued).store, (retrying newTop issued).shared, Function.update
        Deployment.two.trStart.session 0 ⟨retryInfo ⟨2, 0, 1⟩ (issued + 2),
          [.cas 0 ⟨2, 0, 1⟩], issued + 2⟩⟩ (.store 0 true) = .ok
      (retrying ⟨2, 0, 1⟩ (issued + 2), .served) := by
    show Except.ok (Sessions.mk _ _ (Function.update (Function.update _ 0 _) 0 _), _) = _
    rw [Function.update_idem]
    rfl
  exact ((Run.single hclient).snoc hwrite).snoc hswap

theorem retrying_run : ∀ n, 3 + 2 * n < 2 ^ 32 → ∃ tr,
    Run (Deployment.two.trService false).step Deployment.two.trStart tr
      (retrying ⟨2, 0, 1⟩ (3 + 2 * n)) ∧ ∀ q, pushes tr q = 0
  | 0, _ => by
      have hread : Run (Deployment.two.trService false).step Deployment.two.trStart
          [(.client 0, .moved), (.store 0 false, .served)] (retrying ⟨0, 0, 0⟩ 1) := by
        have hclient : (Deployment.two.trService false).step Deployment.two.trStart (.client 0)
            = .ok (⟨Deployment.two.trStart.store, Deployment.two.trStart.shared, Function.update
              Deployment.two.trStart.session 0 ⟨retryInfo ⟨0, 0, 0⟩ 1, [.readTop 0], 1⟩⟩,
              .moved) := by
          show Except.ok (Sessions.mk _ (Function.update Deployment.two.trStart.shared 0
            (Deployment.two.trStart.shared 0)) (Function.update _ 0 _), _) = _
          rw [Function.update_eq_self]
          rfl
        refine (Run.single hclient).snoc ?_
        show Except.ok (Sessions.mk _ _ (Function.update (Function.update _ 0 _) 0 _), _) = _
        rw [Function.update_idem]
        rfl
      exact ⟨_, hread.trans (retrying_step _ (by decide)), fun _ => rfl⟩
  | n + 1, h => by
      obtain ⟨tr, hrun, hpushes⟩ := retrying_run n (by omega)
      refine ⟨_, hrun.trans (retrying_step _ (by omega)), fun q => ?_⟩
      rw [pushes_append, hpushes q]
      rfl

/-- **A session that does not wait** links its node to itself: the number of its `2^32`-th request
    is 0, so it goes on before its compare-and-swap was executed. -/
theorem self_loop : ∃ tr s, Run (Deployment.two.trService false).step Deployment.two.trStart tr s ∧
    (∀ q, q < Deployment.two.numberOfStacks → pushes tr q < 2 ^ 32) ∧
    ¬ ∃ l, Path s.store.next (s.store.top 0).keyId l 0 := by
  obtain ⟨tr, hrun, hpushes⟩ := retrying_run (2 ^ 31 - 2) (by decide)
  have hloop : (do
      let p ← exec (Deployment.two.trService false).step (retrying ⟨2, 0, 1⟩ (2 ^ 32 - 1))
        ([Turn.client 0, Turn.client 0] ++ serves 0 4 ++ [Turn.client 0] ++ serves 0 2)
      return ((∀ q, q < Deployment.two.numberOfStacks → pushes p.1 q ≤ 2) ∧
        (p.2.store.top 0).keyId = 2 ∧ p.2.store.next 2 = 2 : Bool)) = .ok true := by
    decide +kernel
  obtain ⟨⟨tr', s⟩, hexec, hloop⟩ := bind_eq_ok.mp hloop
  obtain ⟨hfew, htop, hnext⟩ := of_decide_eq_true (Except.ok.inj hloop)
  refine ⟨tr ++ tr', s, hrun.trans (run_of_exec hexec), fun q hq => ?_, ?_⟩
  · have hnone := hpushes q
    have htwo := hfew q hq
    rw [pushes_append]
    change pushes tr' q ≤ 2 at htwo
    omega
  · rintro ⟨l, hl⟩
    rw [htop] at hl
    induction l with
    | nil => nomatch hl
    | cons a l ih =>
      obtain ⟨rfl, hl⟩ := hl
      rw [hnext] at hl
      exact ih hl

end Odyssey
