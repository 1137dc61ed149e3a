/-
  THE STEPS OF THE HARRIS-MICHAEL LISTS, once they are set up.

  `HmInv.serve` goes through the requests that can wait at a point, `HmInv.pass` and
  `HmInv.waitPass` are the turns of the clients, and `HmInv.step` puts them together: a step keeps
  `HmInv`, unless it finds a pointer to be the one that was read though it was overwritten.
-/
import Odyssey.HarrisMichaelRuns

namespace Odyssey

open Lib

variable {d : Deployment}

/-! ## Requests -/

/-- A step that reads no pointer and overwrites none leaves what is good. -/
theorem fresh_same {g key : Nat} {tr : HmTrace} {turn : Turn} {e : HmEvent}
    (hread : ∀ key, e ≠ .read key) (hwrote : ∀ key, e ≠ .wrote key) :
    fresh g key (tr ++ [(turn, e)]) = fresh g key tr := by
  rw [fresh_concat]
  unfold freshAfter
  split
  · rename_i heq
    cases heq
    exact absurd rfl (hread _)
  · rename_i heq
    cases heq
    exact absurd rfl (hwrote _)
  · rfl

theorem fresh_served {g : Nat} {tr : HmTrace} {turn : Turn} :
    (fun p => fresh g p (tr ++ [(turn, .served)]) = true) = fun p => fresh g p tr = true := by
  funext p
  rw [fresh_same (fun _ hc => by cases hc) fun _ hc => by cases hc]

theorem HmStore.BodyOk.written {store : HmStore} {key : Nat} {node : HmNode}
    (h : node.nodePtrKeyId = d.hmGetNodePtrKeyId key) :
    HmStore.BodyOk d { store with node := Function.update store.node key node } key := by
  show (Function.update store.node key node key).nodePtrKeyId = _
  rw [Function.update_self]
  exact h

theorem HmStore.BodyOk.kept {store : HmStore} {key k : Nat} (h : store.BodyOk d k) (hne : k ≠ key)
    (node : HmNode) :
    HmStore.BodyOk d { store with node := Function.update store.node key node } k := by
  show (Function.update store.node key node k).nodePtrKeyId = _
  rw [Function.update_of_ne hne]
  exact h

theorem HmEvent.quiet_served : HmEvent.served.Quiet d := ⟨fun _ _ => rfl, rfl⟩

theorem HmEvent.quiet_read (key : Nat) : (HmEvent.read key).Quiet d := ⟨fun _ _ => rfl, rfl⟩

namespace HmInv

variable {tr : HmTrace} {s : HmSys} {chain : Nat → List Nat} {g : Nat} {spurious : Bool}

/-- The flag is read. -/
theorem serveFlag (h : HmInv d tr s chain) (hf : HmFits d) (hg : g < d.globalSessionNum)
    {x : HmSession} (hx : s.session g = x) (hat : x.info.At .inserting .init)
    (hout : OutOfLists d chain x.info.ownedKeyPtr) :
    HmInv d (tr ++ [(.store g spurious, .served)]) ⟨s.store, s.shared, Function.update s.session g
      ⟨{ x.info with initDoneFlag := s.store.initDone }, [], x.issued⟩⟩ chain := by
  subst hx
  have hserve : hmServe spurious s.store (s.session g).info .readFlag = (s.store,
      { (s.session g).info with initDoneFlag := s.store.initDone }, .served) := rfl
  refine h.update hf hg (fun g' spurious' heq => ?_)
    (fun g' _ _ => frame_same rfl (fun _ _ hb => hb) rfl _) (fun _ _ _ _ => rfl) h.lists
    (.insInit ⟨hat.insOrDel, hat.state⟩ (Or.inl rfl) hout)
    ((h.keys g hg).served (hmServe_same hserve) []) (fun k l hk hin => ?_)
    (h.phases.answered ⟨hat.insOrDel, hat.state⟩ rfl) h.cntr_lt rfl (h.bound_later _ _)
  · cases heq
    rfl
  · rw [memberOf_concat] at hin
    exact h.members k l hk hin

/-- A request that shows nothing, and writes nothing but bodies. -/
theorem silent (h : HmInv d tr s chain) (hf : HmFits d) (hg : g < d.globalSessionNum)
    {r : HmReq} {queue : List HmReq} (hqueue : (s.session g).queue = r :: queue) {store : HmStore}
    {info : HmSessInfo}
    (hserve : hmServe spurious s.store (s.session g).info r = (store, info, .served))
    (hloop : r.InLoop) (hrest : queue ≠ [.readFlag])
    (hptr : store.ptr = s.store.ptr)
    (hbody : ∀ k, d.isHmNode k → s.store.BodyOk d k → store.BodyOk d k)
    (hpoint : HmPoint d store chain (fun p => fresh g p tr = true) (memberOf d (d.hmOwnedKey g) tr)
      ⟨info, queue, (s.session g).issued⟩) :
    ∃ chain', HmInv d (tr ++ [(.store g spurious, .served)])
      ⟨store, s.shared,
        Function.update s.session g ⟨info, queue, (s.session g).issued⟩⟩ chain' := by
  refine h.quiet hf hg hqueue hserve hloop hrest HmEvent.quiet_served hptr hbody ?_
  rw [fresh_served]
  exact hpoint

/-- The queue of a search that begins does not ask for the flag. -/
theorem concat_ne_ask (reads : List HmReq) (r : HmReq) (hr : r ≠ .readFlag) :
    reads ++ [r] ≠ [.readFlag] := by
  intro hc
  have hlast := congrArg List.getLast? hc
  rw [List.getLast?_concat] at hlast
  exact hr (Option.some.inj hlast)

/-- A body of the node of a session is written. -/
theorem serveBody (h : HmInv d tr s chain) (hf : HmFits d) (hg : g < d.globalSessionNum)
    {x : HmSession} (hx : s.session g = x) {w : HmReq} {writes : List HmReq}
    (hat : x.info.At .searchingIns .searchInnerLoop)
    (hqueue : x.queue = (w :: writes) ++ [.readPtr x.info.listId .currPtr])
    (hwrites : ∀ r ∈ w :: writes, BodyWrite d x.info r)
    (hbody : s.store.BodyOk d x.info.ownedKey ∨
      ∃ node, HmReq.writeNode x.info.ownedKey node ∈ w :: writes)
    (hout : OutOfLists d chain x.info.ownedKeyPtr)
    (hmine : x.info.newNodePtr.myKeyId = x.info.ownedKeyPtr)
    (hprev : x.info.prevPtr = x.info.listId) {store : HmStore} {info : HmSessInfo} {e : HmEvent}
    (hserve : hmServe spurious s.store x.info w = (store, info, e)) :
    ∃ chain', HmInv d (tr ++ [(.store g spurious, e)]) ⟨store, s.shared, Function.update s.session g
      ⟨info, writes ++ [.readPtr x.info.listId .currPtr], x.issued⟩⟩ chain' := by
  subst hx
  have hkeys := h.keys g hg
  have hrest := concat_ne_ask writes (.readPtr (s.session g).info.listId .currPtr) (by simp)
  have hleft : ∀ r ∈ writes, BodyWrite d (s.session g).info r :=
    fun r hr => hwrites r (List.mem_cons_of_mem _ hr)
  cases hwrites w List.mem_cons_self with
  | @own node hnode =>
    -- the body that a search compares
    cases hserve
    have hok : HmStore.BodyOk d { s.store with
        node := Function.update s.store.node (s.session g).info.ownedKey node }
        (s.session g).info.ownedKey := .written (by rw [hnode, hkeys.ownedKeyPtr, hkeys.ownedKey])
    refine h.silent hf hg hqueue rfl trivial hrest rfl (fun k _ hb => ?_)
      (.insWriting hat rfl hleft (Or.inl hok) hout hmine hprev)
    by_cases hk : k = (s.session g).info.ownedKey
    · rw [hk]
      exact hok
    · exact hb.kept hk _
  | @rest key node hkey =>
    -- the other keys of the node, which no search reads
    cases hserve
    have hstill : ∀ k, d.isHmNode k → s.store.BodyOk d k →
        HmStore.BodyOk d { s.store with node := Function.update s.store.node key node } k := by
      refine fun k hk hb => hb.kept ?_ _
      rintro rfl
      exact hkey hk
    have hnode : d.isHmNode (s.session g).info.ownedKey := by
      rw [hkeys.ownedKey]
      exact hf.owned_isHmNode hg
    refine h.silent hf hg hqueue rfl trivial hrest rfl hstill
      (.insWriting hat rfl hleft ?_ hout hmine hprev)
    rcases hbody with hb | ⟨node', hin⟩
    · exact Or.inl (hstill _ hnode hb)
    · rcases List.mem_cons.mp hin with heq | hin
      · cases heq
        exact absurd hnode hkey
      · exact Or.inr ⟨node', hin⟩

/-- The head is read. -/
theorem serveHead (h : HmInv d tr s chain) (hf : HmFits d) (hg : g < d.globalSessionNum)
    {x : HmSession} (hx : s.session g = x) (hstate : x.info.state = .searchInnerLoop)
    (hqueue : x.queue = [.readPtr x.info.listId .currPtr])
    (hsearch : Searches d s.store chain (memberOf d (d.hmOwnedKey g) tr) x.info)
    (hprev : x.info.prevPtr = x.info.listId) :
    ∃ chain', HmInv d (tr ++ [(.store g spurious, .read x.info.listId)])
      ⟨s.store, s.shared, Function.update s.session g
        ⟨x.info.fill (s.store.ptr x.info.listId) .currPtr, [], x.issued⟩⟩ chain' := by
  subst hx
  exact h.quiet hf hg hqueue rfl trivial (by simp) (HmEvent.quiet_read _) rfl
    (fun _ _ hb => hb)
    (.readHead h.lists hf (hf.owned_isHmNode hg) (h.keys g hg) hstate hsearch hprev)

/-- The pointer behind is read. -/
theorem serveNext (h : HmInv d tr s chain) (hf : HmFits d) (hg : g < d.globalSessionNum)
    {x : HmSession} (hx : s.session g = x) (hstate : x.info.state = .readCurrPtrAgain)
    (hqueue : x.queue = [.readPtr (d.behind x.info.currPtr) .nextPtr,
      .readNextNode x.info.currPtr.nextKeyId, .readPtr x.info.prevPtr .newCurrPtr])
    (hsearch : Searches d s.store chain (memberOf d (d.hmOwnedKey g) tr) x.info)
    (hcurr : CurrRead d s.store (chain x.info.listId) (fun p => fresh g p tr = true) x.info)
    (hnext : x.info.currPtr.nextKeyId ≠ 0) :
    ∃ chain', HmInv d (tr ++ [(.store g spurious, .read (d.behind x.info.currPtr))])
      ⟨s.store, s.shared, Function.update s.session g
        ⟨x.info.fill (s.store.ptr (d.behind x.info.currPtr)) .nextPtr,
          [.readNextNode x.info.currPtr.nextKeyId, .readPtr x.info.prevPtr .newCurrPtr],
          x.issued⟩⟩ chain' := by
  subst hx
  refine h.quiet hf hg hqueue rfl trivial (by simp) (HmEvent.quiet_read _) rfl
    (fun _ _ hb => hb)
    (.readNext h.lists hf (h.keys g hg) (fun p hne hp => ?_) hstate hsearch hcurr hnext)
  refine (fresh_before (fun _ _ hc => hne ?_) hp).1
  cases hc
  rfl

/-- The pointer before is read again. -/
theorem serveAgain (h : HmInv d tr s chain) (hf : HmFits d) (hg : g < d.globalSessionNum)
    {x : HmSession} (hx : s.session g = x) (hstate : x.info.state = .readCurrPtrAgain)
    (hqueue : x.queue = [.readPtr x.info.prevPtr .newCurrPtr])
    (hsearch : Searches d s.store chain (memberOf d (d.hmOwnedKey g) tr) x.info)
    (hcurr : CurrRead d s.store (chain x.info.listId) (fun p => fresh g p tr = true) x.info)
    (hnext : x.info.currPtr.nextKeyId ≠ 0)
    (hread : NextRead d s.store (chain x.info.listId) (fun p => fresh g p tr = true) x.info)
    (hbody : Unchanged s.store (fun p => fresh g p tr = true) x.info →
      x.info.nextNode.nodePtrKeyId = d.behind x.info.currPtr) {e : HmEvent}
    (he : e = x.info.readEvent x.info.prevPtr (s.store.ptr x.info.prevPtr) .newCurrPtr)
    (hfresh : ∀ key, e.compared = some key → fresh g key tr = true) :
    ∃ chain', HmInv d (tr ++ [(.store g spurious, e)])
      ⟨s.store, s.shared, Function.update s.session g
        ⟨x.info.fill (s.store.ptr x.info.prevPtr) .newCurrPtr, [], x.issued⟩⟩ chain' := by
  subst hx
  have hcases : e = .matched (s.session g).info.prevPtr ∨ e = .served := by
    rw [he]
    unfold HmSessInfo.readEvent
    dsimp only
    split
    · exact Or.inl rfl
    · exact Or.inr rfl
  have hquiet : e.Quiet d := by
    rcases hcases with rfl | rfl <;> exact ⟨fun _ _ => rfl, rfl⟩
  have hgood : (fun p => fresh g p (tr ++ [(.store g spurious, e)]) = true)
      = fun p => fresh g p tr = true := by
    funext p
    rw [fresh_same (fun _ hc => by rcases hcases with heq | heq <;> cases heq.symm.trans hc)
      fun _ hc => by rcases hcases with heq | heq <;> cases heq.symm.trans hc]
  refine h.quiet hf hg hqueue (by rw [he]; rfl) trivial (by simp) hquiet rfl
    (fun _ _ hb => hb) ?_
  rw [hgood]
  -- an equal pointer is good by the condition, and not by its counter
  refine .readAgain h.lists hf (h.keys g hg) (fun hequal => hfresh _ ?_) hstate hsearch hcurr hnext
    hread hbody
  rw [he, HmSessInfo.readEvent, if_pos hequal]
  rfl

/-! ## Swaps -/

/-- A compare-and-swap succeeds, or it changes nothing but what it expects. -/
theorem hmServe_cas {store store' : HmStore} {info info' : HmSessInfo} {key : Nat} {swap : HmSwap}
    {ptr : HmPtr} {e : HmEvent}
    (h : hmServe spurious store info (.cas key swap ptr) = (store', info', e)) :
    (store.ptr key = info.expected swap ∧ store' = store.write key ptr ∧
        info' = info.swapped (info.expected swap) true swap ∧ e = info.swapEvent key swap) ∨
      (store' = store ∧ info' = info.swapped (store.ptr key) false swap ∧ e = .served) := by
  unfold hmServe at h
  dsimp only at h
  split at h
  · rename_i hsame
    cases h
    exact Or.inl ⟨hsame.1, rfl, rfl, rfl⟩
  · cases h
    exact Or.inr ⟨rfl, rfl, rfl⟩

/-- A session that searches links a marked node out. -/
theorem serveHelp (h : HmInv d tr s chain) (hf : HmFits d) (hg : g < d.globalSessionNum)
    (hserved : Service.served tr + 2 < 2 ^ 64) {x : HmSession} (hx : s.session g = x) {p : Nat}
    {ptr : HmPtr} (hstate : x.info.state = .searchInnerLoop)
    (hqueue : x.queue = [.cas p .unlink ptr, .readPtr x.info.listId .currPtr])
    (hsearch : Searches d s.store chain (memberOf d (d.hmOwnedKey g) tr) x.info)
    (hprev : x.info.prevPtr = x.info.listId)
    (hunlink : Unlinks d s.store (chain x.info.listId) (fun p => fresh g p tr = true) p
      x.info.currPtr ptr) {store : HmStore} {info : HmSessInfo} {e : HmEvent}
    (hserve : hmServe spurious s.store x.info (.cas p .unlink ptr) = (store, info, e))
    (hfresh : ∀ key, e.compared = some key → fresh g key tr = true) :
    ∃ chain', HmInv d (tr ++ [(.store g spurious, e)]) ⟨store, s.shared, Function.update s.session g
      ⟨info, [.readPtr x.info.listId .currPtr], x.issued⟩⟩ chain' := by
  subst hx
  have hkeys := h.keys g hg
  have hnode : d.isHmNode (s.session g).info.ownedKey := by
    rw [hkeys.ownedKey]
    exact hf.owned_isHmNode hg
  rcases hmServe_cas hserve with ⟨hsame, rfl, rfl, rfl⟩ | ⟨rfl, rfl, rfl⟩
  · obtain ⟨chain', hlists, hframe, -, -, hbound, hunmarked⟩ :=
      h.unlink hf hserved hkeys.list_lt hunlink (hfresh p rfl) hsame
    refine ⟨chain', h.served hf hg hqueue hserve trivial (by simp) (fun _ _ _ => hframe _)
      (fun _ _ _ _ => rfl) hlists ?_ (h.members_write (hframe 0) hunmarked fun _ _ => rfl)
      (h.bound_write hbound)⟩
    have hsearch' := (hframe (s.session g).info.ownedKeyPtr).searches hnode hsearch
    exact .searchStart hstate rfl (hsearch'.congr rfl rfl rfl rfl rfl) hprev
  · exact h.silent hf hg hqueue hserve trivial (by simp) rfl (fun _ _ hb => hb)
      (.searchStart hstate rfl (hsearch.congr rfl rfl rfl rfl rfl) hprev)

/-- A session tries to insert its node. -/
theorem serveInsert (h : HmInv d tr s chain) (hf : HmFits d) (hg : g < d.globalSessionNum)
    (hserved : Service.served tr + 2 < 2 ^ 64) {x : HmSession} (hx : s.session g = x)
    (hat : x.info.At .inserting .potentialSuccess)
    (hqueue : x.queue = [.cas x.info.prevPtr .insert x.info.newCurrPtr])
    (hbody : s.store.BodyOk d x.info.ownedKey) (hout : OutOfLists d chain x.info.ownedKeyPtr)
    (hcurr : CurrRead d s.store (chain x.info.listId) (fun p => fresh g p tr = true) x.info)
    (hlt : x.info.ownedKeyPtr < d.behind x.info.currPtr)
    (hfilled : hmFillNewNodePtrNewCurrPtr x.info = x.info)
    (hwritten : s.store.ptr x.info.ownedKeyPtr = x.info.newNodePtr) {store : HmStore}
    {info : HmSessInfo} {e : HmEvent} (hserve : hmServe spurious s.store x.info
      (.cas x.info.prevPtr .insert x.info.newCurrPtr) = (store, info, e))
    (hfresh : ∀ key, e.compared = some key → fresh g key tr = true) :
    ∃ chain', HmInv d (tr ++ [(.store g spurious, e)]) ⟨store, s.shared, Function.update s.session g
      ⟨info, [], x.issued⟩⟩ chain' := by
  rcases hmServe_cas hserve with ⟨hsame, rfl, rfl, rfl⟩ | ⟨rfl, rfl, rfl⟩
  · exact h.insert hf hg hserved hx hat hqueue hbody hout hcurr hlt hfilled hwritten
      (hfresh _ rfl) hsame hserve
  · subst hx
    refine h.silent hf hg hqueue hserve trivial (by simp) rfl (fun _ _ hb => hb)
      (.insSwapped ⟨hat.insOrDel, hat.state⟩ rfl (fun hc => ?_) (fun _ => ⟨hbody, hout⟩) ?_)
    · cases hc
    · exact (congrArg (fun info : HmSessInfo => info.newNodePtr.myKeyId) hfilled).symm

/-- A session tries to mark its node. -/
theorem serveMark (h : HmInv d tr s chain) (hf : HmFits d) (hg : g < d.globalSessionNum)
    {x : HmSession} (hx : s.session g = x) (hat : x.info.At .deleting .markedPotentialSuccess)
    (hqueue : x.queue = [.cas x.info.ownedKeyPtr .mark x.info.newNodePtr])
    (hmember : memberOf d (d.hmOwnedKey g) tr = some x.info.listId)
    (hcurr : CurrRead d s.store (chain x.info.listId) (fun p => fresh g p tr = true) x.info)
    (hnext : x.info.currPtr.nextKeyId = x.info.ownedKey)
    (hmarks : x.info.newNodePtr.marked = true ∧ x.info.newNodePtr.myKeyId = x.info.ownedKeyPtr ∧
      x.info.newNodePtr.nextKeyId = x.info.nextPtr.nextKeyId) {store : HmStore}
    {info : HmSessInfo} {e : HmEvent} (hserve : hmServe spurious s.store x.info
      (.cas x.info.ownedKeyPtr .mark x.info.newNodePtr) = (store, info, e)) :
    ∃ chain', HmInv d (tr ++ [(.store g spurious, e)]) ⟨store, s.shared, Function.update s.session g
      ⟨info, [], x.issued⟩⟩ chain' := by
  rcases hmServe_cas hserve with ⟨hsame, rfl, rfl, rfl⟩ | ⟨rfl, rfl, rfl⟩
  · exact ⟨chain, h.mark hf hg hx hat hqueue hmember hcurr hnext hmarks hsame hserve⟩
  · subst hx
    refine h.silent hf hg hqueue hserve trivial (by simp) rfl (fun _ _ hb => hb)
      (.delMarked ⟨hat.insOrDel, hat.state⟩ rfl (fun _ => hmember) (fun hc => ?_)
        ⟨hcurr.read, hcurr.unmarked, hcurr.before⟩ hnext)
    cases hc

/-- A session tries to link its node out. -/
theorem serveUnlink (h : HmInv d tr s chain) (hf : HmFits d) (hg : g < d.globalSessionNum)
    (hserved : Service.served tr + 2 < 2 ^ 64) {x : HmSession} (hx : s.session g = x) {ptr : HmPtr}
    (hat : x.info.At .deleting .potentialSuccess)
    (hqueue : x.queue = [.cas x.info.prevPtr .unlink ptr]) (hdead : Dead d s.store chain x.info)
    (hunlink : Unlinks d s.store (chain x.info.listId) (fun p => fresh g p tr = true)
      x.info.prevPtr x.info.currPtr ptr)
    (hnext : x.info.currPtr.nextKeyId = x.info.ownedKey) {store : HmStore} {info : HmSessInfo}
    {e : HmEvent}
    (hserve : hmServe spurious s.store x.info (.cas x.info.prevPtr .unlink ptr) = (store, info, e))
    (hfresh : ∀ key, e.compared = some key → fresh g key tr = true) :
    ∃ chain', HmInv d (tr ++ [(.store g spurious, e)]) ⟨store, s.shared, Function.update s.session g
      ⟨info, [], x.issued⟩⟩ chain' := by
  subst hx
  have hkeys := h.keys g hg
  rcases hmServe_cas hserve with ⟨hsame, rfl, rfl, rfl⟩ | ⟨rfl, rfl, rfl⟩
  · obtain ⟨chain', hlists, hframe, hnot, hothers, hbound, hunmarked⟩ :=
      h.unlink hf hserved hkeys.list_lt hunlink (hfresh _ rfl) hsame
    refine ⟨chain', h.served hf hg hqueue hserve trivial (by simp) (fun _ _ _ => hframe _)
      (fun _ _ _ _ => rfl) hlists ?_ (h.members_write (hframe 0) hunmarked fun _ _ => rfl)
      (h.bound_write hbound)⟩
    refine .delUnlinked ⟨hat.insOrDel, hat.state⟩ rfl (fun _ l hl => ?_) fun hc => ?_
    · by_cases hlist : l = (s.session g).info.listId
      · rw [hlist]
        rw [behind_of_ne hunlink.next, hnext, hkeys.ownedKey, ← hkeys.ownedKeyPtr] at hnot
        exact hnot
      · rw [hothers l hlist]
        exact hdead.others l hl hlist
    · cases hc
  · refine h.silent hf hg hqueue hserve trivial (by simp) rfl (fun _ _ hb => hb)
      (.delUnlinked ⟨hat.insOrDel, hat.state⟩ rfl (fun hc => ?_)
        fun _ => ⟨hdead.marked, hdead.others⟩)
    cases hc

/-- **The store executes a request.** -/
theorem serve (h : HmInv d tr s chain) (hf : HmFits d) (hserved : Service.served tr + 2 < 2 ^ 64)
    {r : HmReq} {queue : List HmReq} (hqueue : (s.session g).queue = r :: queue) {store : HmStore}
    {info : HmSessInfo} {e : HmEvent}
    (hserve : hmServe spurious s.store (s.session g).info r = (store, info, e))
    (hfresh : ∀ key, e.compared = some key → fresh g key tr = true) :
    ∃ chain', HmInv d (tr ++ [(.store g spurious, e)])
      ⟨store, s.shared,
        Function.update s.session g ⟨info, queue, (s.session g).issued⟩⟩ chain' := by
  have hg : g < d.globalSessionNum := by
    by_contra hc
    have hempty := (h.outside g (Nat.le_of_not_lt hc)).1
    rw [hempty] at hqueue
    cases hqueue
  -- nothing waits at some of the points
  have hnone : (s.session g).queue ≠ [] := by
    rw [hqueue]
    exact List.cons_ne_nil _ _
  cases h.point g hg with
  | insInit hat hwaits hout =>
    rcases hwaits with hempty | hasked
    · exact absurd hempty hnone
    · obtain ⟨rfl, rfl⟩ := List.cons.inj (hqueue.symm.trans hasked)
      cases hserve
      exact ⟨chain, h.serveFlag hf hg rfl hat hout⟩
  | @insWriting writes hat hwaits hwrites hbody hout hmine hprev =>
    cases writes with
    | nil =>
      obtain ⟨rfl, rfl⟩ := List.cons.inj (hqueue.symm.trans hwaits)
      cases hserve
      refine h.serveHead hf hg rfl hat.state hwaits ⟨.out hat.insOrDel ?_ hout, hmine⟩ hprev
      refine hbody.resolve_right ?_
      rintro ⟨node, hin⟩
      cases hin
    | cons w writes =>
      obtain ⟨rfl, rfl⟩ := List.cons.inj (hqueue.symm.trans hwaits)
      exact h.serveBody hf hg rfl hat hwaits hwrites hbody hout hmine hprev hserve
  | searchStart hstate hwaits hsearch hprev =>
    obtain ⟨rfl, rfl⟩ := List.cons.inj (hqueue.symm.trans hwaits)
    cases hserve
    exact h.serveHead hf hg rfl hstate hwaits hsearch hprev
  | searchHelp hstate hwaits hsearch hprev hunlink =>
    obtain ⟨rfl, rfl⟩ := List.cons.inj (hqueue.symm.trans hwaits)
    exact h.serveHelp hf hg hserved rfl hstate hwaits hsearch hprev hunlink hserve hfresh
  | searchCurr _ hempty => exact absurd hempty hnone
  | searchNext hstate hwaits hsearch hcurr hnext =>
    obtain ⟨rfl, rfl⟩ := List.cons.inj (hqueue.symm.trans hwaits)
    cases hserve
    exact h.serveNext hf hg rfl hstate hwaits hsearch hcurr hnext
  | searchNode hstate hwaits hsearch hcurr hnext hread =>
    obtain ⟨rfl, rfl⟩ := List.cons.inj (hqueue.symm.trans hwaits)
    cases hserve
    exact h.silent hf hg hwaits rfl trivial (by simp) rfl (fun _ _ hb => hb)
      (.readNode h.lists hf (h.keys g hg) hstate hsearch hcurr hnext hread)
  | searchAgain hstate hwaits hsearch hcurr hnext hread hbody =>
    obtain ⟨rfl, rfl⟩ := List.cons.inj (hqueue.symm.trans hwaits)
    cases hserve
    exact h.serveAgain hf hg rfl hstate hwaits hsearch hcurr hnext hread hbody rfl hfresh
  | searched _ hempty => exact absurd hempty hnone
  | tryInsert _ hempty => exact absurd hempty hnone
  | insPointing hat hwaits hbody hout hcurr hlt hfilled =>
    obtain ⟨rfl, rfl⟩ := List.cons.inj (hqueue.symm.trans hwaits)
    cases hserve
    exact ⟨chain, h.overwrite hf hg rfl hat hwaits hbody hout hcurr hlt hfilled⟩
  | insSwapping hat hwaits hbody hout hcurr hlt hfilled hwritten =>
    obtain ⟨rfl, rfl⟩ := List.cons.inj (hqueue.symm.trans hwaits)
    exact h.serveInsert hf hg hserved rfl hat hwaits hbody hout hcurr hlt hfilled hwritten hserve
      hfresh
  | insSwapped _ hempty => exact absurd hempty hnone
  | delInit _ hempty => exact absurd hempty hnone
  | tryDelete _ hempty => exact absurd hempty hnone
  | @delMarking reads hat hwaits hreads hmember hcurr hnext hmarks =>
    cases reads with
    | nil =>
      obtain ⟨rfl, rfl⟩ := List.cons.inj (hqueue.symm.trans hwaits)
      exact h.serveMark hf hg rfl hat hwaits hmember hcurr hnext hmarks hserve
    | cons r' reads =>
      obtain ⟨rfl, rfl⟩ := List.cons.inj (hqueue.symm.trans hwaits)
      obtain ⟨key, rfl⟩ := hreads _ List.mem_cons_self
      cases hserve
      exact h.silent hf hg hwaits rfl trivial (concat_ne_ask _ _ (by simp)) rfl
        (fun _ _ hb => hb) (.delMarking ⟨hat.insOrDel, hat.state⟩ rfl
          (fun r hr => hreads r (List.mem_cons_of_mem _ hr)) hmember
          ⟨hcurr.read, hcurr.unmarked, hcurr.before⟩ hnext hmarks)
  | delMarked _ hempty => exact absurd hempty hnone
  | delUnlinking hat hwaits hdead hunlink hnext =>
    obtain ⟨rfl, rfl⟩ := List.cons.inj (hqueue.symm.trans hwaits)
    exact h.serveUnlink hf hg hserved rfl hat hwaits hdead hunlink hnext hserve hfresh
  | delUnlinked _ hempty => exact absurd hempty hnone
  | delClean _ hempty => exact absurd hempty hnone

end HmInv

/-! ## Passes -/

theorem transition_ask {x : HmSession} {info : HmSessInfo} {requests : List HmReq}
    (h : HmReq.readFlag ∉ requests) : .readFlag ∉ (hmTransitionToSearching x info requests).2 := by
  show HmReq.readFlag ∉ requests ++ [.readPtr info.listId .currPtr]
  simpa using h

theorem searchOwned_ask {x : HmSession} {info : HmSessInfo} {requests : List HmReq}
    (h : HmReq.readFlag ∉ requests) : .readFlag ∉ (hmSearchOwned x info requests).2 := by
  show HmReq.readFlag ∉ (hmTransitionToSearching x info requests).2
  exact transition_ask h

theorem innerLoop_ask (x : HmSession) : .readFlag ∉ (d.hmSearchInnerLoop x).2 := by
  unfold Deployment.hmSearchInnerLoop
  split
  · exact List.not_mem_nil
  · simp

theorem again_ask (x : HmSession) : .readFlag ∉ (hmReadCurrPtrAgain x).2 := by
  unfold hmReadCurrPtrAgain
  dsimp only
  split
  · exact transition_ask List.not_mem_nil
  · split
    · split
      · exact transition_ask (by simp)
      · exact transition_ask List.not_mem_nil
    · split
      · exact List.not_mem_nil
      · exact List.not_mem_nil

section Machines

variable {x : HmSession} {noConflict : Bool} {cntr cntr' : Nat} {info : HmSessInfo}
  {requests : List HmReq}

theorem search_ask (h : d.hmSearch x = .ok (info, requests)) : .readFlag ∉ requests := by
  show HmReq.readFlag ∉ (info, requests).2
  unfold Deployment.hmSearch at h
  split at h
  · obtain ⟨⟨⟩, -, h⟩ := bind_eq_ok.mp h
    rw [← Except.ok.inj h]
    exact transition_ask List.not_mem_nil
  · obtain ⟨⟨⟩, -, h⟩ := bind_eq_ok.mp h
    rw [← Except.ok.inj h]
    exact innerLoop_ask x
  · rw [← Except.ok.inj h]
    exact innerLoop_ask x
  · obtain ⟨⟨⟩, -, h⟩ := bind_eq_ok.mp h
    rw [← Except.ok.inj h]
    exact again_ask x
  · rw [← Except.ok.inj h]
    exact List.not_mem_nil

theorem insert_ask (h : hmInsert x = .ok (info, requests)) : .readFlag ∉ requests := by
  show HmReq.readFlag ∉ (info, requests).2
  unfold hmInsert at h
  split at h
  · rw [← Except.ok.inj h]
    refine searchOwned_ask fun hc => ?_
    obtain ⟨i, -, hr⟩ := List.mem_map.mp hc
    cases hr
  · cases h
    simp
  · obtain ⟨⟨⟩, -, h⟩ := bind_eq_ok.mp h
    split at h
    · rw [← Except.ok.inj h]
      exact List.not_mem_nil
    · rw [← Except.ok.inj h]
      exact transition_ask List.not_mem_nil
  · rw [← Except.ok.inj h]
    exact List.not_mem_nil

theorem delete_ask (h : d.hmDelete noConflict cntr x = .ok (cntr', info, requests)) :
    .readFlag ∉ requests := by
  show HmReq.readFlag ∉ (cntr', info, requests).2.2
  unfold Deployment.hmDelete at h
  split at h
  · rw [← Except.ok.inj h]
    exact searchOwned_ask List.not_mem_nil
  · cases h
    simp
  · obtain ⟨⟨⟩, -, h⟩ := bind_eq_ok.mp h
    split at h
    · cases h
      simp
    · rw [← Except.ok.inj h]
      exact searchOwned_ask List.not_mem_nil
  · obtain ⟨⟨⟩, -, h⟩ := bind_eq_ok.mp h
    split at h
    · rw [← Except.ok.inj h]
      exact List.not_mem_nil
    · rw [← Except.ok.inj h]
      exact searchOwned_ask List.not_mem_nil
  · obtain ⟨⟨⟩, -, h⟩ := bind_eq_ok.mp h
    rw [← Except.ok.inj h]
    exact List.not_mem_nil
  · rw [← Except.ok.inj h]
    exact List.not_mem_nil

/-- **The loop does not ask for the flag.** -/
theorem loopPass_ask (h : d.hmLoopPass noConflict cntr x = .ok (cntr', info, requests)) :
    .readFlag ∉ requests := by
  have hsearch := hmSearch_of_pass h
  cases hp : x.info.insOrDelState with
  | searchingIns => exact search_ask (hsearch (Or.inl hp))
  | searchingDel => exact search_ask (hsearch (Or.inr (Or.inl hp)))
  | searchingCl => exact search_ask (hsearch (Or.inr (Or.inr hp)))
  | inserting => exact insert_ask (hmInsert_of_pass h hp)
  | deleting => exact delete_ask (hmDelete_of_pass h hp)
  | cleanUp =>
    unfold Deployment.hmLoopPass at h
    rw [hp] at h
    cases h
    exact List.not_mem_nil

end Machines

namespace HmInv

variable {tr : HmTrace} {s : HmSys} {chain : Nat → List Nat} {g : Nat} {noConflict : Bool}

/-- **A turn of a client**, which writes nothing. -/
theorem moved (h : HmInv d tr s chain) (hf : HmFits d) (hg : g < d.globalSessionNum)
    {shared : Nat → BenchClient} {x : HmSession}
    (hpoint : HmPoint d s.store chain (fun p => fresh g p tr = true)
      (memberOf d (d.hmOwnedKey g) tr) x) (hkeys : HmKeys d (d.hmOwnedKey g) x)
    (hphases : HmPhases d ⟨s.store, shared, Function.update s.session g x⟩)
    (hcntr : ∀ c, 0 < d.hmListsNum → (shared c).queueIdCntr < d.hmListsNum) :
    HmInv d (tr ++ [(.client g, .moved)])
      ⟨s.store, shared, Function.update s.session g x⟩ chain := by
  have hgood : (fun p => fresh g p (tr ++ [(.client g, .moved)]) = true)
      = fun p => fresh g p tr = true := by
    funext p
    rw [fresh_same (fun _ hc => by cases hc) fun _ hc => by cases hc]
  refine h.update hf hg (fun _ _ heq => by cases heq)
    (fun _ _ _ => frame_same rfl (fun _ _ hb => hb) rfl _) (fun _ _ _ _ => rfl) h.lists ?_ hkeys
    (fun k l hk hin => ?_) hphases hcntr rfl (h.bound_later _ _)
  · rw [hgood]
    exact hpoint
  · rw [memberOf_concat] at hin
    exact h.members k l hk hin

/-- A client changes its counter only. -/
theorem cntr_update (h : HmInv d tr s chain) {c : Nat} {client : BenchClient}
    (hclient : 0 < d.hmListsNum → client.queueIdCntr < d.hmListsNum) (c' : Nat)
    (hpos : 0 < d.hmListsNum) :
    (Function.update s.shared c client c').queueIdCntr < d.hmListsNum := by
  by_cases hne : c' = c
  · rw [hne, Function.update_self]
    exact hclient hpos
  · rw [Function.update_of_ne hne]
    exact h.cntr_lt c' hpos

/-- **A pass in the loop.** -/
theorem pass (h : HmInv d tr s chain) (hf : HmFits d) (hg : g < d.globalSessionNum)
    (hle : (s.session g).queue.length ≤ (s.session g).issued)
    (hfew : (s.session g).issued < 2 ^ 32)
    (hrunning : (s.shared (d.clientOf g)).phase = .running) {cntr : Nat} {info : HmSessInfo}
    {requests : List HmReq}
    (hpass : d.hmLoopPass noConflict (s.shared (d.clientOf g)).queueIdCntr (s.session g)
      = .ok (cntr, info, requests)) :
    HmInv d (tr ++ [(.client g, .moved)])
      ⟨s.store, Function.update s.shared (d.clientOf g)
        { s.shared (d.clientOf g) with queueIdCntr := cntr },
        Function.update s.session g
          ⟨info, (s.session g).queue ++ requests,
            (s.session g).issued + requests.length⟩⟩ chain := by
  have hkeys := h.keys g hg
  have hpos : 0 < d.hmListsNum := Nat.lt_of_le_of_lt (Nat.zero_le _) hkeys.list_lt
  obtain ⟨hcntr, hkeys'⟩ := hkeys.pass (h.cntr_lt _ hpos) hpass ((s.session g).queue ++ requests)
  have hask : (s.session g).queue ≠ [.readFlag] := by
    intro hc
    have hreading := (h.phases.asking g hg hc).1
    rw [hrunning] at hreading
    cases hreading
  have hmore : (s.session g).queue ++ requests ≠ [.readFlag] := by
    intro hc
    rcases List.append_eq_singleton_iff.mp hc with ⟨-, hreq⟩ | ⟨hreq, -⟩
    · refine loopPass_ask hpass ?_
      rw [hreq]
      exact List.mem_singleton.mpr rfl
    · exact hask hreq
  refine h.moved hf hg ((h.point g hg).pass hf (hf.owned_isHmNode hg) hkeys hle hfew hask
    (fun hin => (h.owned_mem hf hg hin).1) hpass) hkeys'
    (h.phases.running (fun c => ?_) hrunning hmore) (h.cntr_update fun _ => hcntr)
  by_cases hne : c = d.clientOf g
  · rw [hne, Function.update_self]
  · rw [Function.update_of_ne hne]

/-- **A pass of a client that waits.** -/
theorem waitPass (h : HmInv d tr s chain) (hf : HmFits d) (hg : g < d.globalSessionNum)
    (hwaits : (s.shared (d.clientOf g)).phase ≠ .running) {client : BenchClient}
    {info : HmSessInfo} {requests : List HmReq}
    (hpass : d.hmWaitForInit g (s.shared (d.clientOf g)) (s.session g)
      = .ok (client, info, requests)) :
    HmInv d (tr ++ [(.client g, .moved)])
      ⟨s.store, Function.update s.shared (d.clientOf g) client, Function.update s.session g
        ⟨info, (s.session g).queue ++ requests, (s.session g).issued + requests.length⟩⟩ chain := by
  obtain ⟨hat, -⟩ := h.phases.idle g hg hwaits
  have hkeys := h.keys g hg
  have hout : OutOfLists d chain (s.session g).info.ownedKeyPtr := by
    cases h.point g hg with
    | insInit _ _ hout => exact hout
    | insWriting hat' => exact absurd (hat.state.symm.trans hat'.state) (by decide)
    | searchStart hstate => exact absurd (hat.state.symm.trans hstate) (by decide)
    | searchHelp hstate => exact absurd (hat.state.symm.trans hstate) (by decide)
    | searchCurr hstate =>
      rcases hstate with hstate | hstate
      · exact absurd (hat.state.symm.trans hstate) (by decide)
      · exact absurd (hat.state.symm.trans hstate) (by decide)
    | searchNext hstate => exact absurd (hat.state.symm.trans hstate) (by decide)
    | searchNode hstate => exact absurd (hat.state.symm.trans hstate) (by decide)
    | searchAgain hstate => exact absurd (hat.state.symm.trans hstate) (by decide)
    | searched hstate => exact absurd (hat.state.symm.trans hstate) (by decide)
    | delInit hat' => exact absurd (hat.insOrDel.symm.trans hat'.insOrDel) (by decide)
    | _ hat' => exact absurd (hat.state.symm.trans hat'.state) (by decide)
  have hasks := h.phases.asks hg hwaits hpass
  have hphases : HmPhases d ⟨s.store, Function.update s.shared (d.clientOf g) client,
      Function.update s.session g
        ⟨info, (s.session g).queue ++ requests, (s.session g).issued + requests.length⟩⟩ :=
    h.phases.waitPass hg hwaits hpass
  obtain ⟨-, rfl, hclient⟩ := waitForInit_cases hpass
  -- a session that waits stays where it began
  refine h.moved hf hg (.insInit hat ?_ hout) ⟨hkeys.toKeyed, fun hc => absurd hat.state hc⟩ hphases
    (h.cntr_update fun hpos => ?_)
  · rcases hasks with ⟨hreq, -⟩ | hreq
    · exact Or.inr hreq
    · exact Or.inl hreq
  · rcases hclient with ⟨-, rfl, -⟩ | ⟨-, -, -, rfl⟩
    · exact h.cntr_lt _ hpos
    · exact h.cntr_lt _ hpos

/-- **A turn keeps the invariant**, if it does not find a pointer to be the one that was read though
    it was overwritten. -/
theorem step (h : HmInv d tr s chain) (hf : HmFits d) {k : Turn} {s' : HmSys} {e : HmEvent}
    (hle : ∀ g, (s.session g).queue.length ≤ (s.session g).issued)
    (hissued : ∀ g, g < d.globalSessionNum → (s.session g).issued < 2 ^ 32)
    (hserved : Service.served tr + 2 < 2 ^ 64)
    (hfresh : ∀ g spurious key, k = .store g spurious → e.compared = some key →
      fresh g key tr = true)
    (hstep : (d.hmService noConflict).step s k = .ok (s', e)) :
    ∃ chain', HmInv d (tr ++ [(k, e)]) s' chain' := by
  rcases Service.step_cases hstep with ⟨g, c, info, requests, rfl, hpass, rfl⟩ |
    ⟨g, spurious, r, queue, store, info, rfl, hqueue, hserve, rfl⟩
  · change (if g < d.globalSessionNum then _ else _) = _ at hpass
    split at hpass
    · rename_i hg
      obtain ⟨⟨c', info', requests'⟩, hhm, hpass⟩ := bind_eq_ok.mp hpass
      cases hpass
      unfold Deployment.hmPass at hhm
      split at hhm
      · rename_i hrunning
        obtain ⟨⟨cntr, info', requests'⟩, hloop, hhm⟩ := bind_eq_ok.mp hhm
        cases hhm
        exact ⟨chain, h.pass hf hg (hle g) (hissued g hg) hrunning hloop⟩
      · rename_i hwaits
        exact ⟨chain, h.waitPass hf hg hwaits hhm⟩
    · cases hpass
  · exact h.serve hf hserved hqueue hserve fun key hkey => hfresh g spurious key rfl hkey

end HmInv

end Odyssey
