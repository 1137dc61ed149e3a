/-
  WHAT A REQUEST OF `val_len` BYTES TOUCHES.

  A client may write and read fewer than `VALUE_SIZE` bytes.  `fill_client_op` copies `val_len`
  bytes into the buffer of the slot, the op that `od_fill_trace_op` makes for the worker has a
  pointer to that buffer (and the length, in `real_val_len`), and `KVS_write` copies `VALUE_SIZE`
  bytes from there into the entry.  `KVS_local_read` copies `VALUE_SIZE` bytes to the buffer of the
  client.

  So the bytes from `val_len` on are those that earlier requests have left in the slot (`leftover`):
  each position has the byte of the last payload that reached it.  A run of the session keeps
  exactly these bytes (`slot_leftover`), whatever else it does, and from there on both directions of
  the result are about single bytes.

  The system is the session of `ClientRing` with the ops that its worker has picked up, the entries
  of the store, and the memory of the client.  What the other sessions do to the entries and the
  client to its memory is arbitrary.
-/
import Odyssey.ClientRingRuns

namespace Odyssey

open Lib

/-! ## The store -/

/-- `KVS_write`, on the value of an entry. -/
def kvsWrite (valueSize : Nat) (value valueToWrite : Nat → UInt8) : Nat → UInt8 :=
  writeAt value 0 (readAt valueToWrite 0 valueSize)

/-- `KVS_local_read`: the copy that it accepts, in the memory of the client. -/
def kvsLocalRead (valueSize : Nat) (value mem : Nat → UInt8) (valueToRead : Nat) : Nat → UInt8 :=
  writeAt mem valueToRead (readAt value 0 valueSize)

/-- A session, its worker, and what both can reach. -/
structure StoreState where
  client : ClientState
  /-- the ops that the worker has picked up and not completed -/
  picked : List CtxTraceOp
  /-- the values of the entries -/
  value : MicaKey → Nat → UInt8
  /-- the memory of the client -/
  mem : Nat → UInt8

inductive StoreCmd
  | access (kind : AccessKind) (a : AccessArgs)
  | advance
  | poll
  | fill (workingSession : Nat)
  /-- the worker serves the op in place `n`, with the pointers of the op -/
  | kvsWrite (n : Nat)
  | kvsLocalRead (n : Nat)
  | complete (n : Nat)
  /-- the other sessions, and the rest of the client -/
  | around (value : MicaKey → Nat → UInt8) (mem : Nat → UInt8)

/-- One step of the client or of the worker. -/
def storeStep (conf : ClientConf) (s : StoreState) :
    StoreCmd → Outcome (StoreState × List RingEvent)
  | .access kind a => do
    let (client, evs) ← clientStep conf s.client (.access kind a)
    return ({ s with client := client }, evs)
  | .advance => do
    let (client, evs) ← clientStep conf s.client .advance
    return ({ s with client := client }, evs)
  | .poll => do
    let (client, evs) ← clientStep conf s.client .poll
    return ({ s with client := client }, evs)
  | .fill workingSession =>
    if s.client.session.isClientReqActive s.client.session.wrkrPullPtr then do
      let (session, op, evs) ← s.client.session.odFillTraceOp conf workingSession
      return ({ s with
        client := { s.client with session := session }
        picked := s.picked ++ [op] }, evs)
    else .error .disabled
  | .kvsWrite n =>
    match s.picked[n]? with
    | none => .error .disabled
    | some op =>
      if op.opcode = kvsOpPut ∨ op.opcode = opRelease then
        .ok ({ s with value := Function.update s.value op.key (kvsWrite conf.valueSize
          (s.value op.key) (s.client.session.reqArray op.valueToWrite).valueToWrite) }, [])
      else .error .disabled
  | .kvsLocalRead n =>
    match s.picked[n]? with
    | none => .error .disabled
    | some op =>
      match op.valueToRead with
      | none => .error .undefined
      | some valueToRead =>
        if op.opcode = kvsOpGet ∨ op.opcode = opAcquire then
          .ok ({ s with
            mem := kvsLocalRead conf.valueSize (s.value op.key) s.mem valueToRead }, [])
        else .error .disabled
  | .complete n =>
    match s.picked[n]? with
    | none => .error .disabled
    | some op => do
      let (client, evs) ← clientStep conf s.client (.complete op.indexToReqArray)
      return ({ s with client := client, picked := s.picked.eraseIdx n }, evs)
  | .around value mem => .ok ({ s with value := value, mem := mem }, [])

/-- A new session, with anything in its slots. -/
def StoreState.start (ops : Nat → ClientOp) (value : MicaKey → Nat → UInt8) (mem : Nat → UInt8) :
    StoreState where
  client := .start ops
  picked := []
  value := value
  mem := mem

abbrev StoreTrace := List (StoreCmd × List RingEvent)

def storeEvents (tr : StoreTrace) : List RingEvent := tr.flatMap Prod.snd

/-! ## What is left in a slot -/

/-- The request brings bytes to write. -/
def ClientOp.hasPayload (op : ClientOp) : Bool :=
  op.opcode != kvsOpGet && op.opcode != opAcquire

/-- Byte `j` of slot `i` after an event, if it was `old` before. -/
def RingEvent.byteAt (i j : Nat) (old : UInt8) : RingEvent → UInt8
  | .issued i' op =>
    if i' = i ∧ op.hasPayload = true ∧ j < op.valLen then op.valueToWrite j else old
  | _ => old

/-- Byte `j` of slot `i` after some events: that of the last payload that reached it. -/
def leftover (i j : Nat) (old : UInt8) (evs : List RingEvent) : UInt8 :=
  evs.foldl (fun b e => e.byteAt i j b) old

theorem byteAt_issued (i j : Nat) (old : UInt8) {op : ClientOp} (h : op.hasPayload = true) :
    (RingEvent.issued i op).byteAt i j old = if j < op.valLen then op.valueToWrite j else old := by
  by_cases hj : j < op.valLen
  · exact (if_pos ⟨rfl, h, hj⟩).trans (if_pos hj).symm
  · exact (if_neg fun hc => hj hc.2.2).trans (if_neg hj).symm

theorem leftover_append (i j : Nat) (old : UInt8) (evs evs' : List RingEvent) :
    leftover i j old (evs ++ evs') = leftover i j (leftover i j old evs) evs' :=
  List.foldl_append ..

theorem leftover_cons (i j : Nat) (old : UInt8) (e : RingEvent) (evs : List RingEvent) :
    leftover i j old (e :: evs) = leftover i j (e.byteAt i j old) evs := rfl

/-- Requests in other slots leave nothing here. -/
theorem leftover_of_not_issued {i j : Nat} {old : UInt8} {evs : List RingEvent}
    (h : ∀ e ∈ evs, e.issuedAt i = false) : leftover i j old evs = old := by
  induction evs with
  | nil => rfl
  | cons e evs ih =>
    have hrest := ih fun e' he' => h e' (List.mem_cons_of_mem _ he')
    have hbyte : e.byteAt i j old = old := by
      have he := h e List.mem_cons_self
      cases e with
      | issued i' op =>
        refine if_neg ?_
        rintro ⟨rfl, -⟩
        simp [RingEvent.issuedAt] at he
      | _ => rfl
    rw [leftover_cons, hbyte]
    exact hrest

/-! ## The bytes of a slot in a run -/

variable {conf : ClientConf}

/-- The payload goes to the first `val_len` bytes, and nothing to the others. -/
theorem fillClientOp_bytes {clOp clOp' : ClientOp} {a : AccessArgs}
    (h : fillClientOp conf clOp a = .ok clOp') (j : Nat)
    (hj : clOp'.hasPayload = true → clOp'.valLen ≤ j) :
    clOp'.valueToWrite j = clOp.valueToWrite j := by
  have hcopy : ∀ {c c' : ClientOp}, c.copyValue a = .ok c' → a.valLen ≤ j →
      c'.valueToWrite j = c.valueToWrite j := by
    intro c c' hc hle
    unfold ClientOp.copyValue at hc
    split at hc
    · cases hc
      refine writeAt_of_ge ?_
      rw [length_readAt]
      omega
    · nomatch hc
  unfold fillClientOp at h
  cases htype : a.type <;> rw [htype] at h <;> dsimp only at h
  case rlxdRead | acquire =>
    cases h
    rfl
  case rlxdWrite | release | faa =>
    obtain ⟨c, hc, h⟩ := bind_eq_ok.mp h
    cases h
    have hop : c.hasPayload = true := by
      unfold ClientOp.copyValue at hc
      split at hc
      · cases hc
        rfl
      · nomatch hc
    have hbytes := hcopy hc (hj hop)
    exact hbytes
  case cas =>
    obtain ⟨c, hc, h⟩ := bind_eq_ok.mp h
    cases h
    have hop : c.hasPayload = true := by
      unfold ClientOp.copyValue at hc
      split at hc
      · cases hc
        cases a.rmwIsWeak <;> rfl
      · nomatch hc
    have hbytes := hcopy hc (hj hop)
    exact hbytes
  case other => nomatch h

/-- The bytes of the slots are those of the events. -/
def SlotsFollow (s s' : Session) (evs : List RingEvent) : Prop :=
  ∀ i j, (s'.reqArray i).valueToWrite j = leftover i j ((s.reqArray i).valueToWrite j) evs

theorem SlotsFollow.refl (s : Session) : SlotsFollow s s [] := fun _ _ => rfl

/-- A slot changes, but not its bytes, and no request is issued. -/
theorem SlotsFollow.setOp {s s' : Session} (k : Nat) (op : ClientOp) {e : RingEvent}
    (hs : s'.reqArray = Function.update s.reqArray k op)
    (hop : op.valueToWrite = (s.reqArray k).valueToWrite) (he : ∀ i, e.issuedAt i = false) :
    SlotsFollow s s' [e] := by
  intro i j
  rw [leftover_of_not_issued fun e' he' => by rw [List.mem_singleton.mp he']; exact he i, hs]
  by_cases hi : i = k
  · subst hi
    rw [Function.update_self, hop]
  · rw [Function.update_of_ne hi]

theorem SlotsFollow.poll {s s' : Session} {r : Nat} {evs : List RingEvent}
    (h : s.poll conf = .ok (s', r, evs)) : SlotsFollow s s' evs := by
  obtain ⟨-, ⟨-, rfl, rfl⟩ | ⟨-, rfl, rfl⟩⟩ := poll_spec h
  · exact SlotsFollow.refl _
  · exact SlotsFollow.setOp _ _ rfl rfl fun _ => rfl

/-- **Issuing** a request. -/
theorem SlotsFollow.issue {s s' : Session} {a : AccessArgs} {evs : List RingEvent}
    (h : s.issue conf a = .ok (s', evs)) : SlotsFollow s s' evs := by
  obtain ⟨clOp, hfill, h⟩ := bind_eq_ok.mp h
  cases h
  intro i j
  let op : ClientOp := { clOp with state := .active }
  show (Function.update s.reqArray s.cltPushPtr op i).valueToWrite j
    = (RingEvent.issued s.cltPushPtr op).byteAt i j _
  unfold RingEvent.byteAt
  by_cases hi : i = s.cltPushPtr
  · subst hi
    rw [Function.update_self]
    dsimp only
    split
    · rfl
    · rename_i hnot
      refine fillClientOp_bytes hfill j fun hpayload => ?_
      exact Nat.le_of_not_lt fun hlt => hnot ⟨rfl, hpayload, hlt⟩
  · rw [Function.update_of_ne hi]
    exact (if_neg fun hc => hi hc.1.symm).symm

theorem SlotsFollow.fill {s s' : Session} {workingSession : Nat} {op : CtxTraceOp}
    {evs : List RingEvent} (h : s.odFillTraceOp conf workingSession = .ok (s', op, evs)) :
    SlotsFollow s s' evs := by
  obtain ⟨op', hop, h⟩ := bind_eq_ok.mp h
  obtain ⟨-, -, hop⟩ := bind_eq_ok.mp hop
  cases hop
  obtain ⟨t, hsignal, h⟩ := bind_eq_ok.mp h
  obtain ⟨-, -, h⟩ := bind_eq_ok.mp h
  cases h
  obtain ⟨-, -, hsignal⟩ := bind_eq_ok.mp hsignal
  obtain ⟨-, -, hsignal⟩ := bind_eq_ok.mp hsignal
  cases hsignal
  by_cases hassert : conf.enableAssertions = true
  · refine SlotsFollow.setOp s.wrkrPullPtr
      { s.reqArray s.wrkrPullPtr with key := ⟨0, 0, 0⟩, state := .inProgress } ?_ rfl fun _ => rfl
    unfold Session.setState Session.setOp
    simp [hassert]
  · refine SlotsFollow.setOp s.wrkrPullPtr
      { s.reqArray s.wrkrPullPtr with state := .inProgress } ?_ rfl fun _ => rfl
    unfold Session.setState Session.setOp
    simp [hassert]

/-- An access that returns. -/
theorem SlotsFollow.returned {s s' : Session} {evs : List RingEvent} (h : SlotsFollow s s' evs)
    (blocking : Bool) (r : Int) : SlotsFollow s s' (evs ++ [.returned blocking r]) := by
  intro i j
  rw [leftover_append]
  exact h i j

theorem begin_follows {s s' : ClientState} {kind : AccessKind} {a : AccessArgs}
    {evs : List RingEvent} (h : s.begin conf kind a = .ok (s', evs)) :
    SlotsFollow s.session s'.session evs := by
  unfold ClientState.begin at h
  dsimp only at h
  split at h
  · cases kind with
    | blocking =>
      cases h
      exact (SlotsFollow.refl _).returned _ _
    | async strong =>
      obtain ⟨-, -, h⟩ := bind_eq_ok.mp h
      cases h
      exact (SlotsFollow.refl _).returned _ _
  · cases h
    exact SlotsFollow.refl _

theorem advance_follows {s s' : ClientState} {kind : AccessKind} {a : AccessArgs} {stage : Stage}
    {evs : List RingEvent} (h : s.advance conf kind a stage = .ok (s', evs)) :
    SlotsFollow s.session s'.session evs := by
  cases stage with
  | slotTest =>
    rw [ClientState.advance] at h
    split at h
    · cases h
      exact SlotsFollow.refl _
    · cases kind with
      | blocking =>
        cases h
        exact SlotsFollow.refl _
      | async strong =>
        dsimp only at h
        obtain ⟨-, -, h⟩ := bind_eq_ok.mp h
        cases h
        exact SlotsFollow.refl _
  | firstPoll =>
    obtain ⟨⟨t, r, evs'⟩, hpoll, h⟩ := bind_eq_ok.mp h
    cases h
    exact SlotsFollow.poll hpoll
  | secondTest =>
    unfold ClientState.advance at h
    dsimp only at h
    split at h
    · cases h
      exact SlotsFollow.refl _
    · split at h
      · cases h
      · cases h
        exact SlotsFollow.refl _
      · cases h
        exact SlotsFollow.refl _
  | freeing largestPolled =>
    obtain ⟨⟨t, r, evs'⟩, hpoll, h⟩ := bind_eq_ok.mp h
    dsimp only at h
    split at h
    · cases h
      exact SlotsFollow.poll hpoll
    · cases h
      exact SlotsFollow.poll hpoll
  | freed =>
    cases kind with
    | blocking =>
      unfold ClientState.advance at h
      dsimp only at h
      split at h
      · cases h
      · cases h
        exact SlotsFollow.refl _
    | async strong =>
      unfold ClientState.advance at h
      dsimp only at h
      obtain ⟨-, -, h⟩ := bind_eq_ok.mp h
      cases h
      exact SlotsFollow.refl _
  | issuing =>
    cases kind with
    | blocking =>
      unfold ClientState.advance at h
      dsimp only at h
      obtain ⟨⟨t, evs'⟩, hissue, h⟩ := bind_eq_ok.mp h
      cases h
      exact SlotsFollow.issue hissue
    | async strong =>
      unfold ClientState.advance at h
      dsimp only at h
      obtain ⟨-, -, h⟩ := bind_eq_ok.mp h
      obtain ⟨⟨t, evs'⟩, hissue, h⟩ := bind_eq_ok.mp h
      cases h
      exact (SlotsFollow.issue hissue).returned _ _
  | awaiting =>
    obtain ⟨⟨t, r, evs'⟩, hpoll, h⟩ := bind_eq_ok.mp h
    dsimp only at h
    split at h
    · cases h
      exact SlotsFollow.poll hpoll
    · obtain ⟨-, -, h⟩ := bind_eq_ok.mp h
      cases h
      exact (SlotsFollow.poll hpoll).returned _ _

/-- **Every step of the client** follows its events. -/
theorem clientStep_follows {s s' : ClientState} {k : ClientCmd} {evs : List RingEvent}
    (h : clientStep conf s k = .ok (s', evs)) : SlotsFollow s.session s'.session evs := by
  cases k with
  | access kind a =>
    rw [clientStep] at h
    split at h
    · exact begin_follows h
    · cases h
  | advance =>
    rw [clientStep] at h
    split at h
    · cases h
    · exact advance_follows h
  | poll =>
    rw [clientStep] at h
    split at h
    · obtain ⟨⟨t, r, evs'⟩, hpoll, h⟩ := bind_eq_ok.mp h
      cases h
      exact SlotsFollow.poll hpoll
    · cases h
  | fill workingSession =>
    rw [clientStep] at h
    split at h
    · obtain ⟨⟨t, op, evs'⟩, hfill, h⟩ := bind_eq_ok.mp h
      cases h
      exact SlotsFollow.fill hfill
    · cases h
  | complete i =>
    rw [clientStep] at h
    split at h
    · obtain ⟨⟨t, evs'⟩, hcomplete, h⟩ := bind_eq_ok.mp h
      cases h
      obtain ⟨rfl, rfl⟩ := signalCompletionToClient_spec hcomplete
      exact SlotsFollow.setOp _ _ rfl rfl fun _ => rfl
    · cases h

/-- **Every step of the system** does: the store and the memory of the client are not the ring. -/
theorem storeStep_follows {s s' : StoreState} {k : StoreCmd} {evs : List RingEvent}
    (h : storeStep conf s k = .ok (s', evs)) :
    SlotsFollow s.client.session s'.client.session evs := by
  cases k with
  | access kind a =>
    obtain ⟨⟨c, evs'⟩, hc, h⟩ := bind_eq_ok.mp h
    cases h
    exact clientStep_follows hc
  | advance | poll =>
    obtain ⟨⟨c, evs'⟩, hc, h⟩ := bind_eq_ok.mp h
    cases h
    exact clientStep_follows hc
  | fill workingSession =>
    rw [storeStep] at h
    split at h
    · obtain ⟨⟨t, op, evs'⟩, hfill, h⟩ := bind_eq_ok.mp h
      cases h
      exact SlotsFollow.fill hfill
    · nomatch h
  | kvsWrite n =>
    rw [storeStep] at h
    split at h
    · nomatch h
    · split at h
      · cases h
        exact SlotsFollow.refl _
      · nomatch h
  | kvsLocalRead n =>
    rw [storeStep] at h
    split at h
    · nomatch h
    · split at h
      · nomatch h
      · split at h
        · cases h
          exact SlotsFollow.refl _
        · nomatch h
  | complete n =>
    rw [storeStep] at h
    split at h
    · nomatch h
    · obtain ⟨⟨c, evs'⟩, hc, h⟩ := bind_eq_ok.mp h
      cases h
      exact clientStep_follows hc
  | around value mem =>
    cases h
    exact SlotsFollow.refl _

/-- **The bytes of a slot** are what the requests so far have left there. -/
theorem slot_leftover {s₀ s : StoreState} {tr : StoreTrace} (h : Run (storeStep conf) s₀ tr s) :
    SlotsFollow s₀.client.session s.client.session (storeEvents tr) := by
  refine h.invariant (fun tr s => SlotsFollow s₀.client.session s.client.session (storeEvents tr))
    (SlotsFollow.refl _) ?_
  intro tr s k s' evs _ ih hstep i j
  have htr : storeEvents (tr ++ [(k, evs)]) = storeEvents tr ++ evs := by simp [storeEvents]
  rw [htr, leftover_append, ← ih i j]
  exact storeStep_follows hstep i j

/-! ## Requests that are served -/

/-- The op that the worker has of a request in slot `i`. -/
structure CtxTraceOp.Of (p : CtxTraceOp) (i : Nat) (op : ClientOp) : Prop where
  key : p.key = op.key
  opcode : p.opcode = op.opcode
  valueToRead : p.valueToRead = op.valueToRead
  realValLen : p.realValLen = op.valLen
  valueToWrite : p.valueToWrite = i
  indexToReqArray : p.indexToReqArray = i

/-- In a session whose slots were `ops`, after the events `past`, the client issues the request `op`
    in slot `i`, and some time later, the slot not used again, the worker has it in place `n`. -/
def Serves (conf : ClientConf) (ops : Nat → ClientOp) (past : List RingEvent) (i : Nat)
    (op : ClientOp) (s : StoreState) (n : Nat) : Prop :=
  ∃ value mem tr rest p, Run (storeStep conf) (.start ops value mem) tr s ∧
    storeEvents tr = past ++ .issued i op :: rest ∧ (∀ e ∈ rest, e.issuedAt i = false) ∧
    s.picked[n]? = some p ∧ p.Of i op

/-- Two writes of one key, with the same bytes. -/
structure SameRequest (op op' : ClientOp) : Prop where
  opcode : op'.opcode = op.opcode
  key : op'.key = op.key
  valLen : op'.valLen = op.valLen
  bytes : ∀ j < op.valLen, op'.valueToWrite j = op.valueToWrite j

/-- **What `KVS_write` leaves of a request**: its own bytes, and then those of the slot. -/
theorem kvsWrite_bytes {ops : Nat → ClientOp} {past : List RingEvent} {i n : Nat} {op : ClientOp}
    {s s' : StoreState} {evs : List RingEvent} (hserves : Serves conf ops past i op s n)
    (h : storeStep conf s (.kvsWrite n) = .ok (s', evs)) {j : Nat} (hj : j < conf.valueSize) :
    s'.value op.key j = if j < op.valLen then op.valueToWrite j
      else leftover i j ((ops i).valueToWrite j) past := by
  obtain ⟨value, mem, tr, rest, p, hrun, htr, hrest, hp, hof⟩ := hserves
  have hslot : (s.client.session.reqArray i).valueToWrite j =
      (RingEvent.issued i op).byteAt i j (leftover i j ((ops i).valueToWrite j) past) := by
    rw [slot_leftover hrun i j, htr, leftover_append, leftover_cons, leftover_of_not_issued hrest]
    rfl
  rw [storeStep, hp] at h
  dsimp only at h
  split at h
  · rename_i hop
    cases h
    have hpayload : op.hasPayload = true := by
      rw [hof.opcode] at hop
      unfold ClientOp.hasPayload
      rcases hop with hop | hop <;> rw [hop] <;> rfl
    show Function.update s.value p.key _ op.key j = _
    rw [hof.key, Function.update_self, hof.valueToWrite]
    unfold kvsWrite writeAt
    rw [dif_pos ⟨Nat.zero_le j, by rw [length_readAt]; omega⟩]
    unfold readAt
    rw [List.getElem_map, List.getElem_range, Nat.zero_add, Nat.sub_zero, hslot,
      byteAt_issued i j _ hpayload]
  · nomatch h

/-- **What `KVS_local_read` does to the memory of the client**: it sets `VALUE_SIZE` bytes. -/
theorem kvsLocalRead_bytes {s s' : StoreState} {n ptr : Nat} {p : CtxTraceOp}
    {evs : List RingEvent} (hp : s.picked[n]? = some p) (hptr : p.valueToRead = some ptr)
    (h : storeStep conf s (.kvsLocalRead n) = .ok (s', evs)) (j : Nat) :
    s'.mem (ptr + j) = if j < conf.valueSize then s.value p.key j else s.mem (ptr + j) := by
  rw [storeStep, hp] at h
  dsimp only at h
  rw [hptr] at h
  dsimp only at h
  split at h
  · cases h
    show kvsLocalRead conf.valueSize (s.value p.key) s.mem ptr (ptr + j) = _
    unfold kvsLocalRead
    by_cases hj : j < conf.valueSize
    · unfold writeAt
      rw [dif_pos ⟨Nat.le_add_right ptr j, by rw [length_readAt]; omega⟩, if_pos hj]
      unfold readAt
      rw [List.getElem_map, List.getElem_range, Nat.zero_add, Nat.add_sub_cancel_left]
    · rw [if_neg hj]
      exact writeAt_of_ge (by rw [length_readAt]; omega)
  · nomatch h

/-- **Bytes past `val_len`.**  Two sessions that began with the same slots serve the same write
    after different histories: they leave the same value exactly when both histories had left the
    same bytes in the slot from `val_len` on.  And a read leaves the buffer of the client alone from
    `val_len` on exactly when the entry has the same bytes there. -/
theorem bytes_past_val_len (conf : ClientConf) (ops : Nat → ClientOp) (i : Nat) :
    (∀ past past' op op' s s' t t' n n' evs evs', Serves conf ops past i op s n →
      Serves conf ops past' i op' s' n' → SameRequest op op' →
      storeStep conf s (.kvsWrite n) = .ok (t, evs) →
      storeStep conf s' (.kvsWrite n') = .ok (t', evs') →
      ((∀ j < conf.valueSize, t.value op.key j = t'.value op'.key j) ↔
        ∀ j, op.valLen ≤ j → j < conf.valueSize →
          leftover i j ((ops i).valueToWrite j) past =
            leftover i j ((ops i).valueToWrite j) past')) ∧
    ∀ past op s t n evs ptr, Serves conf ops past i op s n → op.valueToRead = some ptr →
      storeStep conf s (.kvsLocalRead n) = .ok (t, evs) →
      ((∀ j, op.valLen ≤ j → t.mem (ptr + j) = s.mem (ptr + j)) ↔
        ∀ j, op.valLen ≤ j → j < conf.valueSize → s.value op.key j = s.mem (ptr + j)) := by
  constructor
  · intro past past' op op' s s' t t' n n' evs evs' hserves hserves' hsame hwrite hwrite'
    constructor
    · intro heq j hle hj
      have hbyte := heq j hj
      rw [kvsWrite_bytes hserves hwrite hj, kvsWrite_bytes hserves' hwrite' hj, hsame.valLen,
        if_neg (by omega), if_neg (by omega)] at hbyte
      exact hbyte
    · intro heq j hj
      rw [kvsWrite_bytes hserves hwrite hj, kvsWrite_bytes hserves' hwrite' hj, hsame.valLen]
      split
      · rename_i hlt
        exact (hsame.bytes j hlt).symm
      · rename_i hle
        exact heq j (Nat.le_of_not_lt hle) hj
  · intro past op s t n evs ptr hserves hptr hread
    obtain ⟨-, -, -, -, p, -, -, -, hp, hof⟩ := hserves
    have hmem := kvsLocalRead_bytes hp (hof.valueToRead.trans hptr) hread
    rw [hof.key] at hmem
    constructor
    · intro heq j hle hj
      have hbyte := heq j hle
      rw [hmem, if_pos hj] at hbyte
      exact hbyte
    · intro heq j hle
      rw [hmem]
      split
      · rename_i hj
        exact heq j hle hj
      · rfl

/-! ## One byte after thirty-two -/

/-- A write of `len` bytes `b` to key 0. -/
def writeKeyZero (len : Nat) (b : UInt8) : AccessArgs where
  keyId := 0
  valueToRead := none
  valueToWrite := some fun _ => b
  valLen := len
  casResult := none
  rmwIsWeak := false
  sessionId := 0
  type := .rlxdWrite

/-- The client issues a request, and the worker picks it up. -/
def pickedUp (a : AccessArgs) : List StoreCmd :=
  [.access (.async false) a, .advance, .advance, .fill 0]

/-- The worker writes, and the client polls. -/
def written : List StoreCmd := [.kvsWrite 0, .complete 0, .poll]

theorem serves_of_exec {ops : Nat → ClientOp} {value : MicaKey → Nat → UInt8} {mem : Nat → UInt8}
    {ks : List StoreCmd} {tr : StoreTrace} {s : StoreState} {past rest : List RingEvent}
    {i n : Nat} {op : ClientOp} {p : CtxTraceOp}
    (h : exec (storeStep conf) (.start ops value mem) ks = .ok (tr, s))
    (htr : storeEvents tr = past ++ .issued i op :: rest)
    (hrest : ∀ e ∈ rest, e.issuedAt i = false) (hp : s.picked[n]? = some p) (hof : p.Of i op) :
    Serves conf ops past i op s n :=
  ⟨value, mem, tr, rest, p, run_of_exec h, htr, hrest, hp, hof⟩

/-- The request is a write of the byte 7 to key 0. -/
def ClientOp.IsSeven (op : ClientOp) : Prop :=
  op.opcode = kvsOpPut ∧ op.key = .ofHash 0 ∧ op.valLen = 1 ∧ op.valueToWrite 0 = 7

theorem sameRequest_of_isSeven {op op' : ClientOp} (h : op.IsSeven) (h' : op'.IsSeven) :
    SameRequest op op' := by
  obtain ⟨hopcode, hkey, hlen, hbyte⟩ := h
  obtain ⟨hopcode', hkey', hlen', hbyte'⟩ := h'
  refine ⟨hopcode'.trans hopcode.symm, hkey'.trans hkey.symm, hlen'.trans hlen.symm, ?_⟩
  intro j hj
  obtain rfl : j = 0 := by omega
  exact hbyte'.trans hbyte.symm

/-- The write in a new session. -/
theorem seven_first : ∃ op s t, Serves (sessionConf 1) (fun _ => freeOp) [] 0 op s 0 ∧
    op.IsSeven ∧ storeStep (sessionConf 1) s (.kvsWrite 0) = .ok (t, []) := by
  obtain ⟨tr, s, op, rest, p, t, hexec, htr, hrest, hp, hof, hop, ht⟩ : ∃ tr s op rest p t,
      exec (storeStep (sessionConf 1)) (.start (fun _ => freeOp) (fun _ _ => 0) fun _ => 0)
        (pickedUp (writeKeyZero 1 7)) = .ok (tr, s) ∧
      storeEvents tr = [] ++ .issued 0 op :: rest ∧ (∀ e ∈ rest, e.issuedAt 0 = false) ∧
      s.picked[0]? = some p ∧ p.Of 0 op ∧ op.IsSeven ∧
      storeStep (sessionConf 1) s (.kvsWrite 0) = .ok (t, []) := by
    refine ⟨_, _, _, [_, _], _, _, rfl, rfl, ?_, rfl, ⟨rfl, rfl, rfl, rfl, rfl, rfl⟩,
      ⟨rfl, rfl, rfl, rfl⟩, rfl⟩
    simp [RingEvent.issuedAt]
  exact ⟨op, s, t, serves_of_exec hexec htr hrest hp hof, hop, ht⟩

/-- The write after one of thirty-two bytes 255. -/
theorem seven_after : ∃ past op s t, Serves (sessionConf 1) (fun _ => freeOp) past 0 op s 0 ∧
    op.IsSeven ∧ storeStep (sessionConf 1) s (.kvsWrite 0) = .ok (t, []) ∧
    leftover 0 1 0 past = 255 := by
  obtain ⟨tr, s, past, op, rest, p, t, hexec, htr, hrest, hp, hof, hop, ht, hleft⟩ :
      ∃ tr s past op rest p t,
      exec (storeStep (sessionConf 1)) (.start (fun _ => freeOp) (fun _ _ => 0) fun _ => 0)
        (pickedUp (writeKeyZero 32 255) ++ written ++ pickedUp (writeKeyZero 1 7)) =
          .ok (tr, s) ∧
      storeEvents tr = past ++ .issued 0 op :: rest ∧ (∀ e ∈ rest, e.issuedAt 0 = false) ∧
      s.picked[0]? = some p ∧ p.Of 0 op ∧ op.IsSeven ∧
      storeStep (sessionConf 1) s (.kvsWrite 0) = .ok (t, []) ∧ leftover 0 1 0 past = 255 := by
    refine ⟨_, _, [_, _, _, _, _], _, [_, _], _, _, rfl, rfl, ?_, rfl,
      ⟨rfl, rfl, rfl, rfl, rfl, rfl⟩, ⟨rfl, rfl, rfl, rfl⟩, rfl, rfl⟩
    simp [RingEvent.issuedAt]
  exact ⟨past, op, s, t, serves_of_exec hexec htr hrest hp hof, hop, ht, hleft⟩

/-- A read of one byte into a buffer of zeros, of an entry that is all 255. -/
theorem one_byte_read : ∃ op s t, Serves (sessionConf 1) (fun _ => freeOp) [] 0 op s 0 ∧
    op.valueToRead = some 0 ∧ op.valLen = 1 ∧
    storeStep (sessionConf 1) s (.kvsLocalRead 0) = .ok (t, []) ∧
    s.value op.key 1 = 255 ∧ s.mem 1 = 0 := by
  obtain ⟨tr, s, op, rest, p, t, hexec, htr, hrest, hp, hof, hop⟩ : ∃ tr s op rest p t,
      exec (storeStep (sessionConf 1)) (.start (fun _ => freeOp) (fun _ _ => 255) fun _ => 0)
        (pickedUp readKeyZero) = .ok (tr, s) ∧
      storeEvents tr = [] ++ .issued 0 op :: rest ∧ (∀ e ∈ rest, e.issuedAt 0 = false) ∧
      s.picked[0]? = some p ∧ p.Of 0 op ∧ op.valueToRead = some 0 ∧ op.valLen = 1 ∧
      storeStep (sessionConf 1) s (.kvsLocalRead 0) = .ok (t, []) ∧
      s.value op.key 1 = 255 ∧ s.mem 1 = 0 := by
    refine ⟨_, _, _, [_, _], _, _, rfl, rfl, ?_, rfl, ⟨rfl, rfl, rfl, rfl, rfl, rfl⟩, rfl, rfl,
      rfl, rfl, rfl⟩
    simp [RingEvent.issuedAt]
  exact ⟨op, s, t, serves_of_exec hexec htr hrest hp hof, hop⟩

/-- **Both directions go past `val_len`**: the second write leaves bytes of the first, under another
    request, and the read of one byte sets thirty-two. -/
theorem past_val_len :
    (¬ ∀ past past' op op' s s' t t', Serves (sessionConf 1) (fun _ => freeOp) past 0 op s 0 →
      Serves (sessionConf 1) (fun _ => freeOp) past' 0 op' s' 0 → SameRequest op op' →
      op.valLen ≤ 32 → storeStep (sessionConf 1) s (.kvsWrite 0) = .ok (t, []) →
      storeStep (sessionConf 1) s' (.kvsWrite 0) = .ok (t', []) →
      ∀ j < 32, t.value op.key j = t'.value op'.key j) ∧
    ¬ ∀ op s t, Serves (sessionConf 1) (fun _ => freeOp) [] 0 op s 0 → op.valLen ≤ 32 →
      op.valueToRead = some 0 → storeStep (sessionConf 1) s (.kvsLocalRead 0) = .ok (t, []) →
      ∀ j, op.valLen ≤ j → t.mem j = s.mem j := by
  constructor
  · intro h
    obtain ⟨op, s, t, hserves, hop, ht⟩ := seven_first
    obtain ⟨past', op', s', t', hserves', hop', ht', hleft⟩ := seven_after
    have heq := h _ _ _ _ _ _ _ _ hserves hserves' (sameRequest_of_isSeven hop hop')
      (by rw [hop.2.2.1]; decide) ht ht' 1 (by decide)
    rw [kvsWrite_bytes hserves ht (by decide), kvsWrite_bytes hserves' ht' (by decide),
      hop.2.2.1, hop'.2.2.1, if_neg (by decide), if_neg (by decide)] at heq
    exact absurd (heq.trans hleft) (by decide)
  · intro h
    obtain ⟨op, s, t, hserves, hptr, hlen, ht, hvalue, hmem⟩ := one_byte_read
    have heq := h _ _ _ hserves (by omega) hptr ht 1 (by omega)
    obtain ⟨-, -, -, -, p, -, -, -, hp, hof⟩ := hserves
    have hbyte := kvsLocalRead_bytes hp (hof.valueToRead.trans hptr) ht 1
    rw [Nat.zero_add, heq, hmem, if_pos (by decide), hof.key, hvalue] at hbyte
    exact absurd hbyte (by decide)

/-- The two writes, and the read. -/
theorem bytes_past_val_len_seven :
    (∃ past op op' s s' t t', Serves (sessionConf 1) (fun _ => freeOp) [] 0 op s 0 ∧
      Serves (sessionConf 1) (fun _ => freeOp) past 0 op' s' 0 ∧
      storeStep (sessionConf 1) s (.kvsWrite 0) = .ok (t, []) ∧
      storeStep (sessionConf 1) s' (.kvsWrite 0) = .ok (t', []) ∧
      ¬ ∀ j < 32, t.value op.key j = t'.value op'.key j) ∧
    ∃ op s t, Serves (sessionConf 1) (fun _ => freeOp) [] 0 op s 0 ∧
      storeStep (sessionConf 1) s (.kvsLocalRead 0) = .ok (t, []) ∧
      ¬ ∀ j, op.valLen ≤ j → t.mem (0 + j) = s.mem (0 + j) := by
  obtain ⟨hwrite, hread⟩ := bytes_past_val_len (sessionConf 1) (fun _ => freeOp) 0
  constructor
  · obtain ⟨op, s, t, hserves, hop, ht⟩ := seven_first
    obtain ⟨past', op', s', t', hserves', hop', ht', hleft⟩ := seven_after
    refine ⟨past', op, op', s, s', t, t', hserves, hserves', ht, ht', fun h => ?_⟩
    have hbytes := (hwrite _ _ _ _ _ _ _ _ _ _ _ _ hserves hserves'
      (sameRequest_of_isSeven hop hop') ht ht').mp h
    have hbyte := hbytes 1 (Nat.le_of_eq hop.2.2.1) (by decide)
    exact absurd (hbyte.trans hleft) (by decide)
  · obtain ⟨op, s, t, hserves, hptr, hlen, ht, hvalue, hmem⟩ := one_byte_read
    refine ⟨op, s, t, hserves, ht, fun h => ?_⟩
    have hbytes := (hread _ _ _ _ _ _ _ hserves hptr ht).mp h
    have hbyte := hbytes 1 (by omega) (by decide)
    rw [hvalue] at hbyte
    exact absurd (hbyte.trans hmem) (by decide)

end Odyssey
