/-
  DOES THE REPLY TO A MESSAGE FIT ONE PACKET?

  The reply to a message holds a part for each request in it, of `recv_size` bytes, and has to fit
  an MTU.  `get_send_fifo_ptr` keeps the sum in `resp_size`: it adds the `recv_size` of the next
  request to the slot at the push pointer, and opens a new slot if the sum is above the MTU, or if
  the request needs a new slot for another reason.  But then the request goes into a slot whose
  `resp_size` was just reset, and its `recv_size` stays charged to the slot before.

  So the first request of a message is not counted if a split opened the message.  `Replies` runs
  the FIFO with the recv sizes of the requests in each slot beside it, and `replies_fit_iff` says
  for which kinds of requests that is harmless:

  * if requests that fit the payload of a slot together have a reply that fits an MTU, then every
    message has, whatever `resp_size` counts (`Together`);
  * if not, some of them make a message whose reply is too large: the first opens it by a split,
    and `resp_size` has room for the others (`exists_sent`);
  * a FIFO of one slot never splits, and counts every request (`Counted`).
-/
import Odyssey.SendFifo.Runs

namespace Odyssey

open Lib

/-- A send FIFO, with what its slots hold. -/
structure Replies where
  fifo : Fifo
  /-- the `recv_size`s of the requests in a slot, since it was reset -/
  recvSizes : Nat → List Nat

namespace Replies

variable (r : Replies)

/-- One call, of those a send FIFO allows.  A send shows the recv sizes of its message. -/
def step (r : Replies) (k : SendFifoCmd) : Outcome (Replies × Option (List Nat)) := do
  let (f, _) ← sendFifoStep r.fifo k
  match k with
  | .odInsertMes req recvSize breakMessage _ =>
    let l := if r.fifo.startsMessage req.length recvSize breakMessage then [recvSize]
      else r.recvSizes f.pushPtr ++ [recvSize]
    return (⟨f, Function.update r.recvSizes f.pushPtr l⟩, none)
  | .fifoSendFromPullSlot =>
    let l := r.recvSizes r.fifo.pullPtr
    -- the last message of the FIFO: the next one has a fresh slot
    if sub32 r.fifo.netCapacity r.fifo.getFifoSlotMetaPull.coalesceNum = 0 then
      return (⟨f, Function.update r.recvSizes f.pushPtr []⟩, some l)
    else return (⟨f, r.recvSizes⟩, some l)

def start (maxSize slotSize : Nat) (mesHeader : UInt16) : Replies :=
  ⟨fifoConstructor maxSize slotSize mesHeader, fun _ => []⟩

end Replies

/-- The kind of a request: its `send_size` and its `recv_size`. -/
def SendFifoCmd.kind : SendFifoCmd → Option (Nat × Nat)
  | .odInsertMes req recvSize _ _ => some (req.length, recvSize)
  | .fifoSendFromPullSlot => none

/-- What the sent messages need for their replies. -/
def sentReplies : List (SendFifoCmd × Option (List Nat)) → List (List Nat) :=
  List.filterMap Prod.snd

/-- Every reply fits an MTU, in every run with requests of these kinds. -/
def RepliesFit (maxSize slotSize : Nat) (mesHeader : UInt16) (kinds : Set (Nat × Nat)) : Prop :=
  ∀ tr r, Run Replies.step (.start maxSize slotSize mesHeader) tr r →
    (∀ p ∈ tr, ∀ k ∈ p.1.kind, k ∈ kinds) → ∀ l ∈ sentReplies tr, l.sum ≤ mtu

/-- Requests of these kinds that fit `room` bytes together have a reply that fits an MTU. -/
def FitTogether (kinds : Set (Nat × Nat)) (room : Nat) : Prop :=
  ∀ l : List (Nat × Nat), (∀ k ∈ l, k ∈ kinds) → (l.map Prod.fst).sum ≤ room →
    (l.map Prod.snd).sum ≤ mtu

/-- It is enough that no kind asks for more of the MTU than it takes of the room. -/
theorem FitTogether.of_ratio {kinds : Set (Nat × Nat)} {room : Nat} (hroom : 0 < room)
    (h : ∀ k ∈ kinds, k.2 * room ≤ mtu * k.1) : FitTogether kinds room := by
  intro l hl hfit
  have hsum : (l.map Prod.snd).sum * room ≤ mtu * (l.map Prod.fst).sum := by
    clear hfit
    induction l with
    | nil => simp
    | cons k l ih =>
      have hk := h k (hl k List.mem_cons_self)
      have hrest := ih fun k' hk' => hl k' (List.mem_cons_of_mem _ hk')
      rw [List.map_cons, List.map_cons, List.sum_cons, List.sum_cons, Nat.add_mul, Nat.mul_add]
      exact Nat.add_le_add hk hrest
  have hmul : (l.map Prod.snd).sum * room ≤ mtu * room :=
    Nat.le_trans hsum (Nat.mul_le_mul_left _ hfit)
  exact Nat.le_of_mul_le_mul_right hmul hroom

/-! ## What the calls do to the slot at the push pointer -/

/-- **An insertion** starts a slot afresh, or adds to it. -/
theorem odInsertMes_push {f f' : Fifo} {req hdr : List UInt8} {recvSize : Nat} {brk : Bool}
    (h : f.odInsertMes req recvSize brk hdr = .ok f') :
    (f.startsMessage req.length recvSize brk = true →
      f'.getFifoSlotMetaPush.byteSize = u32 (u16 f.mesHeader + req.length) ∧
      f'.getFifoSlotMetaPush.respSize = 0) ∧
    (f.startsMessage req.length recvSize brk = false → f'.pushPtr = f.pushPtr ∧
      f'.getFifoSlotMetaPush.byteSize = u32 (f.getFifoSlotMetaPush.byteSize + req.length) ∧
      f'.getFifoSlotMetaPush.respSize = u32 (f.getFifoSlotMetaPush.respSize + recvSize)) := by
  rw [Fifo.odInsertMes_eq] at h
  dsimp only at h
  split at h
  · cases h
    -- filling the slot leaves `resp_size` and the pointers alone
    have hfill : ∀ g : Fifo, (g.fillSlot req hdr).countRequest.pushPtr = g.pushPtr ∧
        (g.fillSlot req hdr).countRequest.getFifoSlotMetaPush.byteSize =
          u32 (g.getFifoSlotMetaPush.byteSize + req.length) ∧
        (g.fillSlot req hdr).countRequest.getFifoSlotMetaPush.respSize =
          g.getFifoSlotMetaPush.respSize := by
      intro g
      rw [countRequest_eq]
      have hmeta := g.fillSlot_slotMeta req hdr
      exact ⟨rfl, congrArg SlotMeta.byteSize hmeta, (congrArg SlotMeta.respSize hmeta).trans rfl⟩
    obtain ⟨hpush, hbyte, hresp⟩ := hfill (f.openSlot req.length recvSize brk)
    rw [hpush, hbyte, hresp]
    unfold Fifo.openSlot
    constructor
    · intro hnew
      rw [if_pos hnew]
      simp [Fifo.resetFifoSlot, Fifo.getFifoSlotMetaPush, Fifo.setSlotMetaPush,
        Fifo.fifoIncrPushPtr]
    · intro hold
      rw [if_neg (by rw [hold]; exact Bool.false_ne_true)]
      refine ⟨rfl, ?_, ?_⟩
      · simp [Fifo.getFifoSlotMetaPush, Fifo.setSlotMetaPush]
      · simp [Fifo.getFifoSlotMetaPush, Fifo.setSlotMetaPush]
  · cases h

/-- **A send** resets it if it drains the FIFO, and leaves it alone if not. -/
theorem fifoSendFromPullSlot_push (f : Fifo) :
    (sub32 f.netCapacity f.getFifoSlotMetaPull.coalesceNum = 0 →
      f.fifoSendFromPullSlot.getFifoSlotMetaPush.byteSize = u16 f.mesHeader ∧
      f.fifoSendFromPullSlot.getFifoSlotMetaPush.respSize = 0) ∧
    (sub32 f.netCapacity f.getFifoSlotMetaPull.coalesceNum ≠ 0 →
      f.fifoSendFromPullSlot.pushPtr = f.pushPtr ∧
      f.fifoSendFromPullSlot.getFifoSlotMetaPush = f.getFifoSlotMetaPush) := by
  unfold Fifo.fifoSendFromPullSlot
  constructor
  · intro hzero
    dsimp only
    rw [if_pos hzero]
    simp [Fifo.resetFifoSlot, Fifo.getFifoSlotMetaPush, Fifo.setSlotMetaPush,
      Fifo.fifoDecremCapacity, Fifo.fifoIncrPullPtr, Fifo.fifoIncrPushPtr]
  · intro hsome
    dsimp only
    rw [if_neg hsome]
    exact ⟨rfl, rfl⟩

/-- Messages that all fit still do when one that fits takes the place of another. -/
theorem fits_update {sizes : Nat → List Nat} {l : List Nat} (i : Nat)
    (h : ∀ sl, (sizes sl).sum ≤ mtu) (hl : l.sum ≤ mtu) :
    ∀ sl, (Function.update sizes i l sl).sum ≤ mtu := by
  intro sl
  by_cases hsl : sl = i
  · rw [hsl, Function.update_self]
    exact hl
  · rw [Function.update_of_ne hsl]
    exact h sl

/-- **The calls that return**: what an insertion and a send found, and what they left. -/
theorem Replies.step_cases {r r' : Replies} {k : SendFifoCmd} {e : Option (List Nat)}
    (h : r.step k = .ok (r', e)) :
    (∃ req recvSize brk hdr f, k = .odInsertMes req recvSize brk hdr ∧ 0 < req.length ∧
      req.length ≤ r.fifo.slotSize - r.fifo.mesHeader ∧ recvSize ≤ mtu ∧
      (r.fifo.startsMessage req.length recvSize brk = true → r.fifo.capacity < r.fifo.maxSize) ∧
      r.fifo.odInsertMes req recvSize brk hdr = .ok f ∧ e = none ∧
      r' = ⟨f, Function.update r.recvSizes f.pushPtr
        (if r.fifo.startsMessage req.length recvSize brk then [recvSize]
          else r.recvSizes f.pushPtr ++ [recvSize])⟩) ∨
    (k = .fifoSendFromPullSlot ∧ 0 < r.fifo.netCapacity ∧
      e = some (r.recvSizes r.fifo.pullPtr) ∧ r'.fifo = r.fifo.fifoSendFromPullSlot ∧
      (sub32 r.fifo.netCapacity r.fifo.getFifoSlotMetaPull.coalesceNum = 0 →
        r'.recvSizes = Function.update r.recvSizes r'.fifo.pushPtr []) ∧
      (sub32 r.fifo.netCapacity r.fifo.getFifoSlotMetaPull.coalesceNum ≠ 0 →
        r'.recvSizes = r.recvSizes)) := by
  obtain ⟨⟨f, sent⟩, hcall, h⟩ := bind_eq_ok.mp h
  cases k with
  | odInsertMes req recvSize brk hdr =>
    unfold sendFifoStep at hcall
    dsimp only at hcall
    split at hcall
    · rename_i hguard
      obtain ⟨hpos, hle, hrecv, hfree⟩ := hguard
      obtain ⟨f₁, hinsert, hcall⟩ := bind_eq_ok.mp hcall
      cases hcall
      cases h
      exact Or.inl ⟨req, recvSize, brk, hdr, f, rfl, hpos, hle, hrecv, hfree, hinsert, rfl, rfl⟩
    · cases hcall
  | fifoSendFromPullSlot =>
    unfold sendFifoStep at hcall
    dsimp only at hcall
    split at hcall
    · rename_i hguard
      cases hcall
      dsimp only at h
      split at h
      · rename_i hzero
        cases h
        exact Or.inr ⟨rfl, hguard, rfl, rfl, fun _ => rfl, fun hne => absurd hzero hne⟩
      · rename_i hsome
        cases h
        exact Or.inr ⟨rfl, hguard, rfl, rfl, fun hz => absurd hz hsome, fun _ => rfl⟩
    · cases hcall

/-! ## Kinds that fit together -/

/-- Every message fits, and the one under construction is of these kinds and fits its slot. -/
structure Together (kinds : Set (Nat × Nat)) (slotSize mesHeader : Nat) (r : Replies) : Prop where
  slotSize_eq : r.fifo.slotSize = slotSize
  mesHeader_eq : r.fifo.mesHeader = mesHeader
  building : ∃ l : List (Nat × Nat), (∀ k ∈ l, k ∈ kinds) ∧
    r.recvSizes r.fifo.pushPtr = l.map Prod.snd ∧
    r.fifo.getFifoSlotMetaPush.byteSize = mesHeader + (l.map Prod.fst).sum ∧
    (l.map Prod.fst).sum ≤ slotSize - mesHeader
  fits : ∀ sl, (r.recvSizes sl).sum ≤ mtu

section Enough

variable {kinds : Set (Nat × Nat)} {slotSize mesHeader : Nat}

/-- **An insertion** keeps it: what joins a message fits the slot together with the others. -/
theorem Together.insert {r : Replies} {req hdr : List UInt8} {recvSize : Nat} {brk : Bool}
    {f : Fifo} (hslot : slotSize < 2 ^ 31) (hhdr : mesHeader < 2 ^ 16)
    (htogether : FitTogether kinds (slotSize - mesHeader)) (h : Together kinds slotSize mesHeader r)
    (hle : req.length ≤ r.fifo.slotSize - r.fifo.mesHeader) (hrecv : recvSize ≤ mtu)
    (hmem : (req.length, recvSize) ∈ kinds)
    (hinsert : r.fifo.odInsertMes req recvSize brk hdr = .ok f) :
    Together kinds slotSize mesHeader ⟨f, Function.update r.recvSizes f.pushPtr
      (if r.fifo.startsMessage req.length recvSize brk then [recvSize]
        else r.recvSizes f.pushPtr ++ [recvSize])⟩ := by
  obtain ⟨hsize, hmes, ⟨l, hl, hrecvs, hbyte, hroom⟩, hfits⟩ := h
  obtain ⟨hnew, hold⟩ := odInsertMes_push hinsert
  obtain ⟨hfsize, hfmes⟩ := Fifo.odInsertMes_dims hinsert
  rw [hsize, hmes] at hle
  rw [hmes] at hnew
  by_cases hstarts : r.fifo.startsMessage req.length recvSize brk = true
  · -- a new slot: the request is alone in it
    obtain ⟨hpush, -⟩ := hnew hstarts
    have hhdr16 : u16 mesHeader = mesHeader := u16_of_lt hhdr
    rw [hhdr16, u32_of_lt (by omega)] at hpush
    refine ⟨hfsize.trans hsize, hfmes.trans hmes,
      ⟨[(req.length, recvSize)], ?_, ?_, ?_, ?_⟩, ?_⟩
    · intro x hx
      rw [List.mem_singleton.mp hx]
      exact hmem
    · dsimp only
      rw [Function.update_self, if_pos hstarts]
      rfl
    · exact hpush
    · exact hle
    · rw [if_pos hstarts]
      exact fits_update _ hfits hrecv
  · -- the request joins the message, in the bytes that are left
    rw [Bool.not_eq_true] at hstarts
    obtain ⟨hpush, hbyte', -⟩ := hold hstarts
    have hin : u32 (r.fifo.getFifoSlotMetaPush.byteSize + req.length) ≤ slotSize := by
      unfold Fifo.startsMessage Fifo.newMessage at hstarts
      rw [Bool.or_eq_false_iff, Bool.or_eq_false_iff, decide_eq_false_iff_not,
        decide_eq_false_iff_not, hsize] at hstarts
      exact Nat.le_of_not_lt hstarts.1.2
    rw [hbyte, u32_of_lt (by omega)] at hin hbyte'
    have hjoined : ((l ++ [(req.length, recvSize)]).map Prod.fst).sum
        = (l.map Prod.fst).sum + req.length := by
      rw [List.map_append, List.sum_append]
      rfl
    have hkinds : ∀ x ∈ l ++ [(req.length, recvSize)], x ∈ kinds := by
      intro x hx
      rcases List.mem_append.mp hx with hx | hx
      · exact hl x hx
      · rw [List.mem_singleton.mp hx]
        exact hmem
    have hsnd : r.recvSizes f.pushPtr ++ [recvSize]
        = (l ++ [(req.length, recvSize)]).map Prod.snd := by
      rw [hpush, hrecvs, List.map_append]
      rfl
    have hroom' : ((l ++ [(req.length, recvSize)]).map Prod.fst).sum ≤ slotSize - mesHeader := by
      omega
    refine ⟨hfsize.trans hsize, hfmes.trans hmes,
      ⟨l ++ [(req.length, recvSize)], hkinds, ?_, ?_, hroom'⟩, ?_⟩
    · dsimp only
      rw [Function.update_self, hstarts]
      exact hsnd
    · rw [hjoined, ← Nat.add_assoc]
      exact hbyte'
    · rw [hstarts]
      refine fits_update _ hfits ?_
      show (r.recvSizes f.pushPtr ++ [recvSize]).sum ≤ mtu
      rw [hsnd]
      exact htogether _ hkinds hroom'

/-- **A send** keeps it. -/
theorem Together.send {r r' : Replies} (hhdr : mesHeader < 2 ^ 16)
    (h : Together kinds slotSize mesHeader r) (hfifo : r'.fifo = r.fifo.fifoSendFromPullSlot)
    (hdrained : sub32 r.fifo.netCapacity r.fifo.getFifoSlotMetaPull.coalesceNum = 0 →
      r'.recvSizes = Function.update r.recvSizes r'.fifo.pushPtr [])
    (hkept : sub32 r.fifo.netCapacity r.fifo.getFifoSlotMetaPull.coalesceNum ≠ 0 →
      r'.recvSizes = r.recvSizes) : Together kinds slotSize mesHeader r' := by
  obtain ⟨hsize, hmes, ⟨l, hl, hrecvs, hbyte, hroom⟩, hfits⟩ := h
  obtain ⟨hdrain, hkeep⟩ := fifoSendFromPullSlot_push r.fifo
  obtain ⟨hfsize, hfmes⟩ := Fifo.fifoSendFromPullSlot_dims r.fifo
  rw [← hfifo] at hdrain hkeep hfsize hfmes
  by_cases hzero : sub32 r.fifo.netCapacity r.fifo.getFifoSlotMetaPull.coalesceNum = 0
  · refine ⟨hfsize.trans hsize, hfmes.trans hmes, ⟨[], (fun _ hx => by cases hx), ?_, ?_,
      Nat.zero_le _⟩, ?_⟩
    · rw [hdrained hzero, Function.update_self]
      rfl
    · rw [(hdrain hzero).1, hmes]
      exact u16_of_lt hhdr
    · rw [hdrained hzero]
      exact fits_update _ hfits (Nat.zero_le _)
  · obtain ⟨hpush, hmeta⟩ := hkeep hzero
    refine ⟨hfsize.trans hsize, hfmes.trans hmes, ⟨l, hl, ?_, ?_, hroom⟩, ?_⟩
    · rw [hkept hzero, hpush]
      exact hrecvs
    · rw [hmeta]
      exact hbyte
    · rw [hkept hzero]
      exact hfits

/-- **One call** keeps it, and sends a message that fits. -/
theorem Together.step {r r' : Replies} {k : SendFifoCmd} {e : Option (List Nat)}
    (hslot : slotSize < 2 ^ 31) (hhdr : mesHeader < 2 ^ 16)
    (htogether : FitTogether kinds (slotSize - mesHeader)) (h : Together kinds slotSize mesHeader r)
    (hs : r.step k = .ok (r', e)) (hkind : ∀ x ∈ k.kind, x ∈ kinds) :
    Together kinds slotSize mesHeader r' ∧ ∀ l ∈ e, l.sum ≤ mtu := by
  rcases Replies.step_cases hs with
    ⟨req, recvSize, brk, hdr, f, rfl, -, hle, hrecv, -, hinsert, rfl, rfl⟩ |
    ⟨rfl, -, rfl, hfifo, hdrained, hkept⟩
  · exact ⟨h.insert hslot hhdr htogether hle hrecv (hkind _ rfl) hinsert,
      (fun _ hx => by cases hx)⟩
  · refine ⟨h.send hhdr hfifo hdrained hkept, ?_⟩
    rintro l ⟨⟩
    exact h.fits _

end Enough

/-- What every sent message needs, if every call that returns sends one that fits. -/
theorem repliesFit_of_step {maxSize slotSize : Nat} {mesHeader : UInt16} {kinds : Set (Nat × Nat)}
    (Inv : Replies → Prop) (hstart : Inv (.start maxSize slotSize mesHeader))
    (hstep : ∀ r k r' e, Inv r → r.step k = .ok (r', e) → (∀ x ∈ k.kind, x ∈ kinds) →
      Inv r' ∧ ∀ l ∈ e, l.sum ≤ mtu) : RepliesFit maxSize slotSize mesHeader kinds := by
  intro tr r hrun hkinds
  obtain ⟨-, hall⟩ : Inv r ∧ ∀ l ∈ sentReplies tr, l.sum ≤ mtu := by
    refine hrun.invariant (fun tr r => (∀ p ∈ tr, ∀ k ∈ p.1.kind, k ∈ kinds) →
      Inv r ∧ ∀ l ∈ sentReplies tr, l.sum ≤ mtu) (fun _ => ⟨hstart, (fun _ hl => by cases hl)⟩) ?_
      hkinds
    intro tr r k r' e _ ih hs hkinds
    obtain ⟨hinv, hpast⟩ := ih fun p hp => hkinds p (List.mem_append_left _ hp)
    obtain ⟨hinv', hsent⟩ := hstep r k r' e hinv hs
      (hkinds (k, e) (List.mem_append_right _ (List.mem_singleton_self _)))
    refine ⟨hinv', fun l hl => ?_⟩
    unfold sentReplies at hl
    rw [List.filterMap_append, List.mem_append] at hl
    rcases hl with hl | hl
    · exact hpast l hl
    · obtain ⟨p, hp, hpl⟩ := List.mem_filterMap.mp hl
      rw [List.mem_singleton.mp hp] at hpl
      exact hsent l hpl
  exact hall

/-! ## A FIFO of one slot -/

theorem Fifo.odInsertMes_maxSize {f f' : Fifo} {req hdr : List UInt8} {recvSize : Nat} {brk : Bool}
    (h : f.odInsertMes req recvSize brk hdr = .ok f') : f'.maxSize = f.maxSize := by
  rw [Fifo.odInsertMes_eq] at h
  dsimp only at h
  split at h
  · cases h
    rw [countRequest_eq]
    show (f.openSlot _ _ _).maxSize = f.maxSize
    unfold Fifo.openSlot
    split <;> rfl
  · cases h

theorem Fifo.fifoSendFromPullSlot_maxSize (f : Fifo) :
    f.fifoSendFromPullSlot.maxSize = f.maxSize := by
  unfold Fifo.fifoSendFromPullSlot
  dsimp only
  split <;> rfl

theorem Fifo.fifoSendFromPullSlot_netCapacity (f : Fifo) :
    f.fifoSendFromPullSlot.netCapacity =
      sub32 f.netCapacity f.getFifoSlotMetaPull.coalesceNum := by
  unfold Fifo.fifoSendFromPullSlot
  dsimp only
  split <;> rfl

/-- The FIFO has one slot, and counts every request in it. -/
structure Counted (r : Replies) : Prop where
  maxSize : r.fifo.maxSize = 1
  queue : ∃ c, Represents r.fifo c
  sum_eq : (r.recvSizes r.fifo.pushPtr).sum = r.fifo.getFifoSlotMetaPush.respSize
  fits : ∀ sl, (r.recvSizes sl).sum ≤ mtu

/-- **An insertion** keeps it: a split needs a free slot beside the one that is in use. -/
theorem Counted.insert {r : Replies} {req hdr : List UInt8} {recvSize : Nat} {brk : Bool} {f : Fifo}
    (h : Counted r) (hpos : 0 < req.length) (hle : req.length ≤ r.fifo.slotSize - r.fifo.mesHeader)
    (hrecv : recvSize ≤ mtu)
    (hfree : r.fifo.startsMessage req.length recvSize brk = true → r.fifo.capacity < r.fifo.maxSize)
    (hinsert : r.fifo.odInsertMes req recvSize brk hdr = .ok f) :
    Counted ⟨f, Function.update r.recvSizes f.pushPtr
      (if r.fifo.startsMessage req.length recvSize brk then [recvSize]
        else r.recvSizes f.pushPtr ++ [recvSize])⟩ := by
  obtain ⟨hmax, ⟨c, rep⟩, hsum, hfits⟩ := h
  obtain ⟨-, hold⟩ := odInsertMes_push hinsert
  have hstarts : r.fifo.startsMessage req.length recvSize brk = false := by
    rw [← Bool.not_eq_true]
    intro hstarts
    have hb := rep.startsMessage_ne hle hrecv hstarts
    have hcap := rep.capacity
    have hroom := hfree hstarts
    rw [Coalesced.messages, if_neg hb, Coalesced.slots, List.length_append,
      List.length_singleton] at hcap
    omega
  obtain ⟨hpush, -, hresp⟩ := hold hstarts
  obtain ⟨f', hinsert', rep'⟩ := rep.insert hdr (List.length_pos_iff.mp hpos) hle hrecv hfree
  rw [hinsert] at hinsert'
  cases hinsert'
  have hcounted : u32 (r.fifo.getFifoSlotMetaPush.respSize + recvSize) ≤ mtu := by
    unfold Fifo.startsMessage Fifo.newMessage at hstarts
    rw [Bool.or_eq_false_iff, Bool.or_eq_false_iff, decide_eq_false_iff_not] at hstarts
    exact Nat.le_of_not_lt hstarts.1.1
  have hmtu : mtu = 4096 := rfl
  have hpast := hfits r.fifo.pushPtr
  rw [u32_of_lt (by omega)] at hresp hcounted
  have hnew : (r.recvSizes f.pushPtr ++ [recvSize]).sum =
      r.fifo.getFifoSlotMetaPush.respSize + recvSize := by
    rw [hpush, List.sum_append, hsum, List.sum_singleton]
  rw [hstarts]
  refine ⟨(Fifo.odInsertMes_maxSize hinsert).trans hmax, ⟨_, rep'⟩, ?_, ?_⟩
  · dsimp only
    rw [Function.update_self, hresp]
    exact hnew
  · refine fits_update _ hfits ?_
    show (r.recvSizes f.pushPtr ++ [recvSize]).sum ≤ mtu
    rw [hnew]
    exact hcounted

/-- **A send** keeps it. -/
theorem Counted.send {r r' : Replies} (h : Counted r) (hnet : 0 < r.fifo.netCapacity)
    (hfifo : r'.fifo = r.fifo.fifoSendFromPullSlot)
    (hdrained : sub32 r.fifo.netCapacity r.fifo.getFifoSlotMetaPull.coalesceNum = 0 →
      r'.recvSizes = Function.update r.recvSizes r'.fifo.pushPtr [])
    (hkept : sub32 r.fifo.netCapacity r.fifo.getFifoSlotMetaPull.coalesceNum ≠ 0 →
      r'.recvSizes = r.recvSizes) : Counted r' := by
  obtain ⟨hmax, ⟨c, rep⟩, hsum, hfits⟩ := h
  obtain ⟨hdrain, hkeep⟩ := fifoSendFromPullSlot_push r.fifo
  have hmax' := Fifo.fifoSendFromPullSlot_maxSize r.fifo
  have rep' := rep.send hnet
  rw [← hfifo] at hdrain hkeep hmax' rep'
  by_cases hzero : sub32 r.fifo.netCapacity r.fifo.getFifoSlotMetaPull.coalesceNum = 0
  · refine ⟨hmax'.trans hmax, ⟨_, rep'⟩, ?_, ?_⟩
    · rw [hdrained hzero, Function.update_self, (hdrain hzero).2]
      rfl
    · rw [hdrained hzero]
      exact fits_update _ hfits (Nat.zero_le _)
  · obtain ⟨hpush, hmeta⟩ := hkeep hzero
    refine ⟨hmax'.trans hmax, ⟨_, rep'⟩, ?_, ?_⟩
    · rw [hkept hzero, hpush, hmeta]
      exact hsum
    · rw [hkept hzero]
      exact hfits

/-- **One call** keeps it, and sends a message that fits. -/
theorem Counted.step {r r' : Replies} {k : SendFifoCmd} {e : Option (List Nat)} (h : Counted r)
    (hs : r.step k = .ok (r', e)) : Counted r' ∧ ∀ l ∈ e, l.sum ≤ mtu := by
  rcases Replies.step_cases hs with
    ⟨req, recvSize, brk, hdr, f, rfl, hpos, hle, hrecv, hfree, hinsert, rfl, rfl⟩ |
    ⟨rfl, hnet, rfl, hfifo, hdrained, hkept⟩
  · exact ⟨h.insert hpos hle hrecv hfree hinsert, (fun _ hx => by cases hx)⟩
  · refine ⟨h.send hnet hfifo hdrained hkept, ?_⟩
    rintro l ⟨⟩
    exact h.fits _

/-! ## Kinds that do not -/

/-- `od_insert_mes` of a request of kind `k`. -/
def insertKind (k : Nat × Nat) (breakMessage : Bool) : SendFifoCmd :=
  .odInsertMes (List.replicate k.1 0) k.2 breakMessage []

theorem kind_insertKind {k x : Nat × Nat} {brk : Bool} : x ∈ (insertKind k brk).kind ↔ x = k := by
  show x ∈ some ((List.replicate k.1 (0 : UInt8)).length, k.2) ↔ x = k
  rw [List.length_replicate, Option.mem_some_iff]
  exact eq_comm

theorem Replies.step_insertKind {r : Replies} {k : Nat × Nat} {brk : Bool} {f : Fifo}
    (hpos : 0 < k.1) (hle : k.1 ≤ r.fifo.slotSize - r.fifo.mesHeader) (hrecv : k.2 ≤ mtu)
    (hfree : r.fifo.startsMessage k.1 k.2 brk = true → r.fifo.capacity < r.fifo.maxSize)
    (hinsert : r.fifo.odInsertMes (List.replicate k.1 0) k.2 brk [] = .ok f) :
    r.step (insertKind k brk) = .ok (⟨f, Function.update r.recvSizes f.pushPtr
      (if r.fifo.startsMessage k.1 k.2 brk then [k.2] else r.recvSizes f.pushPtr ++ [k.2])⟩,
      none) := by
  unfold Replies.step insertKind sendFifoStep
  dsimp only
  rw [List.length_replicate, if_pos ⟨hpos, hle, hrecv, hfree⟩, hinsert]
  rfl

theorem Replies.step_send {r : Replies} (hnet : 0 < r.fifo.netCapacity) :
    r.step .fifoSendFromPullSlot = .ok (⟨r.fifo.fifoSendFromPullSlot,
      if sub32 r.fifo.netCapacity r.fifo.getFifoSlotMetaPull.coalesceNum = 0 then
        Function.update r.recvSizes r.fifo.fifoSendFromPullSlot.pushPtr []
      else r.recvSizes⟩, some (r.recvSizes r.fifo.pullPtr)) := by
  unfold Replies.step sendFifoStep
  dsimp only
  rw [if_pos hnet, ok_bind]
  dsimp only
  split
  · rfl
  · rfl

/-- The message under construction is one of the kinds `l`, behind `closed`, and `resp_size`
    counts `counted` bytes of its reply. -/
structure Holds (maxSize slotSize : Nat) (mesHeader : UInt16) (closed : List Message)
    (l : List (Nat × Nat)) (counted : Nat) (r : Replies) : Prop where
  maxSize_eq : r.fifo.maxSize = maxSize
  slotSize_eq : r.fifo.slotSize = slotSize
  mesHeader_eq : r.fifo.mesHeader = mesHeader.toNat
  queue : ∃ c, Represents r.fifo c ∧ c.closed = closed ∧ c.building.length = l.length ∧
    c.building.flatten.length = (l.map Prod.fst).sum
  respSize : r.fifo.getFifoSlotMetaPush.respSize = counted
  recvSizes : r.recvSizes r.fifo.pushPtr = l.map Prod.snd

namespace Holds

variable {maxSize slotSize counted : Nat} {mesHeader : UInt16} {closed : List Message}
variable {l : List (Nat × Nat)} {k : Nat × Nat} {r : Replies}

theorem start (hN : 1 ≤ maxSize) (hhdr : mesHeader.toNat < slotSize)
    (hreq : slotSize - mesHeader.toNat < 2 ^ 16) (hbytes : maxSize * slotSize < 2 ^ 32) :
    Holds maxSize slotSize mesHeader [] [] 0 (.start maxSize slotSize mesHeader) :=
  ⟨rfl, rfl, rfl, ⟨_, represents_fifoConstructor hN hhdr hreq hbytes, rfl, rfl, rfl⟩, rfl, rfl⟩

/-- What is inserted keeps the dimensions and refines. -/
theorem insert {brk : Bool} {c : Coalesced}
    (h : Holds maxSize slotSize mesHeader closed l counted r)
    (rep : Represents r.fifo c) (hpos : 0 < k.1) (hle : k.1 ≤ slotSize - mesHeader.toNat)
    (hrecv : k.2 ≤ mtu)
    (hfree : r.fifo.startsMessage k.1 k.2 brk = true → r.fifo.capacity < r.fifo.maxSize) :
    ∃ f, r.fifo.odInsertMes (List.replicate k.1 0) k.2 brk [] = .ok f ∧
      Represents f (c.insert (List.replicate k.1 0) (r.fifo.startsMessage k.1 k.2 brk)) ∧
      f.maxSize = maxSize ∧ f.slotSize = slotSize ∧ f.mesHeader = mesHeader.toNat := by
  have hlen : (List.replicate k.1 (0 : UInt8)).length = k.1 := List.length_replicate
  have hne : List.replicate k.1 (0 : UInt8) ≠ [] := List.length_pos_iff.mp (by rwa [hlen])
  have hsize : (List.replicate k.1 (0 : UInt8)).length ≤ r.fifo.slotSize - r.fifo.mesHeader := by
    rw [hlen, h.slotSize_eq, h.mesHeader_eq]
    exact hle
  rw [← hlen] at hfree
  obtain ⟨f, hinsert, rep'⟩ := rep.insert [] hne hsize hrecv hfree
  rw [hlen] at rep'
  obtain ⟨hfsize, hfmes⟩ := Fifo.odInsertMes_dims hinsert
  exact ⟨f, hinsert, rep', (Fifo.odInsertMes_maxSize hinsert).trans h.maxSize_eq,
    hfsize.trans h.slotSize_eq, hfmes.trans h.mesHeader_eq⟩

/-- **A request joins the message** if `resp_size` and the slot have room for it. -/
theorem join (h : Holds maxSize slotSize mesHeader closed l counted r) (hpos : 0 < k.1)
    (hsize : (l.map Prod.fst).sum + k.1 ≤ slotSize - mesHeader.toNat)
    (hcount : counted + k.2 ≤ mtu) :
    ∃ r', r.step (insertKind k false) = .ok (r', none) ∧
      Holds maxSize slotSize mesHeader closed (l ++ [k]) (counted + k.2) r' := by
  obtain ⟨c, rep, hclosed, hlength, hbytes⟩ := h.queue
  have hmtu : mtu = 4096 := rfl
  have hlt := rep.geometry.slotSize_lt (by have := rep.window.pull_lt; omega)
  rw [h.slotSize_eq] at hlt
  have hbyte : r.fifo.getFifoSlotMetaPush.byteSize = mesHeader.toNat + (l.map Prod.fst).sum := by
    rw [← hbytes, ← h.mesHeader_eq]
    exact rep.building.byteSize
  have hresp : u32 (r.fifo.getFifoSlotMetaPush.respSize + k.2) = counted + k.2 := by
    rw [h.respSize, u32_of_lt (by omega)]
  have hstarts : r.fifo.startsMessage k.1 k.2 false = false := by
    unfold Fifo.startsMessage Fifo.newMessage
    dsimp only
    rw [hresp, hbyte, u32_of_lt (by omega), h.slotSize_eq, Bool.false_and, Bool.or_false,
      Bool.or_eq_false_iff, decide_eq_false_iff_not, decide_eq_false_iff_not]
    omega
  have hfree : r.fifo.startsMessage k.1 k.2 false = true → r.fifo.capacity < r.fifo.maxSize :=
    fun hc => absurd (hstarts.symm.trans hc) Bool.false_ne_true
  obtain ⟨f, hinsert, rep', hdims⟩ := h.insert rep hpos (by omega) (by omega) hfree
  have hstep := Replies.step_insertKind hpos (by rw [h.slotSize_eq, h.mesHeader_eq]; omega)
    (by omega) hfree hinsert
  obtain ⟨-, hold⟩ := odInsertMes_push hinsert
  rw [List.length_replicate] at hold
  obtain ⟨hpush, -, hresp'⟩ := hold hstarts
  obtain ⟨hjoined, hbuilding⟩ := c.insert_join (List.replicate k.1 0)
  rw [hstarts] at rep' hstep
  refine ⟨_, hstep, hdims.1, hdims.2.1, hdims.2.2, ⟨_, rep', hjoined.trans hclosed, ?_, ?_⟩,
    hresp'.trans hresp, ?_⟩
  · rw [hbuilding, List.length_append, List.length_append, hlength]
    rfl
  · rw [hbuilding, List.flatten_append, List.length_append, hbytes, List.map_append,
      List.sum_append]
    simp
  · dsimp only
    rw [Function.update_self, hpush, h.recvSizes, List.map_append]
    rfl

/-- **A split** opens a message for the request, which is not counted in it. -/
theorem split (h : Holds maxSize slotSize mesHeader [] l counted r) (hne : l ≠ [])
    (hmax : 2 ≤ maxSize) (hpos : 0 < k.1) (hle : k.1 ≤ slotSize - mesHeader.toNat)
    (hrecv : k.2 ≤ mtu) : ∃ m r', r.step (insertKind k true) = .ok (r', none) ∧
      Holds maxSize slotSize mesHeader [m] [k] 0 r' := by
  obtain ⟨c, rep, hclosed, hlength, -⟩ := h.queue
  have hsome : 0 < c.building.length := by
    rw [hlength]
    exact List.length_pos_iff.mpr hne
  have hb : c.building ≠ [] := List.length_pos_iff.mp hsome
  have hcount : r.fifo.getFifoSlotMetaPush.coalesceNum = c.building.length := rep.building.coalesce
  have hstarts : r.fifo.startsMessage k.1 k.2 true = true := by
    unfold Fifo.startsMessage Fifo.newMessage
    dsimp only
    rw [hcount, Bool.or_eq_true]
    exact Or.inr (by simpa using hb)
  have hcap : r.fifo.capacity < r.fifo.maxSize := by
    rw [rep.capacity, Coalesced.messages, if_neg hb, Coalesced.slots, hclosed, h.maxSize_eq]
    exact hmax
  obtain ⟨f, hinsert, rep', hdims⟩ := h.insert rep hpos hle hrecv fun _ => hcap
  have hstep := Replies.step_insertKind hpos (by rw [h.slotSize_eq, h.mesHeader_eq]; exact hle)
    hrecv (fun _ => hcap) hinsert
  obtain ⟨hnew, -⟩ := odInsertMes_push hinsert
  rw [List.length_replicate] at hnew
  obtain ⟨hfresh, hbuilding⟩ := c.insert_fresh (List.replicate k.1 0) hb
  rw [hstarts] at rep' hstep
  refine ⟨c.building, _, hstep, hdims.1, hdims.2.1, hdims.2.2, ⟨_, rep', ?_, ?_, ?_⟩,
    (hnew hstarts).2, ?_⟩
  · rw [hfresh, hclosed]
    rfl
  · rw [hbuilding]
    rfl
  · rw [hbuilding]
    simp
  · dsimp only
    rw [Function.update_self]
    rfl

/-- There is a message, so there are requests to send. -/
theorem netCapacity_pos {c : Coalesced} (rep : Represents r.fifo c) (hb : c.building ≠ []) :
    0 < r.fifo.netCapacity := by
  have hsome : 0 < c.building.length := List.length_pos_iff.mpr hb
  rw [rep.netCapacity, Coalesced.messages, if_neg hb, Coalesced.slots, List.flatten_append,
    List.length_append, List.flatten_singleton]
  omega

/-- **A send** of an older message. -/
theorem send {m : Message} (h : Holds maxSize slotSize mesHeader [m] l counted r) :
    ∃ r' l', r.step .fifoSendFromPullSlot = .ok (r', some l') ∧
      Holds maxSize slotSize mesHeader [] l counted r' := by
  obtain ⟨c, rep, hclosed, hlength, hbytes⟩ := h.queue
  have hne : c.closed ≠ [] := by
    rw [hclosed]
    exact List.cons_ne_nil _ _
  have hb : c.building ≠ [] := fun hb => hne (c.closed_nil hb)
  have hnet := netCapacity_pos rep hb
  have rep' := rep.send hnet
  obtain ⟨hslots, hbuilding⟩ := c.send_pull hne
  have hlast : c.send.2.closed = [] := by
    have hlen := congrArg List.length hslots
    rw [Coalesced.slots, Coalesced.slots, hclosed, List.length_cons, List.length_append,
      List.length_append] at hlen
    have hzero : c.send.2.closed.length = 0 := by
      simp only [List.length_singleton] at hlen
      omega
    exact List.length_eq_zero_iff.mp hzero
  -- the message under construction is left
  have hleft : sub32 r.fifo.netCapacity r.fifo.getFifoSlotMetaPull.coalesceNum ≠ 0 := by
    have hpos := netCapacity_pos (r := ⟨r.fifo.fifoSendFromPullSlot, r.recvSizes⟩) rep'
      (by rw [hbuilding]; exact hb)
    dsimp only at hpos
    rw [Fifo.fifoSendFromPullSlot_netCapacity] at hpos
    omega
  obtain ⟨-, hkeep⟩ := fifoSendFromPullSlot_push r.fifo
  obtain ⟨hpush, hmeta⟩ := hkeep hleft
  obtain ⟨hsize, hmes⟩ := Fifo.fifoSendFromPullSlot_dims r.fifo
  have hstep := Replies.step_send hnet
  rw [if_neg hleft] at hstep
  refine ⟨_, _, hstep, (Fifo.fifoSendFromPullSlot_maxSize _).trans h.maxSize_eq,
    hsize.trans h.slotSize_eq, hmes.trans h.mesHeader_eq, ⟨_, rep', hlast, ?_, ?_⟩, ?_, ?_⟩
  · rw [hbuilding]
    exact hlength
  · rw [hbuilding]
    exact hbytes
  · rw [hmeta]
    exact h.respSize
  · dsimp only
    rw [hpush]
    exact h.recvSizes

/-- **A send** of the message under construction. -/
theorem sendLast (h : Holds maxSize slotSize mesHeader [] l counted r) (hne : l ≠ []) :
    ∃ r', r.step .fifoSendFromPullSlot = .ok (r', some (l.map Prod.snd)) := by
  obtain ⟨c, rep, hclosed, hlength, -⟩ := h.queue
  have hb : c.building ≠ [] := by
    rw [← List.length_pos_iff, hlength]
    exact List.length_pos_iff.mpr hne
  have hpull : r.fifo.pullPtr = r.fifo.pushPtr := by
    rw [rep.window.push, Coalesced.slots, hclosed]
    exact (slot_zero rep.window.pull_lt).symm
  have hstep := Replies.step_send (netCapacity_pos rep hb)
  rw [hpull, h.recvSizes] at hstep
  exact ⟨_, hstep⟩

/-- **The requests of `l'` join**, one after the other. -/
theorem joins {l' : List (Nat × Nat)} (h : Holds maxSize slotSize mesHeader closed l counted r)
    (hpos : ∀ k ∈ l', 0 < k.1)
    (hsize : (l.map Prod.fst).sum + (l'.map Prod.fst).sum ≤ slotSize - mesHeader.toNat)
    (hcount : counted + (l'.map Prod.snd).sum ≤ mtu) :
    ∃ tr r', Run Replies.step r tr r' ∧ (∀ p ∈ tr, ∀ x ∈ p.1.kind, x ∈ l') ∧
      Holds maxSize slotSize mesHeader closed (l ++ l') (counted + (l'.map Prod.snd).sum) r' := by
  induction l' generalizing l counted r with
  | nil =>
    refine ⟨[], r, .start, (fun _ hp => by cases hp), ?_⟩
    rw [List.append_nil]
    exact h
  | cons k l' ih =>
    rw [List.map_cons, List.sum_cons] at hsize hcount
    obtain ⟨r₁, hstep, h₁⟩ := h.join (hpos k List.mem_cons_self) (by omega) (by omega)
    have hjoined : ((l ++ [k]).map Prod.fst).sum = (l.map Prod.fst).sum + k.1 := by
      rw [List.map_append, List.sum_append]
      simp
    obtain ⟨tr, r', hrun, hkind, h'⟩ := ih h₁
      (fun x hx => hpos x (List.mem_cons_of_mem _ hx)) (by omega) (by omega)
    rw [List.append_assoc, Nat.add_assoc] at h'
    refine ⟨_, r', (Run.start.snoc hstep).trans hrun, fun p hp x hx => ?_, h'⟩
    rw [List.nil_append] at hp
    rcases List.mem_append.mp hp with hp | hp
    · rw [List.mem_singleton.mp hp] at hx
      rw [kind_insertKind.mp hx]
      exact List.mem_cons_self
    · exact List.mem_cons_of_mem _ (hkind p hp x hx)

end Holds

/-- **A message that is not counted right**: a split opens it for the first request, and the
    others join it. -/
theorem exists_sent {maxSize slotSize : Nat} {mesHeader : UInt16} {kinds : Set (Nat × Nat)}
    (hmax : 2 ≤ maxSize) (hhdr : mesHeader.toNat < slotSize)
    (hreq : slotSize - mesHeader.toNat < 2 ^ 16) (hbytes : maxSize * slotSize < 2 ^ 32)
    (hkinds : ∀ k ∈ kinds, 0 < k.1 ∧ k.1 ≤ slotSize - mesHeader.toNat ∧ k.2 ≤ mtu)
    {k : Nat × Nat} {l : List (Nat × Nat)} (hk : k ∈ kinds) (hl : ∀ x ∈ l, x ∈ kinds)
    (hsize : k.1 + (l.map Prod.fst).sum ≤ slotSize - mesHeader.toNat)
    (hrest : (l.map Prod.snd).sum ≤ mtu) :
    ∃ tr r, Run Replies.step (.start maxSize slotSize mesHeader) tr r ∧
      (∀ p ∈ tr, ∀ x ∈ p.1.kind, x ∈ kinds) ∧ k.2 :: l.map Prod.snd ∈ sentReplies tr := by
  obtain ⟨hpos, hle, hrecv⟩ := hkinds k hk
  have h₀ := Holds.start (by omega : 1 ≤ maxSize) hhdr hreq hbytes
  obtain ⟨r₁, hstep₁, h₁⟩ := h₀.join hpos (by rw [List.map_nil, List.sum_nil]; omega) (by omega)
  obtain ⟨m, r₂, hstep₂, h₂⟩ := h₁.split (List.cons_ne_nil _ _) hmax hpos hle hrecv
  obtain ⟨r₃, sent, hstep₃, h₃⟩ := h₂.send
  obtain ⟨tr, r₄, hrun, hkind, h₄⟩ := h₃.joins (fun x hx => (hkinds x (hl x hx)).1)
    (by rw [List.map_singleton, List.sum_singleton]; exact hsize) (by omega)
  obtain ⟨r₅, hstep₅⟩ := h₄.sendLast (List.cons_ne_nil _ _)
  have hopened := ((Run.start.snoc hstep₁).snoc hstep₂).snoc hstep₃
  refine ⟨_, r₅, (hopened.trans hrun).snoc hstep₅, fun p hp x hx => ?_, ?_⟩
  · rcases List.mem_append.mp hp with hp | hp
    · rcases List.mem_append.mp hp with hp | hp
      · simp only [List.nil_append, List.cons_append, List.mem_cons, List.not_mem_nil,
          or_false] at hp
        rcases hp with rfl | rfl | rfl
        · rw [kind_insertKind.mp hx]
          exact hk
        · rw [kind_insertKind.mp hx]
          exact hk
        · cases hx
      · exact hl x (hkind p hp x hx)
    · rw [List.mem_singleton.mp hp] at hx
      cases hx
  · refine List.mem_filterMap.mpr ⟨_, List.mem_append_right _ (List.mem_singleton_self _), rfl⟩

/-- What does not fit together has a shortest tail that does not, whose own tail does. -/
theorem exists_uncounted {kinds : Set (Nat × Nat)} {room : Nat} {l : List (Nat × Nat)}
    (hl : ∀ x ∈ l, x ∈ kinds) (hsize : (l.map Prod.fst).sum ≤ room)
    (hlarge : mtu < (l.map Prod.snd).sum) :
    ∃ (k : Nat × Nat) (l' : List (Nat × Nat)), k ∈ kinds ∧ (∀ x ∈ l', x ∈ kinds) ∧
      k.1 + (l'.map Prod.fst).sum ≤ room ∧
      (l'.map Prod.snd).sum ≤ mtu ∧ mtu < k.2 + (l'.map Prod.snd).sum := by
  induction l with
  | nil => exact absurd hlarge (by decide)
  | cons k l ih =>
    rw [List.map_cons, List.sum_cons] at hsize hlarge
    have htail : ∀ x ∈ l, x ∈ kinds := fun x hx => hl x (List.mem_cons_of_mem _ hx)
    by_cases hrest : (l.map Prod.snd).sum ≤ mtu
    · exact ⟨k, l, hl k List.mem_cons_self, htail, hsize, hrest, hlarge⟩
    · exact ih htail (by omega) (by omega)

/-! ## The result -/

/-- **Which requests have replies that fit**, in every run with requests of these kinds: those that
    fit together.  In a FIFO whose counters are wide enough, and of two slots or more, no others
    have. -/
theorem replies_fit_iff {maxSize slotSize : Nat} {mesHeader : UInt16} {kinds : Set (Nat × Nat)}
    (hkinds : ∀ k ∈ kinds, 0 < k.1 ∧ k.1 ≤ slotSize - mesHeader.toNat ∧ k.2 ≤ mtu) :
    (slotSize < 2 ^ 31 → FitTogether kinds (slotSize - mesHeader.toNat) →
      RepliesFit maxSize slotSize mesHeader kinds) ∧
    (1 ≤ maxSize → mesHeader.toNat < slotSize → slotSize - mesHeader.toNat < 2 ^ 16 →
      maxSize * slotSize < 2 ^ 32 →
      (RepliesFit maxSize slotSize mesHeader kinds ↔
        maxSize = 1 ∨ FitTogether kinds (slotSize - mesHeader.toNat))) := by
  have henough : slotSize < 2 ^ 31 → FitTogether kinds (slotSize - mesHeader.toNat) →
      RepliesFit maxSize slotSize mesHeader kinds := by
    intro hslot htogether
    refine repliesFit_of_step (Together kinds slotSize mesHeader.toNat) ?_ ?_
    · exact ⟨rfl, rfl, ⟨[], (fun _ hx => by cases hx), rfl, rfl, Nat.zero_le _⟩,
        fun _ => Nat.zero_le _⟩
    · intro r k r' e h hs hkind
      exact h.step hslot mesHeader.toNat_lt htogether hs hkind
  refine ⟨henough, fun hN hhdr hreq hbytes => ⟨fun hfit => ?_, ?_⟩⟩
  · by_cases hmax : maxSize = 1
    · exact Or.inl hmax
    · refine Or.inr fun l hl hsize => Nat.le_of_not_lt fun hlarge => ?_
      obtain ⟨k, l', hk, hl', hsize', hrest, hlarge'⟩ := exists_uncounted hl hsize hlarge
      obtain ⟨tr, r, hrun, hof, hsent⟩ :=
        exists_sent (by omega) hhdr hreq hbytes hkinds hk hl' hsize' hrest
      have hle := hfit tr r hrun hof _ hsent
      rw [List.sum_cons] at hle
      omega
  · rintro (rfl | htogether)
    · refine repliesFit_of_step Counted ?_ fun r k r' e h hs _ => h.step hs
      exact ⟨rfl, ⟨_, represents_fifoConstructor hN hhdr hreq hbytes⟩, rfl,
        fun _ => Nat.zero_le _⟩
    · have hslot : slotSize < 2 ^ 31 := by
        have := mesHeader.toNat_lt
        omega
      exact henough hslot htogether

/-- Requests of 8 bytes, in slots of 64 with a header of 8: seven of them share a reply.  With parts
    of 512 bytes they fit an MTU, also when the eighth opens a message by a split.  With parts of
    an MTU they do not. -/
theorem replies_fit_two : ∃ tr r, Run Replies.step (.start 4 64 8) tr r ∧
    (sentReplies tr).map List.length = [7, 2] ∧ (∀ l ∈ sentReplies tr, l.sum ≤ mtu) ∧
    ¬ RepliesFit 4 64 8 {(8, 4096)} := by
  have hkinds : ∀ n ≤ mtu, ∀ k ∈ ({(8, n)} : Set (Nat × Nat)),
      0 < k.1 ∧ k.1 ≤ 64 - (8 : UInt16).toNat ∧ k.2 ≤ mtu := by
    rintro n hn k rfl
    have hsize : 0 < 8 ∧ 8 ≤ 64 - (8 : UInt16).toNat := by decide
    exact ⟨hsize.1, hsize.2, hn⟩
  have hcalls : (do
      let (tr, _) ← exec Replies.step (.start 4 64 8) (List.replicate 9 (insertKind (8, 512) false)
        ++ [.fifoSendFromPullSlot, .fifoSendFromPullSlot])
      return ((sentReplies tr).map List.length, tr.map fun p => p.1.kind.getD (8, 512)) :
        Outcome (List Nat × List (Nat × Nat))) = .ok ([7, 2], List.replicate 11 (8, 512)) := by
    decide +kernel
  obtain ⟨⟨tr, r⟩, hexec, hcalls⟩ := bind_eq_ok.mp hcalls
  obtain ⟨hlengths, hof⟩ := Prod.mk.inj (Except.ok.inj hcalls)
  have hrun := run_of_exec hexec
  refine ⟨tr, r, hrun, hlengths, ?_, fun hfit => ?_⟩
  · refine (replies_fit_iff (hkinds 512 (by decide))).1 (by decide) ?_ tr r hrun fun p hp k hk => ?_
    · refine FitTogether.of_ratio (by decide) ?_
      rintro k rfl
      decide
    · have hmem := List.mem_map_of_mem (f := fun p : SendFifoCmd × Option (List Nat) =>
        p.1.kind.getD (8, 512)) hp
      rw [hof, hk] at hmem
      exact List.eq_of_mem_replicate hmem
  · rcases ((replies_fit_iff (hkinds 4096 (by decide))).2 (by decide) (by decide) (by decide)
      (by decide)).mp hfit with hone | htogether
    · cases hone
    · have hle := htogether [(8, 4096), (8, 4096)] (by simp) (by decide)
      exact absurd hle (by decide)

/-- **A reply of two MTUs**: the second request opens a slot because it fills a reply alone, and
    the third joins it as if the reply were empty. -/
theorem replies_too_large : ∃ tr r, Run Replies.step (.start 4 64 8) tr r ∧
    sentReplies tr = [[4096], [4096, 4096]] ∧ ¬ ∀ l ∈ sentReplies tr, l.sum ≤ mtu := by
  have hcalls : (do
      let (tr, _) ← exec Replies.step (.start 4 64 8) [insertKind (8, 4096) false,
        insertKind (8, 4096) false, insertKind (8, 4096) false, .fifoSendFromPullSlot,
        .fifoSendFromPullSlot]
      return sentReplies tr : Outcome (List (List Nat))) = .ok [[4096], [4096, 4096]] := by
    decide +kernel
  obtain ⟨⟨tr, r⟩, hexec, hcalls⟩ := bind_eq_ok.mp hcalls
  have hsizes := Except.ok.inj hcalls
  refine ⟨tr, r, run_of_exec hexec, hsizes, fun hall => ?_⟩
  rw [hsizes] at hall
  exact absurd (hall [4096, 4096] (by decide)) (by decide)

end Odyssey
