/-
  THE WORK REQUESTS OF A RECEIVE.

  `Odyssey.Receive` names a posted receive by its buffer slot.  This module is the same function,
  `post_recvs_with_recv_info`, with everything it writes: the address in the scatter-gather entry
  of each work request, the `next` pointer that links it to the one behind it, and the list the NIC
  reads when it follows the chain from `recv_wr[0]`.  `postRecvs_queue` takes the one to the other.

  Three widths meet in the loop.  The number of receives is a `uint32_t` and the counter of the
  loop a `uint16_t`, so from `2 ^ 16` receives on the loop never ends.  The offset of a slot,
  `push_ptr * slot_size`, is computed in `uint32_t` before it is added to a 64-bit address, so a
  slot that starts at 4 GiB or behind is given the address of another place.  `post_recvs` says
  that there is nothing else: within both widths the call posts the chain it should.
-/
import Odyssey.ReceiveRing
import Odyssey.Lib.Arrays

namespace Odyssey

open Lib

/-- `BILLION` -/
def billion : Nat := 1000000000

/-! ## The data -/

/-- `recv_info_t`, with the work requests it points to. -/
structure RecvInfoWr extends RecvInfo where
  /-- `uint32_t` -/
  bufSlots_lt : bufSlots < 2 ^ 32
  slotSize : Nat
  /-- the address of the receive buffer -/
  buf : Nat
  /-- the length of `recv_wr` and `recv_sgl` -/
  recvWrNum : Nat
  /-- `recv_wr[j].next`, by index -/
  next : Nat → Option Nat
  /-- `recv_sgl[j].addr` -/
  addr : Nat → Nat
  /-- what was given to the NIC: work requests, and the addresses in their entries -/
  posted : List (Nat × Nat)

namespace RecvInfoWr

variable (r : RecvInfoWr)

/-- `recv_wr[j].sg_list`, as `ctx_init_recv_info` sets it: without a buffer all work requests share
    one entry. -/
def sgList (j : Nat) : Nat := if r.bufSlots = 0 then 0 else j

/-! ## Posting -/

/-- One round of the loop. -/
def postOne (recvNum : Nat) (r : RecvInfoWr) (j : Nat) : RecvInfoWr :=
  { r with
    addr :=
      if 0 < r.bufSlots then Function.update r.addr j (r.buf + u32 (r.pushPtr * r.slotSize))
      else r.addr
    pushPtr := modIncr32 r.pushPtr r.bufSlots
    next := Function.update r.next j (if j = recvNum - 1 then none else some (j + 1)) }

/-- `ibv_post_recv`: the chain from `recv_wr[0]` on.  A chain without an end is followed for
    ever. -/
def ibvPostRecv : Outcome RecvInfoWr :=
  match follow r.next r.recvWrNum (some 0) with
  | some chain =>
    .ok { r with posted := r.posted ++ chain.map fun j => (j, r.addr (r.sgList j)) }
  | none => .error .endless

/-- `post_recvs_with_recv_info`. -/
def postRecvsWithRecvInfo (recvNum : Nat) : Outcome RecvInfoWr :=
  if recvNum = 0 then .ok r
  else do
    let r' ← forPure 16 recvNum (postOne recvNum) r
    if recvNum ≤ r.recvWrNum then
      let r' ← r'.ibvPostRecv
      return { r' with postedRecvs := u32 (r'.postedRecvs + recvNum) }
    else .error .undefined

/-! ## What a call writes -/

/-- The state after `i` rounds. -/
def afterRounds (recvNum i : Nat) : RecvInfoWr :=
  { r with
    addr := fun j =>
      if j < i then r.buf + u32 (slot r.bufSlots r.pushPtr j * r.slotSize) else r.addr j
    pushPtr := slot r.bufSlots r.pushPtr i
    next := fun j =>
      if j < i then if j = recvNum - 1 then none else some (j + 1) else r.next j }

variable {r}

/-- Writing the next cell of an array, whose first `i` cells are written. -/
theorem update_written {α : Type} (f a : Nat → α) (i : Nat) :
    Function.update (fun j => if j < i then f j else a j) i (f i)
      = fun j => if j < i + 1 then f j else a j := by
  funext j
  by_cases hj : j = i
  · rw [hj, Function.update_self, if_pos (Nat.lt_succ_self i)]
  · rw [Function.update_of_ne hj]
    by_cases hlt : j < i
    · rw [if_pos hlt, if_pos (by omega)]
    · rw [if_neg hlt, if_neg (by omega)]

theorem postOne_afterRounds (hpush : r.pushPtr < r.bufSlots) (recvNum i : Nat) :
    postOne recvNum (r.afterRounds recvNum i) i = r.afterRounds recvNum (i + 1) := by
  have hpos : 0 < r.bufSlots := by omega
  have haddr := update_written (fun j => r.buf + u32 (slot r.bufSlots r.pushPtr j * r.slotSize))
    r.addr i
  have hnext := update_written (fun j => if j = recvNum - 1 then none else some (j + 1)) r.next i
  have hptr := modIncr32_slot (k := i) r.bufSlots_lt hpush
  unfold postOne afterRounds
  dsimp only
  rw [if_pos hpos, haddr, hnext, hptr]

theorem loop_eq (hpush : r.pushPtr < r.bufSlots) (recvNum n : Nat) :
    (List.range n).foldl (postOne recvNum) r = r.afterRounds recvNum n := by
  refine foldl_range_rule (P := fun i t => t = r.afterRounds recvNum i) n ?_ ?_
  · unfold afterRounds
    rw [slot_zero hpush]
    rfl
  · rintro i t - rfl
    exact postOne_afterRounds hpush recvNum i

/-- After all rounds the work requests are one chain, that ends behind the last of them. -/
theorem follows_afterRounds {recvNum : Nat} (hpos : 0 < recvNum) :
    Follows (r.afterRounds recvNum recvNum).next (some 0) (List.range recvNum) := by
  rw [List.range_eq_range']
  refine follows_range' hpos ?_ ?_
  · intro j _ hj
    show (if j < recvNum then if j = recvNum - 1 then none else some (j + 1) else r.next j) = _
    rw [if_pos (by omega), if_neg (by omega)]
  · show (if 0 + recvNum - 1 < recvNum then if 0 + recvNum - 1 = recvNum - 1 then none
      else some (0 + recvNum - 1 + 1) else r.next (0 + recvNum - 1)) = none
    rw [if_pos (by omega), if_pos (by omega)]

/-- **The call**, where it is not empty and its counter gets to the end. -/
theorem postRecvs_eq (hpush : r.pushPtr < r.bufSlots) {recvNum : Nat} (hpos : 0 < recvNum)
    (hle : recvNum ≤ r.recvWrNum) (hlt : recvNum < 2 ^ 16) :
    r.postRecvsWithRecvInfo recvNum = .ok { r.afterRounds recvNum recvNum with
      postedRecvs := u32 (r.postedRecvs + recvNum)
      posted := r.posted ++ (List.range recvNum).map fun j =>
        (j, r.buf + u32 (slot r.bufSlots r.pushPtr j * r.slotSize)) } := by
  have hloop : forPure 16 recvNum (postOne recvNum) r = .ok (r.afterRounds recvNum recvNum) :=
    forPure_eq_ok.mpr ⟨hlt, loop_eq hpush recvNum recvNum⟩
  have hfollow : follow (r.afterRounds recvNum recvNum).next r.recvWrNum (some 0)
      = some (List.range recvNum) :=
    follow_of_follows (follows_afterRounds hpos) (by simpa using hle)
  have hentries : (List.range recvNum).map (fun j => (j, (r.afterRounds recvNum recvNum).addr
        ((r.afterRounds recvNum recvNum).sgList j)))
      = (List.range recvNum).map fun j =>
        (j, r.buf + u32 (slot r.bufSlots r.pushPtr j * r.slotSize)) := by
    apply List.map_congr_left
    intro j hj
    have hj' := List.mem_range.mp hj
    have hsg : (r.afterRounds recvNum recvNum).sgList j = j :=
      if_neg (show r.bufSlots ≠ 0 by omega)
    rw [hsg]
    show (j, if j < recvNum then _ else _) = _
    rw [if_pos hj']
  have hpost : (r.afterRounds recvNum recvNum).ibvPostRecv
      = .ok { r.afterRounds recvNum recvNum with
          posted := r.posted ++ (List.range recvNum).map fun j =>
            (j, r.buf + u32 (slot r.bufSlots r.pushPtr j * r.slotSize)) } := by
    unfold ibvPostRecv
    rw [show (r.afterRounds recvNum recvNum).recvWrNum = r.recvWrNum from rfl, hfollow]
    dsimp only
    rw [hentries]
    rfl
  unfold postRecvsWithRecvInfo
  rw [if_neg (by omega), hloop, ok_bind, if_pos hle, hpost]
  rfl

/-- A loop that was left was short enough for its counter. -/
theorem recvNum_lt {r' : RecvInfoWr} {recvNum : Nat}
    (h : r.postRecvsWithRecvInfo recvNum = .ok r') : recvNum < 2 ^ 16 := by
  unfold postRecvsWithRecvInfo at h
  split at h
  · omega
  · obtain ⟨t, hloop, -⟩ := bind_eq_ok.mp h
    exact (forPure_eq_ok.mp hloop).1

/-- The function of `Odyssey.Receive` is this one, with slots for addresses. -/
theorem postRecvs_queue {μ : Type} {q : RecvQueue μ} {r' : RecvInfoWr} {recvNum : Nat}
    (hinfo : q.recvInfo = r.toRecvInfo) (hwr : q.recvWrNum = r.recvWrNum)
    (hpush : r.pushPtr < r.bufSlots) (hle : recvNum ≤ r.recvWrNum)
    (h : r.postRecvsWithRecvInfo recvNum = .ok r') :
    ∃ q', q.postRecvsWithRecvInfo recvNum = .ok q' ∧ q'.recvInfo = r'.toRecvInfo ∧
      q'.rq = q.rq ++ window r.bufSlots r.pushPtr recvNum := by
  have hlt := recvNum_lt h
  by_cases hzero : recvNum = 0
  · subst hzero
    cases h
    exact ⟨q, rfl, hinfo, by simp⟩
  · rw [postRecvs_eq hpush (by omega) hle hlt] at h
    cases h
    let body : RecvQueue μ → Nat → RecvQueue μ := fun q _ => { q with
      rq := q.rq ++ [q.recvInfo.pushPtr]
      recvInfo.pushPtr := modIncr32 q.recvInfo.pushPtr q.recvInfo.bufSlots }
    have hloop : (List.range recvNum).foldl body q = { q with
        rq := q.rq ++ window r.bufSlots r.pushPtr recvNum
        recvInfo := { r.toRecvInfo with pushPtr := slot r.bufSlots r.pushPtr recvNum } } := by
      refine foldl_range_rule (P := fun i t => t = { q with
        rq := q.rq ++ window r.bufSlots r.pushPtr i
        recvInfo := { r.toRecvInfo with pushPtr := slot r.bufSlots r.pushPtr i } }) recvNum ?_ ?_
      · rw [slot_zero hpush, window_zero, List.append_nil, ← hinfo]
      · rintro i t - rfl
        simp only [body, modIncr32_slot r.bufSlots_lt hpush, window_succ, List.append_assoc]
    have hfor : forPure 16 recvNum body q = _ := forPure_eq_ok.mpr ⟨hlt, hloop⟩
    have hq : q.postRecvsWithRecvInfo recvNum = .ok { q with
        rq := q.rq ++ window r.bufSlots r.pushPtr recvNum
        recvInfo :=
          { r.toRecvInfo with
            pushPtr := slot r.bufSlots r.pushPtr recvNum
            postedRecvs := u32 (r.postedRecvs + recvNum) } } := by
      unfold RecvQueue.postRecvsWithRecvInfo
      rw [if_neg hzero]
      show (forPure 16 recvNum body q >>= _) = _
      rw [hfor, ok_bind, if_pos (hwr ▸ hle)]
      rfl
    exact ⟨_, hq, rfl, rfl⟩

/-! ## The result -/

/-- What a call that posts `recvNum` receives should have done. -/
structure Posts (r r' : RecvInfoWr) (recvNum : Nat) : Prop where
  /-- the work requests are a chain that ends in NULL -/
  chain : Follows r'.next (some 0) (List.range recvNum)
  /-- they were posted, with the slots from `pushPtr` on -/
  posted : r'.posted = r.posted ++ (List.range recvNum).map fun j =>
    (j, r.buf + slot r.bufSlots r.pushPtr j * r.slotSize)
  pushPtr : r'.pushPtr = (r.pushPtr + recvNum) % r.bufSlots
  postedRecvs : r'.postedRecvs = u32 (r.postedRecvs + recvNum)

/-- **Posting receives** terminates and posts the chain, if and only if the receives can be counted
    in `uint16_t` and the offsets of their slots in `uint32_t`. -/
theorem post_recvs (r : RecvInfoWr) (recvNum : Nat) (hpush : r.pushPtr < r.bufSlots)
    (hpos : 1 ≤ recvNum) (hle : recvNum ≤ r.recvWrNum) :
    (∃ r', r.postRecvsWithRecvInfo recvNum = .ok r' ∧ Posts r r' recvNum) ↔
      recvNum < 2 ^ 16 ∧
        ∀ j < recvNum, slot r.bufSlots r.pushPtr j * r.slotSize < 2 ^ 32 := by
  constructor
  · rintro ⟨r', h, hposts⟩
    have hlt := recvNum_lt h
    refine ⟨hlt, ?_⟩
    intro j hj
    rw [postRecvs_eq hpush hpos hle hlt] at h
    cases h
    have hposted := List.append_cancel_left hposts.posted
    have hentry := List.map_inj_left.mp hposted j (List.mem_range.mpr hj)
    have haddr : r.buf + u32 (slot r.bufSlots r.pushPtr j * r.slotSize)
        = r.buf + slot r.bufSlots r.pushPtr j * r.slotSize := (Prod.mk.inj hentry).2
    have hu := Nat.mod_lt (slot r.bufSlots r.pushPtr j * r.slotSize) (by decide : 0 < 2 ^ 32)
    unfold u32 at haddr
    omega
  · rintro ⟨hlt, hoffs⟩
    refine ⟨_, postRecvs_eq hpush hpos hle hlt, follows_afterRounds hpos, ?_, rfl, rfl⟩
    show r.posted ++ _ = r.posted ++ _
    congr 1
    apply List.map_congr_left
    intro j hj
    rw [u32_of_lt (hoffs j (List.mem_range.mp hj))]

/-- A receive side with one slot and `n` work requests. -/
def ofWrNum (n : Nat) : RecvInfoWr where
  pushPtr := 0
  bufSlots := 1
  postedRecvs := 0
  bufSlots_lt := by decide
  slotSize := 64
  buf := 0
  recvWrNum := n
  next := fun _ => none
  addr := fun _ => 0
  posted := []

theorem post_recvs_two : ∃ r', (ofWrNum 2).postRecvsWithRecvInfo 2 = .ok r' ∧
    Posts (ofWrNum 2) r' 2 :=
  (post_recvs (ofWrNum 2) 2 (by decide) (by decide) (by decide)).mpr
    ⟨by decide, by decide⟩

/-- `2 ^ 16` receives are posted for ever. -/
theorem post_recvs_endless :
    (ofWrNum 65536).pushPtr < (ofWrNum 65536).bufSlots ∧ 65536 ≤ (ofWrNum 65536).recvWrNum ∧
      65536 < billion ∧ (ofWrNum 65536).postRecvsWithRecvInfo 65536 = .error .endless := by
  refine ⟨by decide, Nat.le_refl _, by decide, ?_⟩
  have hloop : forPure 16 65536 (postOne 65536) (ofWrNum 65536) = .error .endless :=
    if_neg (by decide)
  unfold postRecvsWithRecvInfo
  rw [if_neg (by decide), hloop]
  rfl

end RecvInfoWr

end Odyssey
