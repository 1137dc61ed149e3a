/-
  A MIRROR SIMULATES THE REMOTE RECEIVE FIFO, as long as its slots fit the allocation.

  `Mirrors f l`: the live slots of `f`, from `pullPtr` on, hold the list `l`, and `l` is what a
  remote machine has not handled.  The two operations of the code are the two operations on `l`:

  * an add writes behind the live slots (`Mirrors.addMirrored`): `l ++ [c]`;
  * a removal of `k` requests leaves `unconsumed l k` and returns `finished l k` credits
    (`Mirrors.removeLoop`).  The induction is on the rounds of the loop.  Every round takes at
    least one request, since no live slot is empty, and as `k` is at most the sum of `l` the loop
    never gets behind the live slots, where a stale or zero slot would mislead it.

  Removing `a` and then `b` is removing `a + b` because it is so for `unconsumed`; the slots
  themselves differ, the reduced slot of a message finished later is left reduced.

  From `2 ^ 31` slots on the allocation wraps around, and `runs_out` fills it.
-/
import Odyssey.Mirror

namespace Odyssey

open Lib

/-! ## One mirror -/

/-- The mirror `f` holds the messages `l`. -/
structure Mirrors (f : MirrorFifo) (l : List Nat) : Prop where
  size_lt : f.maxSize < 2 ^ 31
  bytes : f.maxByteSize = f.maxSize * 2
  capacity : f.capacity = l.length
  length_le : l.length ≤ f.maxSize
  pull_lt : 0 < f.maxSize → f.pullPtr < f.maxSize
  push : f.pushPtr = slot f.maxSize f.pullPtr f.capacity
  contents : f.contents = l
  pos : ∀ c ∈ l, 1 ≤ c

namespace Mirrors

variable {f : MirrorFifo} {l : List Nat}

/-- Every slot is inside the allocation. -/
theorem allocated (h : Mirrors f l) {sl : Nat} (hsl : sl < f.maxSize) : f.allocated sl = true := by
  have hb := h.bytes
  unfold MirrorFifo.allocated
  exact decide_eq_true (by omega)

/-- **Adding a message** appends it. -/
theorem addMirrored (h : Mirrors f l) {c : Nat} (hc : 1 ≤ c) (hc16 : c < 2 ^ 16)
    (hroom : f.capacity < f.maxSize) (qInfo : Option Nat) :
    ∃ f', f.addMirrored c qInfo = .ok f' ∧ f'.maxSize = f.maxSize ∧ Mirrors f' (l ++ [c]) := by
  have hsize := h.size_lt
  have hpull : f.pullPtr < f.maxSize := h.pull_lt (by omega)
  have hpush : f.pushPtr < f.maxSize := by
    rw [h.push]
    exact slot_lt (by omega)
  have hcap : u32 (f.capacity + 1) = f.capacity + 1 := u32_of_lt (by omega)
  refine ⟨{ f with
    fifo := Function.update f.fifo f.pushPtr (u16 c)
    pushPtr := modIncr f.pushPtr f.maxSize
    capacity := u32 (f.capacity + 1) }, ?_, rfl, ?_⟩
  · unfold MirrorFifo.addMirrored
    rw [if_pos (h.allocated hpush)]
    refine if_neg ?_
    rintro ⟨hover, -⟩
    have hover' : f.maxSize < u32 (f.capacity + 1) := hover
    omega
  · refine ⟨hsize, h.bytes, ?_, ?_, h.pull_lt, ?_, ?_, ?_⟩
    · show u32 (f.capacity + 1) = (l ++ [c]).length
      rw [hcap, h.capacity, List.length_append, List.length_singleton]
    · have := h.capacity
      rw [List.length_append, List.length_singleton]
      show l.length + 1 ≤ f.maxSize
      omega
    · show modIncr f.pushPtr f.maxSize = slot f.maxSize f.pullPtr (u32 (f.capacity + 1))
      rw [hcap, modIncr_one (by omega) hpush, h.push, slot_slot]
    · -- the live slots are the old ones, and the one at `pushPtr`
      have hold : (window f.maxSize f.pullPtr f.capacity).map
          (Function.update f.fifo f.pushPtr (u16 c)) = l := by
        rw [← h.contents]
        refine List.map_congr_left ?_
        intro sl hsl
        obtain ⟨k, hk, rfl⟩ := List.mem_map.mp hsl
        have hk' := List.mem_range.mp hk
        rw [h.push]
        exact Function.update_of_ne (slot_ne hpull (by omega) hroom (by omega)) _ _
      show (window f.maxSize f.pullPtr (u32 (f.capacity + 1))).map
        (Function.update f.fifo f.pushPtr (u16 c)) = l ++ [c]
      rw [hcap, window_succ, List.map_append, hold, List.map_singleton, ← h.push,
        Function.update_self, u16_of_lt hc16]
    · intro a ha
      rcases List.mem_append.mp ha with ha | ha
      · exact h.pos a ha
      · rw [List.mem_singleton.mp ha]
        exact hc

/-- The slot at `pullPtr` holds the first message. -/
theorem head {c : Nat} (h : Mirrors f (c :: l)) :
    f.pullPtr < f.maxSize ∧ f.fifo f.pullPtr = c ∧
      (window f.maxSize (slot f.maxSize f.pullPtr 1) l.length).map f.fifo = l := by
  have hlen := h.length_le
  have hcap := h.capacity
  rw [List.length_cons] at hlen hcap
  have hpull : f.pullPtr < f.maxSize := h.pull_lt (by omega)
  have hcontents := h.contents
  unfold MirrorFifo.contents at hcontents
  rw [hcap, window_cons hpull, List.map_cons] at hcontents
  exact ⟨hpull, (List.cons.inj hcontents).1, (List.cons.inj hcontents).2⟩

/-- **Finishing the first message** drops it. -/
theorem pop {c : Nat} (h : Mirrors f (c :: l)) :
    Mirrors { f with
      pullPtr := modIncr f.pullPtr f.maxSize
      capacity := sub32 f.capacity 1 } l := by
  obtain ⟨hpull, -, hrest⟩ := h.head
  have hsize := h.size_lt
  have hlen := h.length_le
  have hcap := h.capacity
  rw [List.length_cons] at hlen hcap
  have hcap' : sub32 f.capacity 1 = l.length := by
    rw [sub32_of_le (by omega) (by omega), hcap]
    exact Nat.add_sub_cancel l.length 1
  have hpull' : modIncr f.pullPtr f.maxSize = slot f.maxSize f.pullPtr 1 :=
    modIncr_one (by omega) hpull
  refine ⟨hsize, h.bytes, hcap', ?_, ?_, ?_, ?_, fun a ha => h.pos a (List.mem_cons_of_mem c ha)⟩
  · show l.length ≤ f.maxSize
    omega
  · intro hpos
    show modIncr f.pullPtr f.maxSize < f.maxSize
    rw [hpull']
    exact slot_lt hpos
  · show f.pushPtr = slot f.maxSize (modIncr f.pullPtr f.maxSize) (sub32 f.capacity 1)
    rw [h.push, hpull', hcap', slot_slot, hcap, Nat.add_comm]
  · show (window f.maxSize (modIncr f.pullPtr f.maxSize) (sub32 f.capacity 1)).map f.fifo = l
    rw [hpull', hcap']
    exact hrest

/-- **Ending in the first message** reduces it, in place. -/
theorem reduce {c k : Nat} (h : Mirrors f (c :: l)) (hk : k < c) :
    Mirrors { f with fifo := Function.update f.fifo f.pullPtr (c - k) } ((c - k) :: l) := by
  obtain ⟨hpull, -, hrest⟩ := h.head
  have hlen := h.length_le
  have hcap := h.capacity
  rw [List.length_cons] at hlen hcap
  refine ⟨h.size_lt, h.bytes, h.capacity, h.length_le, h.pull_lt, h.push, ?_, ?_⟩
  · show (window f.maxSize f.pullPtr f.capacity).map (Function.update f.fifo f.pullPtr (c - k))
      = (c - k) :: l
    rw [hcap, window_cons hpull, List.map_cons, Function.update_self]
    congr 1
    refine Eq.trans (List.map_congr_left ?_) hrest
    intro sl hsl
    obtain ⟨j, hj, rfl⟩ := List.mem_map.mp hsl
    have hj' := List.mem_range.mp hj
    have hne : slot f.maxSize f.pullPtr (1 + j) ≠ slot f.maxSize f.pullPtr 0 :=
      slot_ne hpull (by omega) (by omega) (by omega)
    rw [slot_zero hpull] at hne
    rw [slot_slot]
    exact Function.update_of_ne hne _ _
  · intro a ha
    rcases List.mem_cons.mp ha with rfl | ha
    · omega
    · exact h.pos a (List.mem_cons_of_mem c ha)

/-- **The loop of a removal**, by induction on its rounds: it takes at least one request a
    round. -/
theorem removeLoop (h : Mirrors f l) {n removeNum newCredits : Nat} (hn : removeNum < n)
    (hsum : removeNum ≤ l.sum) (hcredits : newCredits + removeNum < 2 ^ 16) :
    ∃ f', MirrorFifo.removeLoop n f removeNum newCredits
        = .ok (f', newCredits + finished l removeNum) ∧
      f'.maxSize = f.maxSize ∧ Mirrors f' (unconsumed l removeNum) := by
  induction n generalizing f l removeNum newCredits with
  | zero => omega
  | succ n ih =>
    unfold MirrorFifo.removeLoop
    by_cases hzero : removeNum = 0
    · subst hzero
      rw [if_pos rfl, finished_zero h.pos, unconsumed_zero h.pos]
      exact ⟨f, rfl, rfl, h⟩
    · rw [if_neg hzero]
      cases l with
      | nil =>
        rw [List.sum_nil] at hsum
        omega
      | cons c l =>
        obtain ⟨hpull, hread, -⟩ := h.head
        have hc : 1 ≤ c := h.pos c List.mem_cons_self
        rw [List.sum_cons] at hsum
        rw [if_pos (h.allocated hpull), hread]
        rcases Nat.lt_or_ge removeNum c with hlt | hle
        · -- the removal ends in this message
          rw [if_neg (by omega), unconsumed_of_lt l hlt, finished_of_lt l hlt]
          have hred := h.reduce hlt
          obtain ⟨f', hf', hmax, hm⟩ := ih hred (by omega : 0 < n) (Nat.zero_le _)
            (show newCredits + 0 < 2 ^ 16 by omega)
          rw [finished_zero hred.pos] at hf'
          rw [unconsumed_zero hred.pos] at hm
          exact ⟨f', hf', hmax, hm⟩
        · -- the message is finished
          rw [if_pos hle, unconsumed_of_le l hle, finished_of_le l hle]
          have hcount : u16 (newCredits + 1) = newCredits + 1 := u16_of_lt (by omega)
          obtain ⟨f', hf', hmax, hm⟩ := ih h.pop (by omega : removeNum - c < n) (by omega)
            (show u16 (newCredits + 1) + (removeNum - c) < 2 ^ 16 by omega)
          refine ⟨f', ?_, hmax, hm⟩
          rw [hf', hcount]
          congr 2
          omega

/-- **A removal** leaves what is unconsumed and returns a credit for each message it finished. -/
theorem removeMirrored (h : Mirrors f l) {removeNum : Nat} (hlt : removeNum < 2 ^ 16)
    (hsum : removeNum ≤ l.sum) :
    ∃ f', f.removeMirrored removeNum = .ok (f', finished l removeNum) ∧
      f'.maxSize = f.maxSize ∧ Mirrors f' (unconsumed l removeNum) := by
  have hfuel : removeNum < (removeNum + 1) * (f.maxSize + 1) :=
    Nat.lt_of_lt_of_le (Nat.lt_succ_self _) (Nat.le_mul_of_pos_right _ (by omega))
  obtain ⟨f', hf', hrest⟩ := h.removeLoop hfuel hsum
    (show 0 + removeNum < 2 ^ 16 by omega)
  rw [Nat.zero_add] at hf'
  exact ⟨f', hf', hrest⟩

end Mirrors

/-! ## All mirrors -/

/-- The simulation: every mirror holds what its machine has not handled. -/
structure MirrorInv (maxSize : Nat) (s : MirrorState) : Prop where
  size : ∀ i < s.fifoNum, (s.bufs i).maxSize = maxSize
  pos : ∀ i < s.fifoNum, ∀ c ∈ (s.remotes i).received, 1 ≤ c
  handled : ∀ i < s.fifoNum, (s.remotes i).handled ≤ (s.remotes i).received.sum
  mirrors : ∀ i < s.fifoNum, Mirrors (s.bufs i) (s.remotes i).pending

namespace MirrorInv

variable {maxSize : Nat} {s : MirrorState}

theorem start {maxSize : UInt32} {fifoNum : UInt16}
    (h : maxSize.toNat < 2 ^ 31 ∨ fifoNum.toNat = 0) :
    MirrorInv maxSize.toNat (mirrorStart maxSize fifoNum) := by
  refine ⟨fun _ _ => rfl, fun _ _ c hc => (nomatch hc), fun _ _ => Nat.le_refl 0, ?_⟩
  intro i (hi : i < fifoNum.toNat)
  have h : maxSize.toNat < 2 ^ 31 := by omega
  refine ⟨h, u32_of_lt (by omega), rfl, Nat.zero_le _, id, ?_, rfl, fun c hc => (nomatch hc)⟩
  show 0 = (0 + 0) % maxSize.toNat
  rw [Nat.zero_mod]

/-- An add returns, and the message is pending at every machine it was sent to. -/
theorem add (h : MirrorInv maxSize s) {coalesceNum : UInt8} {numberOfFifos : UInt16}
    {qInfo : Option Nat} (hall : s.Allowed (.add coalesceNum numberOfFifos qInfo)) :
    ∃ s', s.call (.add coalesceNum numberOfFifos qInfo) = .ok (s', 0) ∧ MirrorInv maxSize s' ∧
      s'.fifoNum = s.fifoNum := by
  obtain ⟨hpos, hnum, hroom⟩ := hall
  have hn : numberOfFifos.toNat < 2 ^ 16 := numberOfFifos.toNat_lt
  have hc8 : coalesceNum.toNat < 2 ^ 8 := coalesceNum.toNat_lt
  let body : (Nat → MirrorFifo) → Nat → Outcome (Nat → MirrorFifo) := fun bufs i => do
    let f ← (bufs i).addMirrored coalesceNum.toNat qInfo
    return Function.update bufs i f
  -- after `k` rounds the first `k` mirrors have the message, the others are as before
  let added (k : Nat) (bufs : Nat → MirrorFifo) : Prop :=
    (∀ i < k, (bufs i).maxSize = (s.bufs i).maxSize ∧
      Mirrors (bufs i) ((s.remotes i).pending ++ [coalesceNum.toNat])) ∧
    ∀ i, k ≤ i → bufs i = s.bufs i
  have hround : ∀ k bufs, k < numberOfFifos.toNat → added k bufs →
      ∃ bufs', body bufs k = .ok bufs' ∧ added (k + 1) bufs' := by
    rintro k bufs hk ⟨hdone, hleft⟩
    have hm := h.mirrors k (by omega)
    rw [← hleft k (Nat.le_refl k)] at hm
    have hroomk := hroom k hk
    rw [← hleft k (Nat.le_refl k)] at hroomk
    obtain ⟨f, hf, hmax, hm'⟩ := hm.addMirrored hpos (by omega) hroomk qInfo
    refine ⟨Function.update bufs k f, ?_, ?_, ?_⟩
    · show ((bufs k).addMirrored coalesceNum.toNat qInfo >>= _) = _
      rw [hf]
      rfl
    · intro i hi
      by_cases hik : i = k
      · subst hik
        rw [Function.update_self, ← hleft i (Nat.le_refl i)]
        exact ⟨hmax, hm'⟩
      · rw [Function.update_of_ne hik]
        exact hdone i (by omega)
    · intro i hi
      rw [Function.update_of_ne (by omega)]
      exact hleft i (by omega)
  obtain ⟨bufs, hbufs, hnew, hrest⟩ :
      ∃ bufs, (List.range numberOfFifos.toNat).foldlM body s.bufs = .ok bufs ∧
        added numberOfFifos.toNat bufs :=
    foldlM_range_total numberOfFifos.toNat
      ⟨fun i hi => absurd hi (Nat.not_lt_zero i), fun _ _ => rfl⟩ hround
  refine ⟨{ s with
    bufs := bufs
    remotes := fun i =>
      if i < numberOfFifos.toNat then (s.remotes i).receive coalesceNum.toNat
      else s.remotes i }, ?_, ?_, rfl⟩
  · show (addToTheMirroredBuffer s.bufs coalesceNum numberOfFifos qInfo >>= _) = _
    rw [show addToTheMirroredBuffer s.bufs coalesceNum numberOfFifos qInfo = .ok bufs from
      forLoop_eq_ok.mpr ⟨hn, hbufs⟩]
    rfl
  · constructor
    · intro i hi
      rcases Nat.lt_or_ge i numberOfFifos.toNat with hlt | hge
      · exact ((hnew i hlt).1).trans (h.size i hi)
      · show (bufs i).maxSize = maxSize
        rw [hrest i hge]
        exact h.size i hi
    · intro i hi c hc
      dsimp only at hc
      split at hc
      · rcases List.mem_append.mp hc with hc | hc
        · exact h.pos i hi c hc
        · rw [List.mem_singleton.mp hc]
          exact hpos
      · exact h.pos i hi c hc
    · intro i hi
      have hle := h.handled i hi
      dsimp only
      split
      · show (s.remotes i).handled ≤ ((s.remotes i).received ++ [coalesceNum.toNat]).sum
        rw [List.sum_append]
        omega
      · exact hle
    · intro i hi
      dsimp only
      rcases Nat.lt_or_ge i numberOfFifos.toNat with hlt | hge
      · rw [if_pos hlt]
        have hm := (hnew i hlt).2
        rwa [Remote.pending, ← unconsumed_concat hpos (h.handled i hi)] at hm
      · rw [if_neg (by omega), hrest i hge]
        exact h.mirrors i hi

/-- A removal returns a credit for each message it finished. -/
theorem remove (h : MirrorInv maxSize s) {removeNum : UInt16} {fifoId : UInt8}
    (hall : s.Allowed (.remove removeNum fifoId)) :
    ∃ s', s.call (.remove removeNum fifoId)
        = .ok (s', finished (s.remotes fifoId.toNat).pending removeNum.toNat) ∧
      MirrorInv maxSize s' ∧ s'.fifoNum = s.fifoNum ∧
      s'.remotes = Function.update s.remotes fifoId.toNat
        ((s.remotes fifoId.toNat).handle removeNum.toNat) := by
  obtain ⟨hid, hpos, hsum⟩ := hall
  obtain ⟨f, hf, hmax, hm⟩ :=
    (h.mirrors _ hid).removeMirrored removeNum.toNat_lt hsum
  refine ⟨{ s with
    bufs := Function.update s.bufs fifoId.toNat f
    remotes := Function.update s.remotes fifoId.toNat
      ((s.remotes fifoId.toNat).handle removeNum.toNat) }, ?_, ?_, rfl, rfl⟩
  · show (removeFromTheMirroredBuffer s.bufs removeNum fifoId >>= _) = _
    unfold removeFromTheMirroredBuffer
    rw [hf]
    rfl
  · have hpending : (s.remotes fifoId.toNat).handled + removeNum.toNat
        ≤ (s.remotes fifoId.toNat).received.sum := by
      have hle := h.handled _ hid
      rw [Remote.pending, sum_unconsumed] at hsum
      omega
    have hcase : ∀ (P : Nat → MirrorFifo → Remote → Prop),
        P fifoId.toNat f ((s.remotes fifoId.toNat).handle removeNum.toNat) →
        (∀ i < s.fifoNum, P i (s.bufs i) (s.remotes i)) →
        ∀ i < s.fifoNum, P i (Function.update s.bufs fifoId.toNat f i)
          (Function.update s.remotes fifoId.toNat
            ((s.remotes fifoId.toNat).handle removeNum.toNat) i) := by
      intro P hnew hold i hi
      by_cases hii : i = fifoId.toNat
      · subst hii
        rw [Function.update_self, Function.update_self]
        exact hnew
      · rw [Function.update_of_ne hii, Function.update_of_ne hii]
        exact hold i hi
    constructor
    · exact hcase (fun _ f _ => f.maxSize = maxSize) (hmax.trans (h.size _ hid)) h.size
    · exact hcase (fun _ _ r => ∀ c ∈ r.received, 1 ≤ c) (h.pos _ hid) h.pos
    · exact hcase (fun _ _ r => r.handled ≤ r.received.sum) hpending h.handled
    · refine hcase (fun _ f r => Mirrors f r.pending) ?_ h.mirrors
      rw [Remote.pending_handle]
      exact hm

/-- **Every call that is allowed returns**, and keeps the simulation. -/
theorem step (h : MirrorInv maxSize s) {call : MirrorCall} (hall : s.Allowed call) :
    ∃ s' credits, mirrorStep s call = .ok (s', credits) ∧ MirrorInv maxSize s' := by
  unfold mirrorStep
  rw [if_pos hall]
  cases call with
  | add coalesceNum numberOfFifos qInfo =>
    obtain ⟨s', hs', hinv, -⟩ := h.add hall
    exact ⟨s', 0, hs', hinv⟩
  | remove removeNum fifoId =>
    obtain ⟨s', hs', hinv, -⟩ := h.remove hall
    exact ⟨s', _, hs', hinv⟩

end MirrorInv

theorem mirrorStep_eq_ok {s s' : MirrorState} {call : MirrorCall} {credits : Nat} :
    mirrorStep s call = .ok (s', credits) ↔
      s.Allowed call ∧ s.call call = .ok (s', credits) := by
  unfold mirrorStep
  split
  · rename_i h
    exact ⟨fun hs => ⟨h, hs⟩, fun hs => hs.2⟩
  · rename_i h
    exact ⟨(fun hs => nomatch hs), fun hs => absurd hs.1 h⟩

/-- A run of calls keeps the simulation. -/
theorem mirror_run {maxSize : UInt32} {fifoNum : UInt16}
    (h : maxSize.toNat < 2 ^ 31 ∨ fifoNum.toNat = 0) {tr : List (MirrorCall × Nat)}
    {s : MirrorState} (hrun : Run mirrorStep (mirrorStart maxSize fifoNum) tr s) : MirrorInv maxSize.toNat s := by
  refine hrun.invariant (fun _ s => MirrorInv maxSize.toNat s) (.start h) ?_
  intro tr s call s' credits _ hinv hs
  obtain ⟨s'', credits'', hs'', hinv''⟩ := hinv.step (mirrorStep_eq_ok.mp hs).1
  rw [hs] at hs''
  obtain ⟨rfl, -⟩ := Prod.mk.inj (Except.ok.inj hs'')
  exact hinv''

/-! ## What the simulation says -/

/-- **The mirrors simulate the remote receive FIFOs.** -/
structure MirrorState.Simulates (s : MirrorState) : Prop where
  /-- from `pullPtr` on, the mirror holds the messages not fully handled -/
  contents : ∀ i < s.fifoNum, (s.bufs i).contents = (s.remotes i).pending
  /-- the capacity is their number -/
  capacity : ∀ i < s.fifoNum, (s.bufs i).capacity = (s.remotes i).pending.length
  /-- every call returns -/
  returns : ∀ call, s.Allowed call → ∃ s' credits, mirrorStep s call = .ok (s', credits)
  /-- a removal returns a credit for each message it finished, and takes it off the capacity -/
  credits : ∀ {removeNum fifoId s' credits},
    mirrorStep s (.remove removeNum fifoId) = .ok (s', credits) →
    (s'.remotes fifoId.toNat).done = (s.remotes fifoId.toNat).done + credits ∧
      (s.bufs fifoId.toNat).capacity = (s'.bufs fifoId.toNat).capacity + credits
  /-- removing `a` and then `b` is removing `a + b` -/
  split : ∀ {a b : UInt16} {fifoId}, 1 ≤ a.toNat → 1 ≤ b.toNat → a.toNat + b.toNat < 2 ^ 16 →
    s.Allowed (.remove (a + b) fifoId) →
    ∃ s₁ s₂ s₃ credits₁ credits₂,
      mirrorStep s (.remove a fifoId) = .ok (s₁, credits₁) ∧
      mirrorStep s₁ (.remove b fifoId) = .ok (s₂, credits₂) ∧
      mirrorStep s (.remove (a + b) fifoId) = .ok (s₃, credits₁ + credits₂) ∧
      ∀ i < s.fifoNum, (s₂.bufs i).contents = (s₃.bufs i).contents ∧
        (s₂.bufs i).capacity = (s₃.bufs i).capacity

namespace MirrorInv

variable {maxSize : Nat} {s : MirrorState}

/-- What a removal does, seen from the state after it. -/
theorem removed (h : MirrorInv maxSize s) {removeNum : UInt16} {fifoId : UInt8} {s' : MirrorState}
    {credits : Nat} (hs : mirrorStep s (.remove removeNum fifoId) = .ok (s', credits)) :
    credits = finished (s.remotes fifoId.toNat).pending removeNum.toNat ∧
      MirrorInv maxSize s' ∧ s'.fifoNum = s.fifoNum ∧
      s'.remotes = Function.update s.remotes fifoId.toNat
        ((s.remotes fifoId.toNat).handle removeNum.toNat) := by
  obtain ⟨hall, hcall⟩ := mirrorStep_eq_ok.mp hs
  obtain ⟨s'', hs'', hrest⟩ := h.remove hall
  rw [hcall] at hs''
  obtain ⟨rfl, hcredits⟩ := Prod.mk.inj (Except.ok.inj hs'')
  exact ⟨hcredits, hrest⟩

theorem capacity_eq (h : MirrorInv maxSize s) {i : Nat} (hi : i < s.fifoNum) :
    (s.bufs i).capacity = (s.remotes i).pending.length := (h.mirrors i hi).capacity

theorem simulates (h : MirrorInv maxSize s) : s.Simulates := by
  constructor
  · intro i hi
    exact (h.mirrors i hi).contents
  · intro i hi
    exact h.capacity_eq hi
  · intro call hall
    obtain ⟨s', credits, hs', -⟩ := h.step hall
    exact ⟨s', credits, hs'⟩
  · intro removeNum fifoId s' credits hs
    obtain ⟨hid, -, -⟩ := (mirrorStep_eq_ok.mp hs).1
    obtain ⟨rfl, hinv', hnum, hremotes⟩ := h.removed hs
    have hcap' := hinv'.capacity_eq (hnum ▸ hid)
    rw [hremotes, Function.update_self] at hcap' ⊢
    refine ⟨Remote.done_handle _ _, ?_⟩
    have hlen := finished_add_length (s.remotes fifoId.toNat).pending removeNum.toNat
    rw [hcap', Remote.pending_handle, h.capacity_eq hid]
    omega
  · intro a b fifoId ha hb hab hall
    obtain ⟨hid, -, hsum⟩ := hall
    have hadd : (a + b).toNat = a.toNat + b.toNat := by
      rw [UInt16.toNat_add]
      exact Nat.mod_eq_of_lt hab
    rw [hadd] at hsum
    have hall₁ : s.Allowed (.remove a fifoId) := ⟨hid, ha, by omega⟩
    obtain ⟨s₁, c₁, hs₁, hinv₁⟩ := h.step hall₁
    obtain ⟨rfl, -, hnum₁, hrem₁⟩ := h.removed hs₁
    have hall₂ : s₁.Allowed (.remove b fifoId) := by
      refine ⟨hnum₁ ▸ hid, hb, ?_⟩
      rw [hrem₁, Function.update_self, Remote.pending_handle, sum_unconsumed]
      omega
    obtain ⟨s₂, c₂, hs₂, hinv₂⟩ := hinv₁.step hall₂
    obtain ⟨rfl, -, hnum₂, hrem₂⟩ := hinv₁.removed hs₂
    have hall₃ : s.Allowed (.remove (a + b) fifoId) := ⟨hid, by omega, by omega⟩
    obtain ⟨s₃, c₃, hs₃, hinv₃⟩ := h.step hall₃
    obtain ⟨rfl, -, hnum₃, hrem₃⟩ := h.removed hs₃
    have hremotes : s₂.remotes = s₃.remotes := by
      rw [hrem₂, hrem₁, hrem₃, Function.update_self, Function.update_idem, hadd]
      congr 1
      simp [Remote.handle, Nat.add_assoc]
    refine ⟨s₁, s₂, s₃, _, _, hs₁, hs₂, ?_, ?_⟩
    · rw [hs₃, hadd, finished_add, hrem₁, Function.update_self, Remote.pending_handle]
    · intro i hi
      have hi₂ : i < s₂.fifoNum := by omega
      have hi₃ : i < s₃.fifoNum := by omega
      rw [(hinv₂.mirrors i hi₂).contents, (hinv₃.mirrors i hi₃).contents, hinv₂.capacity_eq hi₂,
        hinv₃.capacity_eq hi₃, hremotes]
      exact ⟨rfl, rfl⟩

end MirrorInv

/-! ## Too many slots -/

/-- One message to the first machine only. -/
def addFirst : MirrorCall := .add 1 1 none

/-- Its loop is one round. -/
theorem call_addFirst (s : MirrorState) :
    s.call addFirst = (s.bufs 0).addMirrored 1 none >>= fun f =>
      .ok ({ s with
        bufs := Function.update s.bufs 0 f
        remotes := fun i => if i < 1 then (s.remotes i).receive 1 else s.remotes i }, 0) := by
  show (addToTheMirroredBuffer s.bufs 1 1 none >>= _) = _
  have hloop : addToTheMirroredBuffer s.bufs 1 1 none
      = (s.bufs 0).addMirrored 1 none >>= fun f => .ok (Function.update s.bufs 0 f) := by
    show (((s.bufs 0).addMirrored 1 none >>= fun f => pure (Function.update s.bufs 0 f)) >>=
      fun bufs => pure bufs) = _
    cases (s.bufs 0).addMirrored 1 none <;> rfl
  rw [hloop]
  cases (s.bufs 0).addMirrored 1 none <;> rfl

/-- Behind the allocation there is nothing to add to. -/
theorem addMirrored_undefined {f : MirrorFifo} (h : f.maxByteSize < f.pushPtr * 2 + 2) (c : Nat)
    (qInfo : Option Nat) : f.addMirrored c qInfo = .error .undefined := by
  have hout : f.allocated f.pushPtr = false := by
    unfold MirrorFifo.allocated
    exact decide_eq_false (by omega)
  unfold MirrorFifo.addMirrored
  rw [hout]
  rfl

theorem addFirst_allowed {s : MirrorState} (hnum : 0 < s.fifoNum)
    (hroom : (s.bufs 0).capacity < (s.bufs 0).maxSize) : s.Allowed addFirst := by
  refine ⟨Nat.le_refl 1, hnum, ?_⟩
  intro i hi
  obtain rfl : i = 0 := Nat.lt_one_iff.mp hi
  exact hroom

/-- Messages arrive one after another at the first machine, as long as they find a slot inside
    the allocation. -/
theorem runs_out {maxSize : UInt32} (h : 2 ^ 31 ≤ maxSize.toNat) {fifoNum : UInt16}
    (hnum : 0 < fifoNum.toNat) (n : Nat) (hn : n ≤ maxSize.toNat - 2 ^ 31) :
    ∃ tr s, Run mirrorStep (mirrorStart maxSize fifoNum) tr s ∧ s.fifoNum = fifoNum.toNat ∧
      (s.bufs 0).maxSize = maxSize.toNat ∧
      (s.bufs 0).maxByteSize = (maxSize.toNat - 2 ^ 31) * 2 ∧
      (s.bufs 0).pushPtr = n ∧ (s.bufs 0).capacity = n := by
  have hlt : maxSize.toNat < 2 ^ 32 := maxSize.toNat_lt
  induction n with
  | zero =>
    refine ⟨[], _, .start, rfl, rfl, ?_, rfl, rfl⟩
    show u32 (maxSize.toNat * 2) = (maxSize.toNat - 2 ^ 31) * 2
    unfold u32
    omega
  | succ n ih =>
    obtain ⟨tr, s, hrun, hfifos, hmax, hbytes, hpush, hcap⟩ := ih (by omega)
    have hall : s.Allowed addFirst := addFirst_allowed (by omega) (by omega)
    have hin : (s.bufs 0).allocated (s.bufs 0).pushPtr = true := by
      unfold MirrorFifo.allocated
      exact decide_eq_true (by omega)
    have hcap' : u32 ((s.bufs 0).capacity + 1) = n + 1 := by
      rw [hcap]
      exact u32_of_lt (by omega)
    have hadd : (s.bufs 0).addMirrored 1 none = .ok
        { s.bufs 0 with
          fifo := Function.update (s.bufs 0).fifo (s.bufs 0).pushPtr (u16 1)
          pushPtr := modIncr (s.bufs 0).pushPtr (s.bufs 0).maxSize
          capacity := u32 ((s.bufs 0).capacity + 1) } := by
      unfold MirrorFifo.addMirrored
      rw [if_pos hin]
      refine if_neg ?_
      rintro ⟨hover, -⟩
      have hover' : (s.bufs 0).maxSize < u32 ((s.bufs 0).capacity + 1) := hover
      omega
    have hcall := call_addFirst s
    rw [hadd] at hcall
    refine ⟨_, _, .snoc hrun (mirrorStep_eq_ok.mpr ⟨hall, hcall⟩), hfifos, ?_⟩
    dsimp only
    rw [Function.update_self]
    refine ⟨hmax, hbytes, ?_, hcap'⟩
    show modIncr (s.bufs 0).pushPtr (s.bufs 0).maxSize = n + 1
    rw [modIncr_one (by omega) (by omega), hpush]
    exact Nat.mod_eq_of_lt (by omega)

/-! ## The result -/

/-- **The mirrors simulate the remote receive FIFOs**, in every run and whatever the calls, if and
    only if the bytes of a FIFO can be counted in `uint32_t`. -/
theorem mirror_simulates (maxSize : UInt32) (fifoNum : UInt16) :
    (∀ tr s, Run mirrorStep (mirrorStart maxSize fifoNum) tr s → s.Simulates) ↔
      maxSize.toNat < 2 ^ 31 ∨ fifoNum.toNat = 0 := by
  have hlt : maxSize.toNat < 2 ^ 32 := maxSize.toNat_lt
  constructor
  · intro hall
    by_contra hnot
    obtain ⟨tr, s, hrun, hfifos, hmax, hbytes, hpush, hcap⟩ :=
      runs_out (show 2 ^ 31 ≤ maxSize.toNat by omega) (show 0 < fifoNum.toNat by omega) _
        (Nat.le_refl _)
    have hallowed : s.Allowed addFirst := addFirst_allowed (by omega) (by omega)
    obtain ⟨s', credits, hs'⟩ := (hall tr s hrun).returns addFirst hallowed
    have hcall := (mirrorStep_eq_ok.mp hs').2
    rw [call_addFirst, addMirrored_undefined (by omega)] at hcall
    exact nomatch hcall
  · intro h tr s hrun
    exact (mirror_run h hrun).simulates

/-- A mirror of `2 ^ 31` slots has no bytes at all: the first message is written behind it. -/
theorem mirror_wraps : ¬ ∀ tr s, Run mirrorStep (mirrorStart 2147483648 1) tr s → s.Simulates := by
  intro hall
  have hallowed : (mirrorStart 2147483648 1).Allowed addFirst := by decide
  obtain ⟨s', credits, hs'⟩ := (hall [] _ .start).returns addFirst hallowed
  have hcall := (mirrorStep_eq_ok.mp hs').2
  rw [call_addFirst, addMirrored_undefined (by decide)] at hcall
  exact nomatch hcall

end Odyssey
