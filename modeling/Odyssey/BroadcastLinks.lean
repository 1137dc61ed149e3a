/-
  THE LINKS BETWEEN THE WORK REQUESTS OF A BROADCAST.

  The work requests of a broadcast QP are `maxBcastBatch` blocks of `remMachNum`, one block for
  each broadcast of a batch, and in a block one work request for each remote machine.  A chain of
  `n` broadcasts has to visit, block by block, the work requests of the active machines:
  `batch cl q n`.

  Inside a block the links are permanent: `Linked` says that in every block the active machines
  are linked in order.  Set-up establishes it for all machines, `updateBcastWrLinks` for the
  machines that are active from then on, whatever was linked before.  The last active work request
  of a block is the one place the send path writes: it points to the next block while a batch is
  built, and to NULL when the batch is posted.  It is linked to nothing in its own block, so
  stale pointers of earlier batches and earlier memberships do no harm.
-/
import Odyssey.QuorumInvariant
import Odyssey.SendPath
import Odyssey.Lib.Ends
import Mathlib.Data.List.Range

namespace Odyssey

open Lib

variable {cl : Cluster}

/-! ## Writes to a send queue -/

theorem SendQueue.next_setNext_self (s : SendQueue) (i : Nat) (p : Option Nat) :
    ((s.setNext i p).sendWr i).next = p := by
  simp [SendQueue.setNext]

theorem SendQueue.next_setNext_ne (s : SendQueue) {i j : Nat} (p : Option Nat) (h : j ≠ i) :
    ((s.setNext i p).sendWr j).next = (s.sendWr j).next := by
  simp [SendQueue.setNext, h]

/-- Only links were written. -/
structure Relinks (s s' : SendQueue) : Prop where
  wr : ∀ i, s'.sendWr i = { s.sendWr i with next := (s'.sendWr i).next }
  sgl : s'.sendSgl = s.sendSgl
  tx : s'.sentTx = s.sentTx
  log : s'.log = s.log

namespace Relinks

variable {s s' s'' : SendQueue}

theorem refl (s : SendQueue) : Relinks s s := ⟨fun _ => rfl, rfl, rfl, rfl⟩

theorem trans (h : Relinks s s') (h' : Relinks s' s'') : Relinks s s'' := by
  refine ⟨fun i => ?_, h'.sgl.trans h.sgl, h'.tx.trans h.tx, h'.log.trans h.log⟩
  rw [h'.wr i, h.wr i]

theorem setNext (s : SendQueue) (i : Nat) (p : Option Nat) : Relinks s (s.setNext i p) := by
  refine ⟨fun j => ?_, rfl, rfl, rfl⟩
  by_cases h : j = i
  · subst h
    simp [SendQueue.setNext]
  · simp [SendQueue.setNext, h]

theorem ah (h : Relinks s s') (i : Nat) : (s'.sendWr i).ah = (s.sendWr i).ah := by
  rw [h.wr i]

theorem sgList (h : Relinks s s') (i : Nat) : (s'.sendWr i).sgList = (s.sendWr i).sgList := by
  rw [h.wr i]

theorem signaled (h : Relinks s s') (i : Nat) :
    (s'.sendWr i).signaled = (s.sendWr i).signaled := by
  rw [h.wr i]

end Relinks

/-! ## Blocks -/

/-- The work requests for the remote ids `rms` in block `j`. -/
def block (cl : Cluster) (rms : List Nat) (j : Nat) : List Nat :=
  rms.map (cl.remMachNum * j + ·)

/-- What a chain of `n` broadcasts visits. -/
def batch (cl : Cluster) (q : QuorumInfo) (n : Nat) : List Nat :=
  (List.range n).flatMap (block cl (q.activeRmIds cl))

/-- In every block the work requests for `rms` are linked in order. -/
def Linked (cl : Cluster) (rms : List Nat) (s : SendQueue) : Prop :=
  ∀ j, j < maxBcastBatch → (block cl rms j).IsChain (fun a b => (s.sendWr a).next = some b)

/-- A work request is in one block, at one place. -/
theorem wr_inj {n a b j k : Nat} (ha : a < n) (hb : b < n) (h : n * j + a = n * k + b) :
    j = k ∧ a = b := by
  have hpos : 0 < n := by omega
  have hj : (n * j + a) / n = j := by
    rw [Nat.mul_add_div hpos, Nat.div_eq_of_lt ha, Nat.add_zero]
  have hk : (n * k + b) / n = k := by
    rw [Nat.mul_add_div hpos, Nat.div_eq_of_lt hb, Nat.add_zero]
  have hjk : j = k := by rw [← hj, h, hk]
  subst hjk
  exact ⟨rfl, by omega⟩

/-- Links survive writes to work requests that are last in their block. -/
theorem Linked.congr {rms : List Nat} {s s' : SendQueue} (h : Linked cl rms s)
    (heq : ∀ j, j < maxBcastBatch → ∀ a ∈ rms.dropLast,
      (s'.sendWr (cl.remMachNum * j + a)).next = (s.sendWr (cl.remMachNum * j + a)).next) :
    Linked cl rms s' := by
  intro j hj
  refine isChain_congr (h j hj) fun x hx => ?_
  rw [block, ← List.map_dropLast] at hx
  obtain ⟨a, ha, rfl⟩ := List.mem_map.mp hx
  exact heq j hj a ha

/-! ## update_bcast_wr_links -/

/-- Linking one place to another in every block. -/
theorem linkBlocks_spec (s : SendQueue) {prev : Nat} (i : Nat) (hprev : prev < cl.remMachNum) :
    let s' := (List.range maxBcastBatch).foldl (fun s j =>
      s.setNext (cl.remMachNum * j + prev) (some (cl.remMachNum * j + i))) s
    Relinks s s' ∧
    (∀ j, j < maxBcastBatch →
      (s'.sendWr (cl.remMachNum * j + prev)).next = some (cl.remMachNum * j + i)) ∧
    (∀ j a, a < cl.remMachNum → a ≠ prev →
      (s'.sendWr (cl.remMachNum * j + a)).next = (s.sendWr (cl.remMachNum * j + a)).next) := by
  refine foldl_range_rule (P := fun n t => Relinks s t ∧
    (∀ j, j < n → (t.sendWr (cl.remMachNum * j + prev)).next = some (cl.remMachNum * j + i)) ∧
    (∀ j a, a < cl.remMachNum → a ≠ prev →
      (t.sendWr (cl.remMachNum * j + a)).next = (s.sendWr (cl.remMachNum * j + a)).next))
    maxBcastBatch ⟨Relinks.refl s, fun j hj => absurd hj (Nat.not_lt_zero j), fun _ _ _ _ => rfl⟩
    ?_
  rintro n t - ⟨hrel, hset, hkeep⟩
  refine ⟨hrel.trans (Relinks.setNext ..), fun j hj => ?_, fun j a ha hne => ?_⟩
  · by_cases hjn : j = n
    · subst hjn
      exact SendQueue.next_setNext_self ..
    · rw [SendQueue.next_setNext_ne, hset j (by omega)]
      intro hc
      exact hjn (wr_inj hprev hprev hc).1
  · rw [SendQueue.next_setNext_ne, hkeep j a ha hne]
    intro hc
    exact hne (wr_inj ha hprev hc).2

/-- **Relinking** links the active machines in every block, whatever was linked before. -/
theorem updateBcastWrLinks_linked {q : QuorumInfo} {s s' : SendQueue}
    (hfit : cl.remMachNum < 2 ^ 8) (h : updateBcastWrLinks cl q s = .ok s') :
    Linked cl (q.activeRmIds cl) s' ∧ Relinks s s' := by
  obtain ⟨link, hloop, h⟩ := bind_eq_ok.mp h
  cases h
  let rms : Nat → List Nat := fun i => (List.range i).filter q.sendVector
  obtain ⟨-, -, hlinked, hrel⟩ : link.availMach = (rms cl.remMachNum).length ∧
      (∀ hne : rms cl.remMachNum ≠ [], link.prevI = (rms cl.remMachNum).getLast hne) ∧
      Linked cl (rms cl.remMachNum) link.queue ∧ Relinks s link.queue := by
    refine forPure_rule (fun i (t : Linking) => t.availMach = (rms i).length ∧
      (∀ hne : rms i ≠ [], t.prevI = (rms i).getLast hne) ∧
      Linked cl (rms i) t.queue ∧ Relinks s t.queue) hloop
      ⟨rfl, fun hne => absurd rfl hne, fun _ _ => List.isChain_nil, Relinks.refl s⟩ ?_
    rintro i t hi ⟨hcnt, hprev, hlinked, hrel⟩
    have hlt : ∀ a ∈ rms i, a < i := fun a ha =>
      List.mem_range.mp (List.mem_filter.mp ha).1
    have hsorted : (rms i).Pairwise (· < ·) := List.Pairwise.filter _ List.pairwise_lt_range
    have hnext : rms (i + 1) = rms i ++ [i].filter q.sendVector := by
      show (List.range (i + 1)).filter _ = _
      rw [List.range_succ, List.filter_append]
    -- `wr[i].next = NULL` is a write to no link so far
    have hnull : Linked cl (rms i) (t.queue.setNext i none) := by
      refine hlinked.congr fun j _ a ha => SendQueue.next_setNext_ne _ _ fun hc => ?_
      have ha' := hlt a (List.dropLast_subset _ ha)
      have hinj := wr_inj (k := 0) (show a < cl.remMachNum by omega) hi (by rw [hc]; omega)
      omega
    have hrel' := hrel.trans (Relinks.setNext t.queue i none)
    by_cases hbit : q.sendVector i = true
    · rw [if_pos hbit, hnext, show [i].filter q.sendVector = [i] by simp [hbit]]
      have hlen : (rms i).length ≤ i := by
        have hle : (rms i).length ≤ (List.range i).length := List.length_filter_le ..
        rwa [List.length_range] at hle
      have hcnt' : u8 (t.availMach + 1) = (rms i ++ [i]).length := by
        rw [List.length_append, List.length_singleton, hcnt]
        exact u8_of_lt (by omega)
      refine ⟨hcnt', fun _ => by simp, ?_⟩
      by_cases hfirst : 0 < t.availMach
      · rw [if_pos hfirst]
        have hne : rms i ≠ [] := by
          intro hnil
          rw [hcnt, hnil] at hfirst
          exact absurd hfirst (Nat.lt_irrefl 0)
        have hlast : t.prevI ∈ (rms i).getLast? := by
          rw [hprev hne, List.getLast?_eq_some_getLast hne]
          rfl
        have hprevlt : t.prevI < i := by
          rw [hprev hne]
          exact hlt _ (List.getLast_mem hne)
        obtain ⟨hrel₂, hset, hkeep⟩ :=
          linkBlocks_spec (t.queue.setNext i none) i (show t.prevI < cl.remMachNum by omega)
        refine ⟨fun j hj => ?_, hrel'.trans hrel₂⟩
        have hchain : (block cl (rms i) j).IsChain (fun a b =>
            (((List.range maxBcastBatch).foldl (fun s j => s.setNext (cl.remMachNum * j + t.prevI)
              (some (cl.remMachNum * j + i))) (t.queue.setNext i none)).sendWr a).next
              = some b) := by
          refine (hnull.congr fun j _ a ha => hkeep j a ?_ ?_) j hj
          · have ha' := hlt a (List.dropLast_subset _ ha)
            omega
          · intro hc
            subst hc
            have hnodup : (rms i).Nodup := hsorted.imp fun h => Nat.ne_of_lt h
            rw [← List.dropLast_append_getLast hne, ← hprev hne] at hnodup
            exact (List.nodup_append'.mp hnodup).2.2 ha (by simp)
        rw [block, List.map_append, List.isChain_append]
        refine ⟨hchain, List.isChain_singleton _, fun x hx y hy => ?_⟩
        rw [List.getLast?_map, Option.mem_def, Option.map_eq_some_iff] at hx
        obtain ⟨a, ha, rfl⟩ := hx
        have hax : a = t.prevI := by
          have h := hlast
          rw [Option.mem_def, ha] at h
          exact Option.some.inj h
        have hy' : y = cl.remMachNum * j + i := by simpa using hy.symm
        rw [hax, hy']
        exact hset j hj
      · rw [if_neg hfirst]
        have hnil : rms i = [] := List.length_eq_zero_iff.mp (by omega)
        rw [hnil]
        exact ⟨fun j _ => List.isChain_singleton _, hrel'⟩
    · rw [if_neg hbit, hnext, show [i].filter q.sendVector = [] by simp [hbit], List.append_nil]
      exact ⟨hcnt, hprev, hnull, hrel'⟩
  exact ⟨hlinked, hrel⟩

/-! ## Set-up -/

/-- A work request of a broadcast QP as `const_set_up_wr` leaves it. -/
def bcastWr (cl : Cluster) (inlined : Bool) (j i : Nat) : SendWr where
  next := if i = cl.remMachNum - 1 then none else some (cl.remMachNum * j + i + 1)
  ah := cl.rmidToMid i
  sgList := j
  inlined := inlined
  signaled := false

/-- **Set-up** writes every work request of a broadcast QP. -/
theorem initBcastWrs_spec {μ : Type} {ctx : Context μ} {m : PerQpMeta μ} {s : SendQueue}
    (hfit : ctx.cl.remMachNum < 2 ^ 8) (h : ctx.initBcastWrs m = .ok s) :
    4 * ctx.cl.remMachNum ≤ m.sendWrNum ∧ s.sentTx = m.send.sentTx ∧ s.log = m.send.log ∧
      ∀ j, j < maxBcastBatch → ∀ i, i < ctx.cl.remMachNum →
        s.sendWr (ctx.cl.remMachNum * j + i) = bcastWr ctx.cl m.enableInlining j i := by
  unfold Context.initBcastWrs at h
  split at h
  · nomatch h
  · rename_i hroom
    have hbatch : ctx.cl.messagesInBcastBatch = 4 * ctx.cl.remMachNum := rfl
    refine ⟨by omega, ?_⟩
    obtain ⟨-, hloop⟩ := forLoop_eq_ok.mp h
    refine foldlM_range_rule (P := fun n t => t.sentTx = m.send.sentTx ∧ t.log = m.send.log ∧
      ∀ j, j < n → ∀ i, i < ctx.cl.remMachNum →
        t.sendWr (ctx.cl.remMachNum * j + i) = bcastWr ctx.cl m.enableInlining j i)
      maxBcastBatch ⟨rfl, rfl, fun j hj => absurd hj (Nat.not_lt_zero j)⟩ ?_ hloop
    rintro n t t' hn ⟨htx, hlog, hold⟩ hround
    have hinv : t'.sentTx = m.send.sentTx ∧ t'.log = m.send.log ∧
        (∀ j, j < n → ∀ i, i < ctx.cl.remMachNum →
          t'.sendWr (ctx.cl.remMachNum * j + i) = bcastWr ctx.cl m.enableInlining j i) ∧
        ∀ i, i < ctx.cl.remMachNum →
          t'.sendWr (ctx.cl.remMachNum * n + i) = bcastWr ctx.cl m.enableInlining n i := by
      refine forPure_rule (fun k (t' : SendQueue) => t'.sentTx = m.send.sentTx ∧
        t'.log = m.send.log ∧
        (∀ j, j < n → ∀ i, i < ctx.cl.remMachNum →
          t'.sendWr (ctx.cl.remMachNum * j + i) = bcastWr ctx.cl m.enableInlining j i) ∧
        ∀ i, i < k →
          t'.sendWr (ctx.cl.remMachNum * n + i) = bcastWr ctx.cl m.enableInlining n i) hround
        ⟨htx, hlog, hold, fun i hi => absurd hi (Nat.not_lt_zero i)⟩ ?_
      rintro k u hk ⟨htx, hlog, hold, hnew⟩
      have hmes : ctx.cl.messagesInBcast = ctx.cl.remMachNum := rfl
      have hmes' : k < ctx.cl.remMachNum := hk
      refine ⟨htx, hlog, fun j hj i hi => ?_, fun i hi => ?_⟩
      · show Function.update u.sendWr (n * ctx.cl.remMachNum + k) _ _ = _
        rw [Function.update_of_ne, hold j hj i hi]
        intro hc
        have hinj := wr_inj hi hmes' (hc.trans (by rw [Nat.mul_comm]))
        omega
      · show Function.update u.sendWr (n * ctx.cl.remMachNum + k) _ _ = _
        by_cases hik : i = k
        · subst hik
          rw [Nat.mul_comm n, Function.update_self]
          unfold bcastWr
          rw [Cluster.rmidToMid_eq hfit hmes', hmes]
          by_cases hlast : i = ctx.cl.remMachNum - 1
          · simp [hlast]
          · simp [hlast, Nat.mul_comm]
        · rw [Function.update_of_ne, hnew i (by omega)]
          rw [Nat.mul_comm n]
          omega
    obtain ⟨htx', hlog', hold', hnew'⟩ := hinv
    refine ⟨htx', hlog', fun j hj i hi => ?_⟩
    by_cases hjn : j = n
    · subst hjn
      exact hnew' i hi
    · exact hold' j (by omega) i hi

/-! ## A batch under construction -/

/-- The send queue of a broadcast QP, after `n` broadcasts of a batch were forged: the links
    inside the blocks, the links between the blocks so far, and what the work requests carry.
    Only the first of them is ever signaled. -/
structure Building (cl : Cluster) (q : QuorumInfo) (n : Nat) (flagged : Bool) (s : SendQueue) :
    Prop where
  linked : Linked cl (q.activeRmIds cl) s
  joined : ∀ j, j + 1 < n →
    (s.sendWr (cl.remMachNum * j + q.lastActiveRmId)).next
      = some (cl.remMachNum * (j + 1) + q.firstActiveRmId)
  ah : ∀ j, j < maxBcastBatch → ∀ i, i < cl.remMachNum →
    (s.sendWr (cl.remMachNum * j + i)).ah = cl.rmidToMid i
  sgList : ∀ j, j < maxBcastBatch → ∀ i, i < cl.remMachNum →
    (s.sendWr (cl.remMachNum * j + i)).sgList = j
  signaled : ∀ j, j < maxBcastBatch → ∀ i, i < cl.remMachNum →
    (s.sendWr (cl.remMachNum * j + i)).signaled
      = (flagged && cl.remMachNum * j + i == q.firstActiveRmId)

namespace Building

variable {q : QuorumInfo} {n : Nat} {flagged : Bool} {s s' : SendQueue}

/-- After the set-up, with every machine up. -/
theorem init (hall : ∀ rm, rm < cl.remMachNum → q.sendVector rm = true) {inl : Bool}
    (h : ∀ j, j < maxBcastBatch → ∀ i, i < cl.remMachNum →
      s.sendWr (cl.remMachNum * j + i) = bcastWr cl inl j i) : Building cl q 0 false s := by
  have hrms : q.activeRmIds cl = List.range cl.remMachNum := by
    rw [QuorumInfo.activeRmIds, List.filter_eq_self]
    intro rm hrm
    exact hall rm (List.mem_range.mp hrm)
  refine ⟨fun j hj => ?_, fun j hj => absurd hj (Nat.not_lt_zero _), fun j hj i hi => ?_,
    fun j hj i hi => ?_, fun j hj i hi => ?_⟩
  · rw [hrms, block, List.isChain_map, List.isChain_range]
    intro i hi
    rw [h j hj i (by omega), bcastWr, if_neg (by omega), Nat.add_assoc]
  · rw [h j hj i hi]
    rfl
  · rw [h j hj i hi]
    rfl
  · rw [h j hj i hi]
    rfl

/-- A new membership needs new links and nothing else. -/
theorem relink {q' : QuorumInfo} (b : Building cl q 0 false s)
    (hlinked : Linked cl (q'.activeRmIds cl) s') (hrel : Relinks s s') :
    Building cl q' 0 false s' := by
  refine ⟨hlinked, fun j hj => absurd hj (Nat.not_lt_zero _), fun j hj i hi => ?_,
    fun j hj i hi => ?_, fun j hj i hi => ?_⟩
  · rw [hrel.ah, b.ah j hj i hi]
  · rw [hrel.sgList, b.sgList j hj i hi]
  · rw [hrel.signaled, b.signaled j hj i hi]
    rfl

end Building

/-- Some machine is active, and the boundaries are those of the active machines. -/
structure Bounded (cl : Cluster) (q : QuorumInfo) : Prop where
  first : q.firstActiveRmId ∈ (q.activeRmIds cl).head?
  last : q.lastActiveRmId ∈ (q.activeRmIds cl).getLast?

/-- With a quorum some machine is active. -/
theorem Agrees.bounded {up : Nat → Bool} {q : QuorumInfo} (hfit : cl.remMachNum < 2 ^ 8)
    (ha : Agrees cl up q) (hq : cl.remoteQuorum ≤ q.activeNum) : Bounded cl q := by
  have hpos : 0 < (q.activeRmIds cl).length := by
    have hr := cl.remoteQuorum_pos
    rw [← ha.activeNum_eq hfit]
    omega
  constructor
  · rw [ha.first_eq hfit hpos, List.head?_eq_getElem?, List.getElem?_eq_getElem hpos]
    rfl
  · rw [ha.last_eq hfit hpos, List.getLast?_eq_getElem?,
      List.getElem?_eq_getElem (by omega : (q.activeRmIds cl).length - 1 < _)]
    rfl

namespace Bounded

variable {q : QuorumInfo} (bd : Bounded cl q)

include bd

theorem first_lt : q.firstActiveRmId < cl.remMachNum :=
  (QuorumInfo.mem_activeRmIds.mp (List.mem_of_mem_head? bd.first)).1

theorem last_lt : q.lastActiveRmId < cl.remMachNum :=
  (QuorumInfo.mem_activeRmIds.mp (List.mem_of_mem_getLast? bd.last)).1

theorem block_ne (j : Nat) : block cl (q.activeRmIds cl) j ≠ [] := by
  intro hnil
  have hempty : q.activeRmIds cl = [] := List.map_eq_nil_iff.mp hnil
  have hfirst := bd.first
  rw [hempty] at hfirst
  nomatch hfirst

theorem head_block {j x : Nat} (hx : x ∈ (block cl (q.activeRmIds cl) j).head?) :
    x = cl.remMachNum * j + q.firstActiveRmId := by
  rw [block, List.head?_map, Option.mem_def.mp bd.first] at hx
  exact (Option.some.inj hx).symm

theorem getLast_block {j x : Nat} (hx : x ∈ (block cl (q.activeRmIds cl) j).getLast?) :
    x = cl.remMachNum * j + q.lastActiveRmId := by
  rw [block, List.getLast?_map, Option.mem_def.mp bd.last] at hx
  exact (Option.some.inj hx).symm

/-- The last active machine is not linked inside its block, so the links there survive writes to
    it, in any block. -/
theorem ne_last {j k a : Nat} (ha : a ∈ (q.activeRmIds cl).dropLast) :
    cl.remMachNum * j + a ≠ cl.remMachNum * k + q.lastActiveRmId := by
  intro hc
  have hmem := QuorumInfo.mem_activeRmIds.mp (List.dropLast_subset _ ha)
  obtain ⟨hne, heq⟩ := List.mem_getLast?_eq_getLast bd.last
  have hnodup : (q.activeRmIds cl).Nodup := q.activeRmIds_sorted.imp fun h => Nat.ne_of_lt h
  rw [← List.dropLast_append_getLast hne, ← heq] at hnodup
  have hsame := (wr_inj hmem.1 bd.last_lt hc).2
  rw [hsame] at ha
  exact (List.nodup_append'.mp hnodup).2.2 ha (by simp)

end Bounded

/-- A batch visits no work request twice. -/
theorem batch_nodup (q : QuorumInfo) (n : Nat) : (batch cl q n).Nodup := by
  have hlt : ∀ a ∈ q.activeRmIds cl, a < cl.remMachNum := fun a ha =>
    (QuorumInfo.mem_activeRmIds.mp ha).1
  have hnodup : (q.activeRmIds cl).Nodup := q.activeRmIds_sorted.imp fun h => Nat.ne_of_lt h
  rw [batch, List.nodup_flatMap]
  constructor
  · intro j _
    exact (List.nodup_map_iff fun a b h => by simpa using h).mpr hnodup
  · refine List.nodup_range.imp fun {j k} hjk x hx hx' => hjk ?_
    obtain ⟨a, ha, rfl⟩ := List.mem_map.mp hx
    obtain ⟨b, hb, heq⟩ := List.mem_map.mp hx'
    exact (wr_inj (hlt b hb) (hlt a ha) heq).1.symm

theorem length_batch_le (q : QuorumInfo) (n : Nat) :
    (batch cl q n).length ≤ n * cl.remMachNum := by
  have hle : (q.activeRmIds cl).length ≤ cl.remMachNum := by
    have h := List.length_filter_le q.sendVector (List.range cl.remMachNum)
    rwa [List.length_range] at h
  induction n with
  | zero => exact Nat.zero_le _
  | succ n ih =>
    have hsplit : batch cl q (n + 1) = batch cl q n ++ block cl (q.activeRmIds cl) n := by
      simp [batch, List.range_succ]
    have hblock : (block cl (q.activeRmIds cl) n).length = (q.activeRmIds cl).length :=
      List.length_map ..
    rw [hsplit, List.length_append, hblock, Nat.succ_mul]
    omega

/-! ## Forging and posting -/

/-- What `form_bcast_links` does to the queue. -/
structure Formed (cl : Cluster) (q : QuorumInfo) (ssBatch brI : Nat) (s s' : SendQueue) : Prop where
  next : ∀ i, (s'.sendWr i).next =
    if 0 < brI ∧ i = SendQueue.getLastMessageOfBcast cl q brI then
      some (SendQueue.getFirstMessageOfNextBcast cl q brI) else (s.sendWr i).next
  ah : ∀ i, (s'.sendWr i).ah = (s.sendWr i).ah
  sgList : ∀ i, (s'.sendWr i).sgList = (s.sendWr i).sgList
  signaled : ∀ i, (s'.sendWr i).signaled =
    ((s.sendWr i).signaled || (s.sentTx % ssBatch == 0 && i == SendQueue.getFirstMesOfBcast q))
  tx : s'.sentTx = u64 (s.sentTx + 1)
  log : s'.log = s.log ++ (if s.sentTx % ssBatch = 0 then [.flagged] else [])
    ++ (if u64 (s.sentTx + 1) % ssBatch = ssBatch - 1 then [.polled] else [])
  /-- a poll finds a completion -/
  poll : u64 (s.sentTx + 1) % ssBatch = ssBatch - 1 → polls s.log < completions s.log

/-- A poll takes a completion, or waits. -/
theorem SendQueue.pollCq_ends {E : Stuck → Prop} (s : SendQueue)
    (hE : E .waiting ∨ polls s.log < completions s.log) :
    Ends E s.pollCq fun s' =>
      s' = { s with log := s.log ++ [.polled] } ∧ polls s.log < completions s.log := by
  unfold SendQueue.pollCq
  split
  · rename_i hcomp
    exact ⟨rfl, hcomp⟩
  · rename_i hcomp
    rcases hE with hE | hE
    · exact hE
    · exact absurd hE hcomp

theorem formBcastLinks_ends {E : Stuck → Prop} {q : QuorumInfo} {ssBatch brI : Nat}
    (s : SendQueue) (hE : E .waiting ∨
      (u64 (s.sentTx + 1) % ssBatch = ssBatch - 1 → polls s.log < completions s.log)) :
    Ends E (s.formBcastLinks cl q ssBatch brI) (Formed cl q ssBatch brI s) := by
  -- first the flag, then the counter
  obtain ⟨s₁, hs₁⟩ : ∃ s₁, s₁ = (if s.sentTx % ssBatch = 0 then
      s.flagSignaled (SendQueue.getFirstMesOfBcast q) else s).incrSentTx := ⟨_, rfl⟩
  have hflag : (∀ i, (s₁.sendWr i).next = (s.sendWr i).next ∧
      (s₁.sendWr i).ah = (s.sendWr i).ah ∧ (s₁.sendWr i).sgList = (s.sendWr i).sgList ∧
      (s₁.sendWr i).signaled = ((s.sendWr i).signaled ||
        (s.sentTx % ssBatch == 0 && i == SendQueue.getFirstMesOfBcast q))) ∧
      s₁.sentTx = u64 (s.sentTx + 1) ∧
      s₁.log = s.log ++ (if s.sentTx % ssBatch = 0 then [.flagged] else []) ∧
      polls s₁.log = polls s.log ∧ completions s₁.log = completions s.log := by
    rw [hs₁]
    by_cases h0 : s.sentTx % ssBatch = 0
    · rw [if_pos h0, if_pos h0]
      refine ⟨fun i => ?_, rfl, rfl, ?_, ?_⟩
      · by_cases hi : i = SendQueue.getFirstMesOfBcast q
        · subst hi
          simp [SendQueue.flagSignaled, SendQueue.incrSentTx, h0]
        · simp [SendQueue.flagSignaled, SendQueue.incrSentTx, hi]
      · show polls (s.log ++ [.flagged]) = _
        rw [polls_append]
        rfl
      · show completions (s.log ++ [.flagged]) = _
        rw [completions_append]
        rfl
    · rw [if_neg h0, if_neg h0, List.append_nil]
      refine ⟨fun i => ⟨rfl, rfl, rfl, ?_⟩, rfl, rfl, rfl, rfl⟩
      rw [beq_eq_false_iff_ne.mpr h0, Bool.false_and, Bool.or_false]
      rfl
  obtain ⟨hwr, htx, hlog, hpolls, hcomps⟩ := hflag
  -- then the poll
  have hpoll : Ends E (if s₁.sentTx % ssBatch = ssBatch - 1 then s₁.pollCq else pure s₁)
      fun s₂ => s₂ = { s₁ with
        log := s₁.log ++ (if s₁.sentTx % ssBatch = ssBatch - 1 then [.polled] else []) } ∧
        (s₁.sentTx % ssBatch = ssBatch - 1 → polls s.log < completions s.log) := by
    by_cases hp : s₁.sentTx % ssBatch = ssBatch - 1
    · rw [if_pos hp, if_pos hp]
      refine (s₁.pollCq_ends ?_).mono fun s₂ h => ⟨h.1, fun _ => ?_⟩
      · rw [hpolls, hcomps]
        rw [htx] at hp
        exact hE.imp id (fun h => h hp)
      · rw [← hpolls, ← hcomps]
        exact h.2
    · rw [if_neg hp, if_neg hp, List.append_nil]
      exact ⟨rfl, fun h => absurd h hp⟩
  have hform : s.formBcastLinks cl q ssBatch brI =
      ((if s₁.sentTx % ssBatch = ssBatch - 1 then s₁.pollCq else pure s₁) >>= fun s => pure
        (if 0 < brI then s.lastMesOfBcastPointToFrstMesOfNextBcast cl q brI else s)) := by
    rw [hs₁]
    rfl
  rw [hform]
  refine hpoll.bind ?_
  rintro s₂ ⟨rfl, hcomp⟩
  rw [htx] at hcomp
  by_cases hbr : 0 < brI
  · rw [if_pos hbr]
    refine Ends.ok ⟨fun i => ?_, fun i => ?_, fun i => ?_, fun i => ?_, htx, ?_, hcomp⟩
    · by_cases hi : i = SendQueue.getLastMessageOfBcast cl q brI
      · have hlink : 0 < brI ∧ i = SendQueue.getLastMessageOfBcast cl q brI := ⟨hbr, hi⟩
        rw [if_pos hlink, hi]
        exact SendQueue.next_setNext_self ..
      · have hkeep : ¬ (0 < brI ∧ i = SendQueue.getLastMessageOfBcast cl q brI) :=
          fun h => hi h.2
        rw [if_neg hkeep, ← (hwr i).1]
        exact SendQueue.next_setNext_ne _ _ hi
    · rw [← (hwr i).2.1]
      exact (Relinks.setNext _ _ _).ah i
    · rw [← (hwr i).2.2.1]
      exact (Relinks.setNext _ _ _).sgList i
    · rw [← (hwr i).2.2.2]
      exact (Relinks.setNext _ _ _).signaled i
    · show s₁.log ++ _ = _
      rw [hlog, htx]
  · rw [if_neg hbr]
    refine Ends.ok ⟨fun i => ?_, fun i => (hwr i).2.1, fun i => (hwr i).2.2.1,
      fun i => (hwr i).2.2.2, htx, ?_, hcomp⟩
    · have hkeep : ¬ (0 < brI ∧ i = SendQueue.getLastMessageOfBcast cl q brI) :=
        fun h => hbr h.1
      rw [if_neg hkeep]
      exact (hwr i).1
    · show s₁.log ++ _ = _
      rw [hlog, htx]

namespace Building

variable {q : QuorumInfo} {n : Nat} {flagged : Bool} {s s' : SendQueue}

/-- **Forging** one more broadcast. -/
theorem forge {ssBatch : Nat} {sge : Sge} (b : Building cl q n flagged s) (bd : Bounded cl q)
    (hf : Formed cl q ssBatch n (s.setSge n sge) s') :
    Building cl q (n + 1) (flagged || s.sentTx % ssBatch == 0) s' := by
  have hlast : SendQueue.getLastMessageOfBcast cl q n
      = cl.remMachNum * (n - 1) + q.lastActiveRmId := by
    rw [Nat.mul_comm]
    rfl
  have hfirst : SendQueue.getFirstMessageOfNextBcast cl q n
      = cl.remMachNum * n + q.firstActiveRmId := by
    rw [Nat.mul_comm]
    rfl
  refine ⟨?_, fun j hj => ?_, fun j hj i hi => ?_, fun j hj i hi => ?_, fun j hj i hi => ?_⟩
  · refine b.linked.congr fun j _ a ha => ?_
    rw [hf.next, if_neg]
    · rfl
    · rintro ⟨-, hc⟩
      rw [hlast] at hc
      exact bd.ne_last ha hc
  · by_cases hjn : j + 1 = n
    · subst hjn
      rw [hf.next, if_pos ⟨by omega, by rw [hlast]; rfl⟩, hfirst]
    · rw [hf.next, if_neg]
      · exact b.joined j (by omega)
      · rintro ⟨hpos, hc⟩
        rw [hlast] at hc
        have hinj := wr_inj bd.last_lt bd.last_lt hc
        omega
  · rw [hf.ah]
    exact b.ah j hj i hi
  · rw [hf.sgList]
    exact b.sgList j hj i hi
  · have hold : ((s.setSge n sge).sendWr (cl.remMachNum * j + i)).signaled
        = (flagged && cl.remMachNum * j + i == q.firstActiveRmId) := b.signaled j hj i hi
    have htx : (s.setSge n sge).sentTx = s.sentTx := rfl
    have hmes : SendQueue.getFirstMesOfBcast q = q.firstActiveRmId := rfl
    rw [hf.signaled, hold, htx, hmes, Bool.and_or_distrib_right]

/-- The chain that a batch is posted as. -/
theorem follows (b : Building cl q n flagged s) (bd : Bounded cl q) (hpos : 0 < n)
    (hn : n ≤ maxBcastBatch) :
    Follows (fun i =>
      ((s.setNext (cl.remMachNum * (n - 1) + q.lastActiveRmId) none).sendWr i).next)
      (some q.firstActiveRmId) (batch cl q n) := by
  obtain ⟨k, rfl⟩ : ∃ k, n = k + 1 := ⟨n - 1, by omega⟩
  -- the batch begins with the first work request and ends with the one that points to NULL
  obtain ⟨l, hbatch⟩ : ∃ l, batch cl q (k + 1) = q.firstActiveRmId :: l := by
    obtain ⟨x, l, hx⟩ := List.exists_cons_of_ne_nil (bd.block_ne 0)
    have hhead : x = cl.remMachNum * 0 + q.firstActiveRmId := bd.head_block (by rw [hx]; rfl)
    refine ⟨l ++ ((List.range k).map Nat.succ).flatMap (block cl (q.activeRmIds cl)), ?_⟩
    rw [batch, List.range_succ_eq_map, List.flatMap_cons, hx, hhead, Nat.mul_zero, Nat.zero_add]
    rfl
  have hend : (batch cl q (k + 1)).getLast? = some (cl.remMachNum * k + q.lastActiveRmId) := by
    rw [batch, List.range_succ, List.flatMap_append, List.flatMap_singleton,
      List.getLast?_append_of_ne_nil _ (bd.block_ne k), block, List.getLast?_map,
      Option.mem_def.mp bd.last]
    rfl
  have hchain : (batch cl q (k + 1)).IsChain (fun a b =>
      ((s.setNext (cl.remMachNum * k + q.lastActiveRmId) none).sendWr a).next = some b) := by
    refine isChain_flatMap_range (k + 1) bd.block_ne ?_ ?_
    · intro j hj
      refine b.linked.congr (fun j _ a ha => ?_) j (by omega)
      exact SendQueue.next_setNext_ne _ _ (bd.ne_last ha)
    · intro j hj x hx y hy
      rw [bd.getLast_block hx, bd.head_block hy, SendQueue.next_setNext_ne]
      · exact b.joined j hj
      · intro hc
        have hinj := wr_inj bd.last_lt bd.last_lt hc
        omega
  rw [hbatch] at hchain hend ⊢
  refine follows_of_isChain hchain ?_
  have hlast := List.getLast?_eq_some_getLast (List.cons_ne_nil q.firstActiveRmId l)
  rw [hend] at hlast
  rw [← Option.some.inj hlast]
  exact SendQueue.next_setNext_self ..

/-- What a chain of `n` broadcasts is when it is posted: its work requests in order, the broadcast
    and the machine of each, and a signaled one among them if the batch has been flagged. -/
structure IsBatch (cl : Cluster) (q : QuorumInfo) (n : Nat) (flagged : Bool)
    (chain : List Posted) : Prop where
  wrs : chain.map (·.wr) = batch cl q n
  targets : chain.map (fun p => (p.sgList, p.ah)) =
    (List.range n).flatMap fun br => (q.activeRmIds cl).map fun rm => (br, cl.rmidToMid rm)
  signaled : flagged = true → 0 < signals chain

/-- **Posting** a batch: the chain visits exactly the work requests of the active machines. -/
theorem post {sendWrNum : Nat} (inl : Bool) (b : Building cl q n flagged s) (bd : Bounded cl q)
    (hpos : 0 < n) (hn : n ≤ maxBcastBatch) (hroom : 4 * cl.remMachNum ≤ sendWrNum) :
    ∃ s' chain, s.postQuorumBroadcasts cl q sendWrNum n inl = .ok s' ∧
      Building cl q 0 false s' ∧ IsBatch cl q n flagged chain ∧
      s'.sentTx = s.sentTx ∧ s'.log = s.log ++ [.posted n chain] := by
  have hlast : SendQueue.getLastMessageOfBcast cl q n
      = cl.remMachNum * (n - 1) + q.lastActiveRmId := by
    rw [Nat.mul_comm]
    rfl
  have hrel := Relinks.setNext s (cl.remMachNum * (n - 1) + q.lastActiveRmId) none
  have hmem : ∀ a ∈ q.activeRmIds cl, a < cl.remMachNum := fun a ha =>
    (QuorumInfo.mem_activeRmIds.mp ha).1
  have h4 : maxBcastBatch = 4 := rfl
  have hlen : (batch cl q n).length ≤ sendWrNum := by
    have hle : (batch cl q n).length ≤ n * cl.remMachNum := length_batch_le q n
    have hmul : n * cl.remMachNum ≤ 4 * cl.remMachNum := Nat.mul_le_mul_right _ (by omega)
    omega
  have hwalk := follow_of_follows (b.follows bd hpos hn) hlen
  let s₁ := s.setNext (cl.remMachNum * (n - 1) + q.lastActiveRmId) none
  let chain := (batch cl q n).map s₁.posted
  refine ⟨({ s₁ with log := s₁.log ++ [.posted n chain] } : SendQueue).setFlags
    q.firstActiveRmId inl, chain, ?_, ?_, ⟨?_, ?_, ?_⟩, ?_, rfl⟩
  · unfold SendQueue.postQuorumBroadcasts SendQueue.ibvPostSend
    rw [hlast, show SendQueue.getFirstMesOfBcast q = q.firstActiveRmId from rfl]
    dsimp only
    rw [hwalk]
    rfl
  · -- the first work request is set up again, so that nothing is signaled
    have hset : ∀ i, (({ s₁ with log := s₁.log ++ [.posted n chain] } : SendQueue).setFlags
        q.firstActiveRmId inl).sendWr i = if i = q.firstActiveRmId then
          { s₁.sendWr i with inlined := inl, signaled := false } else s₁.sendWr i := by
      intro i
      by_cases hi : i = q.firstActiveRmId
      · subst hi
        simp [SendQueue.setFlags]
      · simp [SendQueue.setFlags, hi]
    refine ⟨?_, fun j hj => absurd hj (Nat.not_lt_zero _), fun j hj i hi => ?_,
      fun j hj i hi => ?_, fun j hj i hi => ?_⟩
    · refine b.linked.congr fun j _ a ha => ?_
      have hnext : ∀ i, ((({ s₁ with log := s₁.log ++ [.posted n chain] } : SendQueue).setFlags
          q.firstActiveRmId inl).sendWr i).next = (s₁.sendWr i).next := by
        intro i
        rw [hset]
        split <;> rfl
      rw [hnext]
      exact SendQueue.next_setNext_ne _ _ (bd.ne_last ha)
    · have hkeep : ((({ s₁ with log := s₁.log ++ [.posted n chain] } : SendQueue).setFlags
          q.firstActiveRmId inl).sendWr (cl.remMachNum * j + i)).ah
          = (s₁.sendWr (cl.remMachNum * j + i)).ah := by
        rw [hset]
        split <;> rfl
      rw [hkeep, hrel.ah]
      exact b.ah j hj i hi
    · have hkeep : ((({ s₁ with log := s₁.log ++ [.posted n chain] } : SendQueue).setFlags
          q.firstActiveRmId inl).sendWr (cl.remMachNum * j + i)).sgList
          = (s₁.sendWr (cl.remMachNum * j + i)).sgList := by
        rw [hset]
        split <;> rfl
      rw [hkeep, hrel.sgList]
      exact b.sgList j hj i hi
    · rw [hset]
      split
      · rfl
      · rename_i hne
        rw [hrel.signaled, b.signaled j hj i hi, beq_eq_false_iff_ne.mpr hne, Bool.and_false]
        rfl
  · rw [List.map_map]
    exact List.map_id'' (fun _ => rfl) _
  · rw [List.map_map, batch, List.map_flatMap]
    have hblock : ∀ j ∈ List.range n, (block cl (q.activeRmIds cl) j).map
        ((fun p : Posted => (p.sgList, p.ah)) ∘ s₁.posted)
        = (q.activeRmIds cl).map fun rm => (j, cl.rmidToMid rm) := by
      intro j hj
      rw [block, List.map_map]
      apply List.map_congr_left
      intro i hi
      have hjlt : j < maxBcastBatch := by have := List.mem_range.mp hj; omega
      show ((s₁.sendWr (cl.remMachNum * j + i)).sgList, (s₁.sendWr (cl.remMachNum * j + i)).ah) = _
      rw [hrel.ah, hrel.sgList, b.ah j hjlt i (hmem i hi), b.sgList j hjlt i (hmem i hi)]
    exact List.flatMap_congr hblock
  · intro hflag
    refine List.countP_pos_iff.mpr ⟨s₁.posted q.firstActiveRmId, List.mem_map.mpr
      ⟨q.firstActiveRmId, ?_, rfl⟩, ?_⟩
    · refine List.mem_flatMap.mpr ⟨0, List.mem_range.mpr hpos, List.mem_map.mpr
        ⟨q.firstActiveRmId, List.mem_of_mem_head? bd.first, ?_⟩⟩
      omega
    · show (s₁.sendWr q.firstActiveRmId).signaled = true
      have hsig := b.signaled 0 (by omega) q.firstActiveRmId bd.first_lt
      rw [Nat.mul_zero, Nat.zero_add] at hsig
      rw [hrel.signaled, hsig, hflag]
      simp
  · exact hrel.tx

end Building

end Odyssey
