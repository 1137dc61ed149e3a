/-
  HOW THE CLIENTS THAT REPLAY A TRACE BEGIN: `init_clt_trace`.

  The sessions of a machine are dealt out to its clients, `SESSIONS_PER_CLIENT` to each (`Owns`),
  and what is left over nobody has.  Two sessions have two places in the interface (`place_inj`), and a
  client prepares the slots of its own sessions and touches no other (`Fits.initCltTrace_spec`).
-/
import Odyssey.TraceRings

namespace Odyssey

open Lib

namespace TraceFeed

variable {f : TraceFeed}

/-! ## The sessions of a client -/

/-- Session `g` is one of client `tId`. -/
def Owns (f : TraceFeed) (tId g : Nat) : Prop := g / f.sessionsPerClient = tId

theorem sessionsPerClient_pos (f : TraceFeed) : 0 < f.sessionsPerClient :=
  Nat.lt_of_lt_of_le Nat.zero_lt_one (Nat.le_max_left ..)

/-- What `init_clt_trace` puts into `tr_info`. -/
def info (f : TraceFeed) (tId : Nat) : CltTrace :=
  let first := tId * f.sessionsPerClient
  let last := first + (f.sessionsPerClient - 1)
  { sessOffset := first
    minSess := first
    minWrkr := first / f.sessionsPerThread
    maxSess := last
    maxWrkr := last / f.sessionsPerThread
    workerNum := u16 (1 + last / f.sessionsPerThread - first / f.sessionsPerThread) }

theorem owns_iff {tId g : Nat} :
    f.Owns tId g ↔ (f.info tId).minSess ≤ g ∧ g ≤ (f.info tId).maxSess := by
  have hpos := f.sessionsPerClient_pos
  unfold Owns
  rw [Nat.div_eq_iff hpos]
  show _ ↔ tId * f.sessionsPerClient ≤ g ∧
    g ≤ tId * f.sessionsPerClient + (f.sessionsPerClient - 1)
  omega

section Layout

variable (h : f.Fits)
include h

/-- All sessions of the clients are sessions of the machine. -/
theorem Fits.last_lt {tId : Nat} (ht : tId < f.clientsPerMachine) :
    tId * f.sessionsPerClient + f.sessionsPerClient ≤ f.conf.sessionsPerMachine := by
  have hclients := h.clients
  have hshare : f.sessionsPerClient = f.conf.sessionsPerMachine / f.clientsPerMachine := by
    have hone : 1 ≤ f.conf.sessionsPerMachine / f.clientsPerMachine :=
      (Nat.one_le_div_iff (by omega)).mpr hclients
    exact Nat.max_eq_right hone
  calc tId * f.sessionsPerClient + f.sessionsPerClient
      = (tId + 1) * f.sessionsPerClient := by rw [Nat.add_mul, Nat.one_mul]
    _ ≤ f.clientsPerMachine * f.sessionsPerClient := Nat.mul_le_mul_right _ ht
    _ ≤ f.conf.sessionsPerMachine := by
        rw [hshare]
        exact Nat.mul_div_le ..

theorem Fits.session_lt {tId g : Nat} (ht : tId < f.clientsPerMachine) (hg : f.Owns tId g) :
    g < 2 ^ 16 := by
  have hlast := h.last_lt ht
  have hsess := h.sessions
  have hpos := f.sessionsPerClient_pos
  have hmax : g ≤ tId * f.sessionsPerClient + (f.sessionsPerClient - 1) := (owns_iff.mp hg).2
  omega

/-- The assertion of `init_clt_trace` holds, and nothing wraps. -/
theorem Fits.cltTrace_eq {tId : Nat} (ht : tId < f.clientsPerMachine) :
    f.cltTrace tId = .ok (f.info tId) := by
  have hlast := h.last_lt ht
  have hsess := h.sessions
  have hpos := f.sessionsPerClient_pos
  have hdiv : ∀ x < 2 ^ 16, u16 (x / f.sessionsPerThread) = x / f.sessionsPerThread := fun x hx =>
    u16_of_lt (Nat.lt_of_le_of_lt (Nat.div_le_self ..) hx)
  have hfirst : u16 (tId * f.sessionsPerClient) = tId * f.sessionsPerClient := u16_of_lt (by omega)
  have hmax : u16 (tId * f.sessionsPerClient + (f.sessionsPerClient - 1))
      = tId * f.sessionsPerClient + (f.sessionsPerClient - 1) := u16_of_lt (by omega)
  unfold cltTrace info
  dsimp only
  rw [hfirst, hmax, if_neg (by omega), hdiv _ (by omega), hdiv _ (by omega)]
  rfl

end Layout

/-- The place of a session. -/
theorem wrkr_eq {g : Nat} (hg : g < 2 ^ 16) : f.wrkr g = g / f.sessionsPerThread :=
  u16_of_lt (Nat.lt_of_le_of_lt (Nat.div_le_self ..) hg)

theorem sI_eq {g : Nat} (hg : g < 2 ^ 16) : f.sI g = g % f.sessionsPerThread :=
  u16_of_lt (Nat.lt_of_le_of_lt (Nat.mod_le ..) hg)

/-- Two sessions have two places. -/
theorem place_inj {g g' : Nat} (hg : g < 2 ^ 16) (hg' : g' < 2 ^ 16)
    (h : (f.wrkr g, f.sI g) = (f.wrkr g', f.sI g')) : g = g' := by
  rw [wrkr_eq hg, wrkr_eq hg', sI_eq hg, sI_eq hg'] at h
  obtain ⟨hdiv, hmod⟩ := Prod.mk.inj h
  rw [← Nat.div_add_mod g f.sessionsPerThread, hdiv, hmod, Nat.div_add_mod]

theorem set_at (interface : Interface) (w i w' i' : Nat) (s : Session) :
    interface.set w i s w' i' = if (w', i') = (w, i) then s else interface w' i' := by
  unfold Interface.set
  by_cases hw : w' = w
  · subst hw
    rw [Function.update_self]
    by_cases hi : i' = i
    · rw [hi, Function.update_self, if_pos rfl]
    · rw [Function.update_of_ne hi, if_neg fun hc => hi (Prod.mk.inj hc).2]
  · rw [Function.update_of_ne hw, if_neg fun hc => hw (Prod.mk.inj hc).1]

/-! ## init_clt_trace -/

/-- The buffer that the slots of a session get. -/
def buffer (f : TraceFeed) (tId g : Nat) : Nat := f.valuePtr tId (f.wrkr g - (f.info tId).minWrkr)

/-- The loop over the sessions: each of them is prepared, and nothing else changes. -/
theorem foldlM_initSession {tId : Nat} {gs : List Nat} (hnd : gs.Nodup)
    (hgs : ∀ g ∈ gs, g < 2 ^ 16 ∧ (f.info tId).minWrkr ≤ f.wrkr g ∧
      f.wrkr g ≤ (f.info tId).maxWrkr ∧
      f.wrkr g - (f.info tId).minWrkr < (f.info tId).workerNum) :
    ∀ interface : Interface, ∃ interface', gs.foldlM (f.initSession tId (f.info tId)) interface
        = .ok interface' ∧
      (∀ g ∈ gs, f.session interface' g = f.initSlots (f.session interface g) (f.buffer tId g)) ∧
      ∀ w i, (∀ g ∈ gs, (w, i) ≠ (f.wrkr g, f.sI g)) → interface' w i = interface w i := by
  induction gs with
  | nil => exact fun interface => ⟨interface, rfl, fun _ hg => (List.not_mem_nil hg).elim,
      fun _ _ _ => rfl⟩
  | cons g gs ih =>
    intro interface
    obtain ⟨hnot, hnd⟩ := List.nodup_cons.mp hnd
    obtain ⟨hlt, hmin, hmax, hmod⟩ := hgs g List.mem_cons_self
    have hround : f.initSession tId (f.info tId) interface g = .ok (f.setSession interface g
        (f.initSlots (f.session interface g) (f.buffer tId g))) := by
      unfold initSession
      dsimp only
      rw [if_neg (not_not.mpr ⟨hmin, hmax⟩), if_neg (not_not.mpr hmod)]
      rfl
    obtain ⟨interface', hfold, hin, hout⟩ := ih hnd (fun g' hg' =>
      hgs g' (List.mem_cons_of_mem _ hg')) (f.setSession interface g
        (f.initSlots (f.session interface g) (f.buffer tId g)))
    refine ⟨interface', ?_, ?_, ?_⟩
    · rw [List.foldlM_cons, hround]
      exact hfold
    · intro g' hg'
      rcases List.mem_cons.mp hg' with rfl | hg'
      · have hme := hout (f.wrkr g') (f.sI g') fun g'' hg'' hc => hnot (by
          rw [place_inj hlt (hgs g'' (List.mem_cons_of_mem _ hg'')).1 hc]
          exact hg'')
        show interface' (f.wrkr g') (f.sI g') = _
        rw [hme, setSession, set_at, if_pos rfl]
      · rw [hin g' hg']
        have hne : g' ≠ g := fun hc => hnot (hc ▸ hg')
        have hlt' := (hgs g' (List.mem_cons_of_mem _ hg')).1
        have hplace : f.session (f.setSession interface g (f.initSlots (f.session interface g)
            (f.buffer tId g))) g' = f.session interface g' := by
          show f.setSession interface g _ (f.wrkr g') (f.sI g') = _
          rw [setSession, set_at, if_neg fun hc => hne (place_inj hlt' hlt hc)]
          rfl
        rw [hplace]
    · intro w i hne
      rw [hout w i fun g' hg' => hne g' (List.mem_cons_of_mem _ hg'), setSession, set_at,
        if_neg (hne g List.mem_cons_self)]

/-- **What `init_clt_trace` does.** -/
theorem Fits.initCltTrace_spec (h : f.Fits) {tId : Nat} (ht : tId < f.clientsPerMachine)
    (interface : Interface) : ∃ interface',
      f.initCltTrace tId interface = .ok (f.info tId, interface') ∧
      (∀ g, f.Owns tId g →
        f.session interface' g = f.initSlots (f.session interface g) (f.buffer tId g)) ∧
      ∀ w i, (∀ g, f.Owns tId g → (w, i) ≠ (f.wrkr g, f.sI g)) →
        interface' w i = interface w i := by
  have hmem : ∀ g, g ∈ List.range' (f.info tId).minSess
      ((f.info tId).maxSess + 1 - (f.info tId).minSess) ↔ f.Owns tId g := by
    intro g
    rw [List.mem_range'_1, owns_iff]
    omega
  have hgs : ∀ g, f.Owns tId g → g < 2 ^ 16 ∧ (f.info tId).minWrkr ≤ f.wrkr g ∧
      f.wrkr g ≤ (f.info tId).maxWrkr ∧
      f.wrkr g - (f.info tId).minWrkr < (f.info tId).workerNum := by
    intro g hg
    have hlt := h.session_lt ht hg
    have hlast : (f.info tId).maxSess + 1 < 2 ^ 16 := by
      have hend := h.last_lt ht
      have hsess := h.sessions
      have hpos := f.sessionsPerClient_pos
      show tId * f.sessionsPerClient + (f.sessionsPerClient - 1) + 1 < 2 ^ 16
      omega
    obtain ⟨hmin, hmax⟩ := owns_iff.mp hg
    have hlow : (f.info tId).minWrkr ≤ f.wrkr g := by
      rw [wrkr_eq hlt]
      exact Nat.div_le_div_right hmin
    have hhigh : f.wrkr g ≤ (f.info tId).maxWrkr := by
      rw [wrkr_eq hlt]
      exact Nat.div_le_div_right hmax
    refine ⟨hlt, hlow, hhigh, ?_⟩
    have hnum : (f.info tId).workerNum
        = u16 (1 + (f.info tId).maxWrkr - (f.info tId).minWrkr) := rfl
    have hmaxWrkr : (f.info tId).maxWrkr ≤ (f.info tId).maxSess := Nat.div_le_self ..
    rw [hnum, u16_of_lt (by omega)]
    omega
  obtain ⟨interface', hfold, hin, hout⟩ := foldlM_initSession (List.nodup_range' ..)
    (fun g hg => hgs g ((hmem g).mp hg)) interface
  refine ⟨interface', ?_, fun g hg => hin g ((hmem g).mpr hg),
    fun w i hne => hout w i fun g hg => hne g ((hmem g).mp hg)⟩
  unfold initCltTrace
  rw [h.cltTrace_eq ht]
  dsimp only [bind, Except.bind] at hfold ⊢
  rw [hfold]
  rfl

end TraceFeed

end Odyssey
