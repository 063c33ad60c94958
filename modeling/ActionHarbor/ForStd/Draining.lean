import ActionHarbor.ForStd.Transition

/-!
# Runs that come to rest

Labels that lower a measure cannot go on for ever. A system in which one of them is
enabled as long as there is something left to do finishes, whatever order they are
taken in.

## Key results

- `Drains.length_add`: a draining run is as long as the measure falls
- `Drains.exists_rest`: every state leads to one at rest
- `Drains.rest_of_stuck`: so does every draining run that cannot go on
-/

namespace Transition

variable {σ ε : Type*}

/-- The labels in `D` lower the measure `μ` by one, among the states with `I`; while a
    state is not at rest, one of them is enabled. -/
structure Drains (step : σ → ε → Option σ) (I : σ → Prop) (D : ε → Prop) (μ : σ → ℕ)
    (Rest : σ → Prop) : Prop where
  keeps : ∀ s e s', I s → D e → step s e = some s' → I s'
  lowers : ∀ s e s', I s → D e → step s e = some s' → μ s' + 1 = μ s
  progress : ∀ s, I s → ¬Rest s → ∃ e s', D e ∧ step s e = some s'

namespace Drains
variable {step : σ → ε → Option σ} {I : σ → Prop} {D : ε → Prop} {μ : σ → ℕ} {Rest : σ → Prop}

/-- What every label keeps, a run keeps. -/
theorem run_keeps (h : Drains step I D μ Rest) {s t : σ} {es : List ε} (hs : I s)
    (hD : ∀ e ∈ es, D e) (hrun : run step s es = some t) : I t := by
  induction es generalizing s with
  | nil =>
    rw [run_nil, Option.some.injEq] at hrun
    exact hrun ▸ hs
  | cons e es ih =>
    obtain ⟨m, hm, hrest⟩ := run_cons_eq_some.mp hrun
    have hDe : D e := hD e List.mem_cons_self
    exact ih (h.keeps s e m hs hDe hm) (fun d hd => hD d (List.mem_cons_of_mem e hd)) hrest

/-- A draining run is as long as the measure falls. -/
theorem length_add (h : Drains step I D μ Rest) {s t : σ} {es : List ε} (hs : I s)
    (hD : ∀ e ∈ es, D e) (hrun : run step s es = some t) : es.length + μ t = μ s := by
  induction es generalizing s with
  | nil =>
    rw [run_nil, Option.some.injEq] at hrun
    rw [hrun, List.length_nil, Nat.zero_add]
  | cons e es ih =>
    obtain ⟨m, hm, hrest⟩ := run_cons_eq_some.mp hrun
    have hDe : D e := hD e List.mem_cons_self
    have hlowers := h.lowers s e m hs hDe hm
    have hlength := ih (h.keeps s e m hs hDe hm) (fun d hd => hD d (List.mem_cons_of_mem e hd)) hrest
    rw [List.length_cons]
    omega

/-- Every state leads to one at rest. The induction is on the measure. -/
theorem exists_rest (h : Drains step I D μ Rest) {s : σ} (hs : I s) :
    ∃ es t, (∀ e ∈ es, D e) ∧ run step s es = some t ∧ Rest t := by
  induction hn : μ s generalizing s with
  | zero =>
    refine ⟨[], s, by simp, rfl, ?_⟩
    by_contra hrest
    obtain ⟨e, s', hDe, hstep⟩ := h.progress s hs hrest
    have hlowers := h.lowers s e s' hs hDe hstep
    omega
  | succ n ih =>
    by_cases hrest : Rest s
    · exact ⟨[], s, by simp, rfl, hrest⟩
    · obtain ⟨e, s', hDe, hstep⟩ := h.progress s hs hrest
      have hlowers := h.lowers s e s' hs hDe hstep
      obtain ⟨es, t, hD, hrun, ht⟩ := ih (h.keeps s e s' hs hDe hstep) (by omega)
      refine ⟨e :: es, t, ?_, run_cons_eq_some.mpr ⟨s', hstep, hrun⟩, ht⟩
      rintro d (_ | ⟨_, hd⟩)
      · exact hDe
      · exact hD d hd

/-- A draining run that cannot go on has come to rest. -/
theorem rest_of_stuck (h : Drains step I D μ Rest) {s t : σ} {es : List ε} (hs : I s)
    (hD : ∀ e ∈ es, D e) (hrun : run step s es = some t)
    (hstuck : ∀ e, D e → step t e = none) : Rest t := by
  by_contra hrest
  obtain ⟨e, t', hDe, hstep⟩ := h.progress t (h.run_keeps hs hD hrun) hrest
  cases (hstuck e hDe).symm.trans hstep

end Drains

end Transition
