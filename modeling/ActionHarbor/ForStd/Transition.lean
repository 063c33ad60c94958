import Mathlib.Data.List.Infix

/-!
# Runs of labelled partial steps

Generic facts about systems given by a partial step function `σ → ε → Option σ`:
a label that is not enabled yields `none`. Runs are lists of labels.

## Key results

- `run_invariant`: a property every step keeps holds after every run
- `run_invariant_of_meets`: the same for runs whose steps meet a side condition
- `forall_prefix_iff_meets`: the same as an equivalence, where each step decides
- `run_rel`: a preorder every step respects relates the two ends of a run
- `run_simulation`: a step-by-step simulation carries runs over
-/

namespace Transition

variable {σ ε τ δ : Type*}

/-- Follow the labels in order; `none` when one of them is not enabled. -/
def run (step : σ → ε → Option σ) : σ → List ε → Option σ
  | s, [] => some s
  | s, e :: es => (step s e).bind fun s' => run step s' es

variable {step : σ → ε → Option σ}

@[simp] theorem run_nil (s : σ) : run step s [] = some s := rfl

/-- The first step of a run. -/
theorem run_cons_eq_some {s t : σ} {e : ε} {es : List ε} :
    run step s (e :: es) = some t ↔ ∃ m, step s e = some m ∧ run step m es = some t := by
  simp only [run, Option.bind_eq_some_iff]

/-- Split a run at any point. -/
theorem run_append_eq_some {s t : σ} {es fs : List ε} :
    run step s (es ++ fs) = some t ↔ ∃ m, run step s es = some m ∧ run step m fs = some t := by
  induction es generalizing s with
  | nil => simp
  | cons e es ih =>
    rw [List.cons_append, run_cons_eq_some]
    constructor
    · rintro ⟨m, hm, h⟩
      obtain ⟨m', hm', h'⟩ := ih.mp h
      exact ⟨m', run_cons_eq_some.mpr ⟨m, hm, hm'⟩, h'⟩
    · rintro ⟨m', h, h'⟩
      obtain ⟨m, hm, hm'⟩ := run_cons_eq_some.mp h
      exact ⟨m, hm, ih.mpr ⟨m', hm', h'⟩⟩

/-- The last step of a run. -/
theorem run_concat_eq_some {s t : σ} {es : List ε} {e : ε} :
    run step s (es ++ [e]) = some t ↔ ∃ m, run step s es = some m ∧ step m e = some t := by
  simp [run_append_eq_some, run_cons_eq_some]

/-- The same as an equation. -/
theorem run_concat (s : σ) (es : List ε) (e : ε) :
    run step s (es ++ [e]) = (run step s es).bind fun m => step m e := by
  apply Option.ext
  intro t
  rw [run_concat_eq_some, Option.bind_eq_some_iff]

/-- Every step of the run meets the side condition in the state it starts from. -/
def Meets (step : σ → ε → Option σ) (C : σ → ε → Prop) : σ → List ε → Prop
  | _, [] => True
  | s, e :: es => C s e ∧ ∀ s', step s e = some s' → Meets step C s' es

instance Meets.instDecidable {step : σ → ε → Option σ} {C : σ → ε → Prop}
    [∀ s e, Decidable (C s e)] : ∀ s es, Decidable (Meets step C s es)
  | _, [] => inferInstanceAs (Decidable True)
  | s, e :: es =>
    have : DecidablePred fun s' => Meets step C s' es := fun s' => instDecidable s' es
    inferInstanceAs (Decidable (C s e ∧ ∀ s' ∈ step s e, Meets step C s' es))

/-- The side condition holds at every position of a run that meets it. -/
theorem Meets.at_step {C : σ → ε → Prop} {s m : σ} {es fs : List ε} {e : ε}
    (h : Meets step C s (es ++ e :: fs)) (hrun : run step s es = some m) : C m e := by
  induction es generalizing s with
  | nil =>
    rw [run_nil, Option.some.injEq] at hrun
    subst hrun
    exact h.1
  | cons d ds ih =>
    obtain ⟨m', hm', hrest⟩ := run_cons_eq_some.mp hrun
    exact ih (h.2 m' hm') hrest

/-- A run meets a condition that holds at each of its positions. -/
theorem Meets.of_forall_step {C : σ → ε → Prop} {s : σ} {es : List ε}
    (h : ∀ pre e post m, es = pre ++ e :: post → run step s pre = some m → C m e) :
    Meets step C s es := by
  induction es generalizing s with
  | nil => trivial
  | cons e es ih =>
    refine ⟨h [] e es s rfl rfl, fun s' hs' => ih fun pre d post m heq hrun => ?_⟩
    exact h (e :: pre) d post m (by rw [heq]; rfl) (run_cons_eq_some.mpr ⟨s', hs', hrun⟩)

/-- Two runs that meet the condition, one after the other. -/
theorem Meets.append {C : σ → ε → Prop} {s : σ} {es fs : List ε} (hes : Meets step C s es)
    (hfs : ∀ m, run step s es = some m → Meets step C m fs) : Meets step C s (es ++ fs) := by
  induction es generalizing s with
  | nil => exact hfs s rfl
  | cons e es ih =>
    refine ⟨hes.1, fun s' hs' => ih (hes.2 s' hs') fun m hm => hfs m ?_⟩
    exact run_cons_eq_some.mpr ⟨s', hs', hm⟩

/-- A prefix of a run that meets a condition meets it. -/
theorem Meets.left {C : σ → ε → Prop} {s : σ} {es fs : List ε}
    (h : Meets step C s (es ++ fs)) : Meets step C s es := by
  induction es generalizing s with
  | nil => trivial
  | cons e es ih => exact ⟨h.1, fun s' hs' => ih (h.2 s' hs')⟩

/-- So does the rest of the run. -/
theorem Meets.right {C : σ → ε → Prop} {s m : σ} {es fs : List ε}
    (h : Meets step C s (es ++ fs)) (hrun : run step s es = some m) : Meets step C m fs := by
  induction es generalizing s with
  | nil =>
    rw [run_nil, Option.some.injEq] at hrun
    exact hrun ▸ h
  | cons e es ih =>
    obtain ⟨m', hm', hrest⟩ := run_cons_eq_some.mp hrun
    exact ih (h.2 m' hm') hrest

/-- A property that every step meeting the condition keeps holds after every run
    that meets it. -/
theorem run_invariant_of_meets {P : σ → Prop} {C : σ → ε → Prop}
    (hstep : ∀ s e s', P s → C s e → step s e = some s' → P s') {s t : σ} {es : List ε}
    (hs : P s) (hC : Meets step C s es) (hrun : run step s es = some t) : P t := by
  induction es generalizing s with
  | nil =>
    rw [run_nil, Option.some.injEq] at hrun
    exact hrun ▸ hs
  | cons e es ih =>
    obtain ⟨m, hm, hrest⟩ := run_cons_eq_some.mp hrun
    exact ih (hstep s e m hs hC.1 hm) (hC.2 m hm) hrest

/-- A property every step keeps holds after every run. -/
theorem run_invariant {P : σ → Prop} (hstep : ∀ s e s', P s → step s e = some s' → P s')
    {s t : σ} {es : List ε} (hs : P s) (hrun : run step s es = some t) : P t := by
  induction es generalizing s with
  | nil =>
    rw [run_nil, Option.some.injEq] at hrun
    exact hrun ▸ hs
  | cons e es ih =>
    obtain ⟨m, hm, hrest⟩ := run_cons_eq_some.mp hrun
    exact ih (hstep s e m hs hm) hrest

/-- Where a step from a state with the property keeps it exactly when it meets the
    condition, the property holds after every prefix of a run exactly when the run meets
    the condition. -/
theorem forall_prefix_iff_meets {I P : σ → Prop} {C : σ → ε → Prop} {s t : σ} {es : List ε}
    (hstep : ∀ e ∈ es, ∀ m m', I m → step m e = some m' → I m' ∧ (P m → (P m' ↔ C m e)))
    (hI : I s) (hP : P s) (hrun : run step s es = some t) :
    (∀ pre post m, es = pre ++ post → run step s pre = some m → P m) ↔ Meets step C s es := by
  induction es generalizing s with
  | nil =>
    refine iff_of_true (fun pre post m hsplit hm => ?_) trivial
    obtain ⟨rfl, -⟩ := List.append_eq_nil_iff.mp hsplit.symm
    exact Option.some.inj hm ▸ hP
  | cons e es ih =>
    obtain ⟨m, hm, hrest⟩ := run_cons_eq_some.mp hrun
    obtain ⟨hIm, hiff⟩ := hstep e List.mem_cons_self s m hI hm
    have ih := fun hPm => ih (fun d hd => hstep d (List.mem_cons_of_mem e hd)) hIm hPm hrest
    constructor
    · intro h
      -- the prefix `[e]` shows `P m`; the longer ones are runs from `m`
      have hPm : P m := h [e] es m rfl (run_cons_eq_some.mpr ⟨m, hm, rfl⟩)
      refine ⟨(hiff hP).mp hPm, fun m' hm' => ?_⟩
      obtain rfl := Option.some.inj (hm.symm.trans hm')
      refine (ih hPm).mp fun pre post n hsplit hn => ?_
      exact h (e :: pre) post n (congrArg (e :: ·) hsplit) (run_cons_eq_some.mpr ⟨m, hm, hn⟩)
    · rintro ⟨hC, hmeets⟩ pre post n hsplit hn
      cases pre with
      -- the empty prefix ends in `s` itself
      | nil => exact Option.some.inj hn ▸ hP
      | cons d pre =>
        obtain ⟨rfl, htail⟩ := List.cons.inj hsplit
        obtain ⟨m', hm', hn⟩ := run_cons_eq_some.mp hn
        obtain rfl := Option.some.inj (hm.symm.trans hm')
        exact (ih ((hiff hP).mpr hC)).mpr (hmeets m hm) pre post n htail hn

/-- A reflexive, transitive relation every step respects relates both ends of a run. -/
theorem run_rel {R : σ → σ → Prop} (hrefl : ∀ s, R s s) (htrans : ∀ s t u, R s t → R t u → R s u)
    (hstep : ∀ s e s', step s e = some s' → R s s') {s t : σ} {es : List ε}
    (hrun : run step s es = some t) : R s t := by
  induction es generalizing s with
  | nil =>
    rw [run_nil, Option.some.injEq] at hrun
    exact hrun ▸ hrefl s
  | cons e es ih =>
    obtain ⟨m, hm, hrest⟩ := run_cons_eq_some.mp hrun
    exact htrans s m t (hstep s e m hm) (ih hrest)

/-- If every concrete step is matched by a run of abstract steps between related
    states, so is every concrete run. -/
theorem run_simulation {step' : τ → δ → Option τ} {R : σ → τ → Prop}
    (hsim : ∀ s e s' a, R s a → step s e = some s' →
      ∃ ds a', run step' a ds = some a' ∧ R s' a')
    {s t : σ} {a : τ} {es : List ε} (hs : R s a) (hrun : run step s es = some t) :
    ∃ ds b, run step' a ds = some b ∧ R t b := by
  induction es generalizing s a with
  | nil =>
    rw [run_nil, Option.some.injEq] at hrun
    exact ⟨[], a, rfl, hrun ▸ hs⟩
  | cons e es ih =>
    obtain ⟨m, hm, hrest⟩ := run_cons_eq_some.mp hrun
    obtain ⟨ds, a', ha', hR⟩ := hsim s e m a hs hm
    obtain ⟨ds', b, hb, hR'⟩ := ih hR hrest
    exact ⟨ds ++ ds', b, run_append_eq_some.mpr ⟨a', ha', hb⟩, hR'⟩

end Transition
