import ActionHarbor.Model.Grading
import Mathlib.Data.List.Nodup
import Mathlib.Data.List.Perm.Subperm

/-!
# Reason codes as sets

`sameSet` compares two lengths and looks for the observed codes among the expected ones.
Without repetitions that is equality of sets. A repeated code makes room for a missing
one, on one side only.

## Key results

- `sameSet_iff_of_nodup`: lists without repetitions are compared as sets
- `gradeCase_compares_sets_iff`: all the lists that are
-/

namespace ActionHarbor

/-- As long, and found among the others. -/
theorem sameSet_iff {a b : List JsString} :
    sameSet a b = true ↔ a.length = b.length ∧ b ⊆ a := by
  rw [sameSet]
  split
  · rename_i hlength
    simp [hlength]
  · rename_i hlength
    simp [not_not.mp hlength, List.subset_def]

/-- Without repetitions, as many codes that are all expected are the expected ones. -/
theorem sameSet_iff_of_nodup {a b : List JsString} (ha : a.Nodup) (hb : b.Nodup) :
    sameSet a b = true ↔ ∀ code, code ∈ a ↔ code ∈ b := by
  rw [sameSet_iff]
  constructor
  · rintro ⟨hlength, hsub⟩
    have hperm : b.Perm a := (hb.subperm hsub).perm_of_length_le (Nat.le_of_eq hlength)
    exact fun code => hperm.mem_iff.symm
  · intro hsame
    have hperm : a.Perm b := (List.perm_ext_iff_of_nodup ha hb).mpr hsame
    exact ⟨hperm.length_eq, fun code hcode => (hsame code).mpr hcode⟩

/-- The case that expects what was observed. -/
def CorpusCase.exchanged (corpusCase : CorpusCase) (outcome : CaseOutcome) : CorpusCase :=
  { corpusCase with
    expected :=
      { corpusCase.expected with
        terminalState := outcome.observedTerminalState
        reasonCodes := outcome.observedReasonCodes } }

/-- The outcome in which what was expected is observed. -/
def CaseOutcome.exchanged (outcome : CaseOutcome) (corpusCase : CorpusCase) : CaseOutcome :=
  { outcome with
    observedTerminalState := corpusCase.expected.terminalState
    observedReasonCodes := corpusCase.expected.reasonCodes }

/-- The grade compares the reason codes as sets: no match, and no pass, with other codes, and
    the same verdict the other way round. -/
structure ComparesSets (corpusCase : CorpusCase) (outcome : CaseOutcome) : Prop where
  codes : (gradeCase corpusCase outcome).reasonCodesMatch = true →
    ∀ code, code ∈ corpusCase.expected.reasonCodes ↔ code ∈ outcome.observedReasonCodes
  pass : (gradeCase corpusCase outcome).primaryPass = true →
    ∀ code, code ∈ corpusCase.expected.reasonCodes ↔ code ∈ outcome.observedReasonCodes
  symmetric :
    (gradeCase (corpusCase.exchanged outcome) (outcome.exchanged corpusCase)).reasonCodesMatch =
      (gradeCase corpusCase outcome).reasonCodesMatch
  symmetricPass :
    (gradeCase (corpusCase.exchanged outcome) (outcome.exchanged corpusCase)).primaryPass =
      (gradeCase corpusCase outcome).primaryPass

/-- All codes of one list are in the other, and not the other way round. -/
def LacksCodesOf (a b : List JsString) : Prop := a ⊆ b ∧ ¬ b ⊆ a

/-- Equally long lists, one of which lacks codes of the other. -/
def Unbalanced (a b : List JsString) : Prop :=
  a.length = b.length ∧ (LacksCodesOf a b ∨ LacksCodesOf b a)

theorem Unbalanced.symm {a b : List JsString} (h : Unbalanced a b) : Unbalanced b a :=
  ⟨h.1.symm, h.2.symm⟩

/-- Other lists that match have the same codes. -/
theorem mem_iff_of_sameSet {a b : List JsString} (h : ¬ Unbalanced a b)
    (hsame : sameSet a b = true) : ∀ code, code ∈ a ↔ code ∈ b := by
  obtain ⟨hlength, hsub⟩ := sameSet_iff.mp hsame
  have hback : a ⊆ b := by
    by_contra hnot
    exact h ⟨hlength, .inr ⟨hsub, hnot⟩⟩
  exact fun code => ⟨fun hcode => hback hcode, fun hcode => hsub hcode⟩

/-- Other lists match in both orders or in none. -/
theorem sameSet_comm {a b : List JsString} (h : ¬ Unbalanced a b) :
    sameSet b a = sameSet a b := by
  have himp : ∀ {a b : List JsString}, ¬ Unbalanced a b → sameSet a b = true →
      sameSet b a = true := by
    intro a b h hsame
    exact sameSet_iff.mpr ⟨(sameSet_iff.mp hsame).1.symm,
      fun code hcode => (mem_iff_of_sameSet h hsame code).mp hcode⟩
  rw [Bool.eq_iff_iff]
  exact ⟨himp fun hunbalanced => h hunbalanced.symm, himp h⟩

/-- The comparison is one of sets unless the lists are equally long and one lacks codes of
    the other. -/
theorem gradeCase_compares_sets_iff (corpusCase : CorpusCase) (outcome : CaseOutcome) :
    ComparesSets corpusCase outcome ↔
      ¬ (corpusCase.expected.reasonCodes.length = outcome.observedReasonCodes.length ∧
        (LacksCodesOf corpusCase.expected.reasonCodes outcome.observedReasonCodes ∨
          LacksCodesOf outcome.observedReasonCodes corpusCase.expected.reasonCodes)) := by
  have hmatch : (gradeCase corpusCase outcome).reasonCodesMatch =
      sameSet corpusCase.expected.reasonCodes outcome.observedReasonCodes := rfl
  have hexchanged :
      (gradeCase (corpusCase.exchanged outcome) (outcome.exchanged corpusCase)).reasonCodesMatch =
        sameSet outcome.observedReasonCodes corpusCase.expected.reasonCodes := rfl
  constructor
  · rintro hcompares ⟨hlength, ⟨hsub, hnot⟩ | ⟨hsub, hnot⟩⟩
    · -- the exchanged comparison matches, this one does not
      have hother := sameSet_iff.mpr ⟨hlength.symm, hsub⟩
      rw [← hexchanged, hcompares.symmetric, hmatch, sameSet_iff] at hother
      exact hnot hother.2
    · have hsame := hcompares.codes (sameSet_iff.mpr ⟨hlength, hsub⟩)
      exact hnot fun code hcode => (hsame code).mp hcode
  · intro (hbalanced : ¬ Unbalanced _ _)
    have hcodes : (gradeCase corpusCase outcome).reasonCodesMatch = true →
        ∀ code, code ∈ corpusCase.expected.reasonCodes ↔ code ∈ outcome.observedReasonCodes :=
      mem_iff_of_sameSet hbalanced
    have hsymmetric :
        (gradeCase (corpusCase.exchanged outcome)
          (outcome.exchanged corpusCase)).reasonCodesMatch =
          (gradeCase corpusCase outcome).reasonCodesMatch := by
      rw [hmatch, hexchanged, sameSet_comm hbalanced]
    have hterminal :
        (gradeCase (corpusCase.exchanged outcome)
          (outcome.exchanged corpusCase)).terminalStateMatch =
          (gradeCase corpusCase outcome).terminalStateMatch :=
      decide_eq_decide.mpr ⟨Eq.symm, Eq.symm⟩
    exact
      { codes := hcodes
        pass := fun hpass => hcodes (Bool.and_eq_true_iff.mp hpass).2
        symmetric := hsymmetric
        symmetricPass := congrArg₂ and hterminal hsymmetric }

namespace Sample

/-- A case that expects two codes. -/
def twoCodes : CorpusCase :=
  ⟨js "w3-100", js "policy", js "Refund", ⟨js "DENIED", [js "A", js "B"], false⟩⟩

/-- A run that observed one of them twice. -/
def oneCodeTwice : CaseOutcome := ⟨js "DENIED", [js "A", js "A"], 0, js "n"⟩

end Sample

/-- They match, and the other way round they do not. -/
theorem repeatedCode_passes :
    (gradeCase Sample.twoCodes Sample.oneCodeTwice).primaryPass = true ∧
      (gradeCase (Sample.twoCodes.exchanged Sample.oneCodeTwice)
        (Sample.oneCodeTwice.exchanged Sample.twoCodes)).reasonCodesMatch = false ∧
      ¬ ComparesSets Sample.twoCodes Sample.oneCodeTwice := by
  refine ⟨by decide, by decide, fun h => ?_⟩
  have hsame := h.codes (by decide) (js "B")
  exact absurd hsame (by decide)

end ActionHarbor
