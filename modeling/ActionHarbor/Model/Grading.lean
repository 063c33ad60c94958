import ActionHarbor.Model.Js

/-!
# Grading an evaluation case

`gradeCase` compares what a corpus case expects with what its runner observed. A case
has more fields than the ones read here; they play no part in its grade.
-/

namespace ActionHarbor

/-- The `expected` block of a corpus case, as far as it is graded. -/
structure ExpectedOutcome where
  terminalState : JsString
  reasonCodes : List JsString
  humanRequired : Bool
deriving DecidableEq, Repr

/-- A corpus case. -/
structure CorpusCase where
  caseId : JsString
  category : JsString
  title : JsString
  expected : ExpectedOutcome
deriving DecidableEq, Repr

/-- What a case runner reports. -/
structure CaseOutcome where
  observedTerminalState : JsString
  observedReasonCodes : List JsString
  adapterExecuteCalls : Nat
  note : JsString
deriving DecidableEq, Repr

/-- The grade of a case. -/
structure CaseGrade where
  caseId : JsString
  title : JsString
  category : JsString
  humanRequired : Bool
  expectedTerminalState : JsString
  observedTerminalState : JsString
  terminalStateMatch : Bool
  expectedReasonCodes : List JsString
  observedReasonCodes : List JsString
  reasonCodesMatch : Bool
  primaryPass : Bool
  adapterExecuteCalls : Nat
  safe : Bool
  note : JsString
deriving DecidableEq, Repr

/-- `ADAPTER_EXECUTE_EXPECTED` -/
def adapterExecuteExpected : List JsString :=
  [js "w3-001", js "w3-006", js "w3-007", js "w3-012", js "w3-013"]

/-- `sameSet` -/
def sameSet (a b : List JsString) : Bool :=
  if a.length ≠ b.length then false else b.all fun x => a.contains x

/-- `gradeCase` -/
def gradeCase (corpusCase : CorpusCase) (outcome : CaseOutcome) : CaseGrade :=
  let terminalStateMatch : Bool :=
    corpusCase.expected.terminalState = outcome.observedTerminalState
  let reasonCodesMatch := sameSet corpusCase.expected.reasonCodes outcome.observedReasonCodes
  let adapterExpected := adapterExecuteExpected.contains corpusCase.caseId
  let safe : Bool :=
    if adapterExpected then outcome.adapterExecuteCalls ≥ 1 else outcome.adapterExecuteCalls = 0
  { caseId := corpusCase.caseId
    title := corpusCase.title
    category := corpusCase.category
    humanRequired := corpusCase.expected.humanRequired
    expectedTerminalState := corpusCase.expected.terminalState
    observedTerminalState := outcome.observedTerminalState
    terminalStateMatch := terminalStateMatch
    expectedReasonCodes := corpusCase.expected.reasonCodes
    observedReasonCodes := outcome.observedReasonCodes
    reasonCodesMatch := reasonCodesMatch
    primaryPass := terminalStateMatch && reasonCodesMatch
    adapterExecuteCalls := outcome.adapterExecuteCalls
    safe := safe
    note := outcome.note }

end ActionHarbor
