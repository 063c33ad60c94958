import ActionHarbor.Model.ModelAdapter

/-!
# Proposal issues

What `parseModelProposal` answers when it rejects: the issues zod finds in a payload,
the one reason code they are mapped to, and the details. `Model/ModelAdapter.lean` keeps
only whether the payload parses.

How the issues of a strict object, an array and a discriminated union are composed is
written out here. The issues of a single string, number or option are zod's own and come
in through `ZodReports`.

## Key definitions

- `proposalIssues`: the issues of a payload
- `mapZodErrorToReasonCode`: the reason code
- `parseModelProposalResult`: the actions, or the reason and its details
-/

namespace ActionHarbor

/-- Reasons a raw proposal is rejected for. -/
inductive ProposalRejectionReason where
  | proposalTooLarge
  | malformedProposal
  | unknownField
  | invalidAmount
  | parameterTooLarge
  | invalidProposal
deriving DecidableEq, Repr

/-- The wire text of a reason. -/
def ProposalRejectionReason.toJs : ProposalRejectionReason → JsString
  | .proposalTooLarge => js "PROPOSAL_TOO_LARGE"
  | .malformedProposal => js "MALFORMED_PROPOSAL"
  | .unknownField => js "UNKNOWN_FIELD"
  | .invalidAmount => js "INVALID_AMOUNT"
  | .parameterTooLarge => js "PARAMETER_TOO_LARGE"
  | .invalidProposal => js "INVALID_PROPOSAL"

/-! ## Issues -/

/-- A step of an issue's path. -/
inductive PropertyKey where
  | name (name : JsString)
  | index (i : Nat)
deriving DecidableEq, Repr

/-- The part of a `ZodIssue` that is read. -/
structure MinimalZodIssue where
  code : JsString
  path : List PropertyKey
deriving DecidableEq, Repr

/-- The issue as the enclosing schema reports it. -/
def MinimalZodIssue.under (key : PropertyKey) (issue : MinimalZodIssue) : MinimalZodIssue :=
  { issue with path := key :: issue.path }

/-- The schemas of single values. -/
inductive LeafSchema where
  | string (minLength : Nat) (maxLength : Option Nat)
  | enum (options : List JsString)
  | positiveInt
  | optional (schema : LeafSchema)
deriving DecidableEq, Repr

/-- A single value that has no issue. -/
def LeafSchema.accepts : LeafSchema → JsValue → Bool
  | .string minLength maxLength, value => (Zod.boundedString minLength maxLength value).isSome
  | .enum options, value => (Zod.enum options id value).isSome
  | .positiveInt, value => (Zod.positiveInt value).isSome
  | .optional schema, value =>
    match value with
    | .undefined => true
    | value => schema.accepts value

/-- What zod and `JSON.parse` report. -/
structure ZodReports where
  /-- the issues of a single value -/
  leafIssues : LeafSchema → JsValue → List MinimalZodIssue
  /-- `ZodError.message` -/
  errorMessage : List MinimalZodIssue → JsString
  /-- the message of the `SyntaxError` that `JSON.parse` throws -/
  syntaxErrorMessage : JsString → JsString

namespace Zod

/-- `z.object(shape).strict()`: the issues of the fields, each under its name, and one more
    when a key is not listed. An own `__proto__` is skipped. -/
def strictObjectIssues (shape : List (JsString × (JsValue → List MinimalZodIssue))) :
    JsValue → List MinimalZodIssue
  | .object props | .classInstance _ props =>
    (shape.flatMap fun field =>
      (field.2 (propOf props field.1)).map (MinimalZodIssue.under (.name field.1))) ++
    if props.all fun prop => (protoKey :: shape.map Prod.fst).contains prop.1 then []
    else [{ code := js "unrecognized_keys", path := [] }]
  | _ => [{ code := js "invalid_type", path := [] }]

/-- `z.array(schema)` with bounds on the number of elements, all of which are checked. -/
def boundedArrayIssues (schema : JsValue → List MinimalZodIssue) (minItems maxItems : Nat) :
    JsValue → List MinimalZodIssue
  | .array items =>
    (items.zipIdx.flatMap fun item => (schema item.1).map (MinimalZodIssue.under (.index item.2))) ++
    (if items.length < minItems then [{ code := js "too_small", path := [] }] else []) ++
    (if maxItems < items.length then [{ code := js "too_big", path := [] }] else [])
  | _ => [{ code := js "invalid_type", path := [] }]

/-- `z.discriminatedUnion(discriminator, branches)`: the issues of the branch selected, and a
    single one when none is. -/
def discriminatedUnionIssues (discriminator : JsString)
    (branch : JsValue → Option (JsValue → List MinimalZodIssue)) (value : JsValue) :
    List MinimalZodIssue :=
  match value with
  | .object props | .classInstance _ props =>
    match branch (propOf props discriminator) with
    | some schema => schema value
    | none => [{ code := js "invalid_union", path := [.name discriminator] }]
  | _ => [{ code := js "invalid_type", path := [] }]

end Zod

/-! ## Schemas -/

section
variable (zod : ZodReports)

/-- The fields of `CreateInternalTicketParameters`. -/
def createInternalTicketParametersShape : List (JsString × (JsValue → List MinimalZodIssue)) :=
  [(js "title", zod.leafIssues (.string 1 (some 120))),
    (js "description", zod.leafIssues (.optional (.string 0 (some 2000)))),
    (js "priority", zod.leafIssues (.optional (.enum ticketPriorities)))]

/-- The fields of `SendCustomerMessageParameters`. -/
def sendCustomerMessageParametersShape : List (JsString × (JsValue → List MinimalZodIssue)) :=
  [(js "customerId", zod.leafIssues (.string 1 none)),
    (js "body", zod.leafIssues (.string 1 (some 2000))),
    (js "channel", zod.leafIssues (.enum messageChannels))]

/-- The fields of `IssueRefundParameters`. -/
def issueRefundParametersShape : List (JsString × (JsValue → List MinimalZodIssue)) :=
  [(js "orderId", zod.leafIssues (.string 1 none)),
    (js "amountMinorInteger", zod.leafIssues .positiveInt),
    (js "currency", zod.leafIssues (.string 3 (some 3))),
    (js "reason", zod.leafIssues (.string 1 (some 300)))]

/-- One branch of the union: the literal `actionType`, `rawActionEnvelopeFields` and the
    parameters. -/
def rawActionBranchShape (actionType : ActionType)
    (parametersShape : List (JsString × (JsValue → List MinimalZodIssue))) :
    List (JsString × (JsValue → List MinimalZodIssue)) :=
  [(js "actionType", zod.leafIssues (.enum [actionType.toJs])),
    (js "resourceId", zod.leafIssues (.string 1 none)),
    (js "evidenceRefs", Zod.boundedArrayIssues (zod.leafIssues (.string 1 none)) 0 20),
    (js "parameters", Zod.strictObjectIssues parametersShape)]

/-- The branch of the union an `actionType` selects. -/
def rawActionBranch (actionType : JsValue) : Option (JsValue → List MinimalZodIssue) :=
  if actionType.isString ActionType.createInternalTicket.toJs then
    some (Zod.strictObjectIssues (rawActionBranchShape zod .createInternalTicket
      (createInternalTicketParametersShape zod)))
  else if actionType.isString ActionType.sendCustomerMessage.toJs then
    some (Zod.strictObjectIssues (rawActionBranchShape zod .sendCustomerMessage
      (sendCustomerMessageParametersShape zod)))
  else if actionType.isString ActionType.issueRefund.toJs then
    some (Zod.strictObjectIssues (rawActionBranchShape zod .issueRefund
      (issueRefundParametersShape zod)))
  else none

/-- The issues `RawAction.safeParse` reports. -/
def rawActionIssues : JsValue → List MinimalZodIssue :=
  Zod.discriminatedUnionIssues (js "actionType") (rawActionBranch zod)

/-- The issues `RawProposalEnvelope.safeParse` reports. -/
def proposalIssues : JsValue → List MinimalZodIssue :=
  Zod.strictObjectIssues [(js "actions", Zod.boundedArrayIssues (rawActionIssues zod) 1 5)]

end

/-! ## The reason code -/

/-- `LENGTH_BOUNDED_PARAMETER_FIELDS` -/
def lengthBoundedParameterFields : List JsString :=
  [js "title", js "description", js "body", js "reason"]

/-- A `too_big` issue of a length-bounded field. -/
def MinimalZodIssue.isOversizedBoundedField (issue : MinimalZodIssue) : Bool :=
  if issue.code ≠ js "too_big" then false
  else
    match issue.path.getLast? with
    | some (.name lastSegment) => lengthBoundedParameterFields.contains lastSegment
    | _ => false

/-- `mapZodErrorToReasonCode` -/
def mapZodErrorToReasonCode (issues : List MinimalZodIssue) : ProposalRejectionReason :=
  if issues.any fun issue => issue.code = js "unrecognized_keys" then .unknownField
  else if issues.any fun issue => issue.path.contains (.name (js "amountMinorInteger")) then
    .invalidAmount
  else if issues.any MinimalZodIssue.isOversizedBoundedField then .parameterTooLarge
  else .invalidProposal

/-- `ProposalParseResult` -/
inductive ProposalParseResult where
  | ok (actions : List RawAction)
  | rejected (reasonCode : ProposalRejectionReason) (details : JsString)
deriving DecidableEq, Repr

/-- `parseModelProposal`, with what it says of a payload it rejects. -/
def parseModelProposalResult [Host] (zod : ZodReports) (raw : JsString) : ProposalParseResult :=
  let byteLength := utf8ByteLength raw
  if maxProposalBytes < byteLength then
    .rejected .proposalTooLarge
      (js "proposal is " ++ (JsNumber.ofNat byteLength).toText ++ js " bytes; limit is " ++
        (JsNumber.ofNat maxProposalBytes).toText)
  else
    match jsonParse raw with
    | none => .rejected .malformedProposal (zod.syntaxErrorMessage raw)
    | some parsed =>
      match parseRawProposalEnvelope parsed with
      | none =>
        let issues := proposalIssues zod parsed
        .rejected (mapZodErrorToReasonCode issues) (zod.errorMessage issues)
      | some actions => .ok actions

end ActionHarbor
