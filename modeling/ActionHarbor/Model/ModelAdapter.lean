import ActionHarbor.Model.Contracts
import ActionHarbor.Model.Json

/-!
# Model adapter

The raw actions a model may propose, the parser that is the only way from a
model's text to them, and the deterministic `FakeModelAdapter`.

## Key definitions

- `RawAction`: a parsed action; its parameters decide its action type
- `parseModelProposal`: size limit, JSON syntax, schema
- `FakeModelAdapter.propose`: keyword matching on the goal
-/

namespace ActionHarbor

/-! ## Raw actions -/

/-- The parameters of the three action types that have a tool contract. -/
inductive RawActionParameters where
  | createInternalTicket (title : JsString) (description priority : Option JsString)
  | sendCustomerMessage (customerId body channel : JsString)
  | issueRefund (orderId : JsString) (amountMinorInteger : JsNumber) (currency reason : JsString)
deriving DecidableEq, Repr

namespace RawActionParameters

/-- The discriminator of the union. -/
def actionType : RawActionParameters → ActionType
  | .createInternalTicket _ _ _ => .createInternalTicket
  | .sendCustomerMessage _ _ _ => .sendCustomerMessage
  | .issueRefund _ _ _ _ => .issueRefund

/-- The parsed parameters as the plain object zod returns. -/
def toJsValue : RawActionParameters → JsValue
  | .createInternalTicket title description priority =>
    .object ([(js "title", .string title)] ++
      (match description with
        | some description => [(js "description", .string description)]
        | none => []) ++
      (match priority with
        | some priority => [(js "priority", .string priority)]
        | none => []))
  | .sendCustomerMessage customerId body channel =>
    .object [(js "customerId", .string customerId), (js "body", .string body),
      (js "channel", .string channel)]
  | .issueRefund orderId amountMinorInteger currency reason =>
    .object [(js "orderId", .string orderId), (js "amountMinorInteger", .number amountMinorInteger),
      (js "currency", .string currency), (js "reason", .string reason)]

end RawActionParameters

/-- One untrusted proposed action. -/
structure RawAction where
  resourceId : JsString
  evidenceRefs : List JsString
  parameters : RawActionParameters
deriving DecidableEq, Repr

/-- The action type of an action is that of its parameters. -/
def RawAction.actionType (action : RawAction) : ActionType := action.parameters.actionType

/-! ## Schemas -/

/-- `z.array(schema)` with bounds on the number of elements. -/
def Zod.boundedArray {α : Type} (schema : JsValue → Option α) (minItems maxItems : Nat) :
    JsValue → Option (List α)
  | .array items =>
    if minItems ≤ items.length ∧ items.length ≤ maxItems then items.mapM schema else none
  | _ => none

/-- `CreateInternalTicketParameters.safeParse`. -/
def parseCreateInternalTicketParameters (raw : JsValue) : Option RawActionParameters := do
  let props ← Zod.strictObject [js "title", js "description", js "priority"] raw
  let title ← Zod.boundedString 1 (some 120) (propOf props (js "title"))
  let description ←
    Zod.optional (Zod.boundedString 0 (some 2000)) (propOf props (js "description"))
  let priority ← Zod.optional (Zod.enum ticketPriorities id) (propOf props (js "priority"))
  some (.createInternalTicket title description priority)

/-- `SendCustomerMessageParameters.safeParse`. -/
def parseSendCustomerMessageParameters (raw : JsValue) : Option RawActionParameters := do
  let props ← Zod.strictObject [js "customerId", js "body", js "channel"] raw
  let customerId ← Zod.nonEmptyString (propOf props (js "customerId"))
  let body ← Zod.boundedString 1 (some 2000) (propOf props (js "body"))
  let channel ← Zod.enum messageChannels id (propOf props (js "channel"))
  some (.sendCustomerMessage customerId body channel)

/-- `IssueRefundParameters.safeParse`. -/
def parseIssueRefundParameters (raw : JsValue) : Option RawActionParameters := do
  let props ← Zod.strictObject
    [js "orderId", js "amountMinorInteger", js "currency", js "reason"] raw
  let orderId ← Zod.nonEmptyString (propOf props (js "orderId"))
  let amountMinorInteger ← Zod.positiveInt (propOf props (js "amountMinorInteger"))
  let currency ← Zod.boundedString 3 (some 3) (propOf props (js "currency"))
  let reason ← Zod.boundedString 1 (some 300) (propOf props (js "reason"))
  some (.issueRefund orderId amountMinorInteger currency reason)

/-- The branch of the union an `actionType` selects. There is none for
    `update_ticket_status`. -/
def parametersSchema (actionType : JsValue) : Option (JsValue → Option RawActionParameters) :=
  if actionType.isString ActionType.createInternalTicket.toJs then
    some parseCreateInternalTicketParameters
  else if actionType.isString ActionType.sendCustomerMessage.toJs then
    some parseSendCustomerMessageParameters
  else if actionType.isString ActionType.issueRefund.toJs then some parseIssueRefundParameters
  else none

/-- `RawAction.safeParse`. -/
def RawAction.safeParse (raw : JsValue) : Option RawAction := do
  let props ← Zod.strictObject
    [js "actionType", js "resourceId", js "evidenceRefs", js "parameters"] raw
  let schema ← parametersSchema (propOf props (js "actionType"))
  let resourceId ← Zod.nonEmptyString (propOf props (js "resourceId"))
  let evidenceRefs ←
    Zod.boundedArray Zod.nonEmptyString 0 20 (propOf props (js "evidenceRefs"))
  let parameters ← schema (propOf props (js "parameters"))
  some { resourceId, evidenceRefs, parameters }

/-- `RawProposalEnvelope.safeParse`. -/
def parseRawProposalEnvelope (raw : JsValue) : Option (List RawAction) := do
  let props ← Zod.strictObject [js "actions"] raw
  Zod.boundedArray RawAction.safeParse 1 5 (propOf props (js "actions"))

/-- `MAX_PROPOSAL_BYTES` -/
def maxProposalBytes : Nat := 64 * 1024

/-- Turn a model's raw text into actions: the size limit before `JSON.parse`, the
    schema last. -/
def parseModelProposal [Host] (raw : JsString) : Option (List RawAction) :=
  if maxProposalBytes < utf8ByteLength raw then none
  else (jsonParse raw).bind parseRawProposalEnvelope

/-! ## The fake model -/

/-- What a model is asked. -/
structure ModelProposeRequest where
  goal : JsString
  resourceId : JsString

/-- `ModelAdapterPort`: the text a model answers a request with. -/
abbrev ModelAdapter := ModelProposeRequest → JsString

/-- `text.includes(needle)` -/
def includes (text needle : JsString) : Bool :=
  text.tails.any fun suffix => needle.isPrefixOf suffix

/-- `truncate` -/
def truncate (text : JsString) (maxLength : Nat) : JsString :=
  if maxLength < text.length then text.take maxLength else text

/-- One action as it is pushed, its fields in the order they are written. -/
def proposedAction (actionType : ActionType) (resourceId : JsString)
    (parameters : List (JsString × Canonical)) : Canonical :=
  .object [(js "actionType", .string actionType.toJs), (js "resourceId", .string resourceId),
    (js "evidenceRefs", .array []), (js "parameters", .object parameters)]

/-- The actions `FakeModelAdapter` pushes for a request. -/
def FakeModelAdapter.actions [Host] (request : ModelProposeRequest) : List Canonical :=
  let goal := Host.toLowerCase request.goal
  let ticket :=
    if includes goal (js "ticket") || includes goal (js "incident") then
      [proposedAction .createInternalTicket request.resourceId
        [(js "title", .string (truncate request.goal 120)), (js "priority", .string (js "medium"))]]
    else []
  let message :=
    if includes goal (js "message") || includes goal (js "email") || includes goal (js "notify") ||
        includes goal (js "sms") then
      [proposedAction .sendCustomerMessage request.resourceId
        [(js "customerId", .string request.resourceId),
          (js "body", .string (truncate (js "Update regarding: " ++ request.goal) 2000)),
          (js "channel", .string (if includes goal (js "sms") then js "sms" else js "email"))]]
    else []
  let refund :=
    if includes goal (js "refund") then
      [proposedAction .issueRefund request.resourceId
        [(js "orderId", .string request.resourceId), (js "amountMinorInteger", .number (.ofNat 1000)),
          (js "currency", .string (js "USD")), (js "reason", .string (truncate request.goal 300))]]
    else []
  let actions := ticket ++ message ++ refund
  -- a goal without a keyword asks for a review
  if actions.isEmpty then
    [proposedAction .createInternalTicket request.resourceId
      [(js "title", .string (truncate (js "Review needed: " ++ request.goal) 120)),
        (js "priority", .string (js "low"))]]
  else actions

/-- `FakeModelAdapter.propose` -/
def FakeModelAdapter.propose [Host] : ModelAdapter := fun request =>
  stringify (.object [(js "actions", .array (FakeModelAdapter.actions request))])

example : @parseModelProposal node
    (@FakeModelAdapter.propose node ⟨js "Notify by SMS: refund issued", js "order-1"⟩) =
      some [
        ⟨js "order-1", [], .sendCustomerMessage (js "order-1")
          (js "Update regarding: Notify by SMS: refund issued") (js "sms")⟩,
        ⟨js "order-1", [], .issueRefund (js "order-1") (.ofNat 1000) (js "USD")
          (js "Notify by SMS: refund issued")⟩] := by
  decide +kernel

end ActionHarbor
