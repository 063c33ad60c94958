import ActionHarbor.Model.ProposalIssues
import ActionHarbor.Spec.HashChain
import ActionHarbor.Spec.JsonText
import ActionHarbor.Spec.Receipts

/-!
# Unknown fields

`mapZodErrorToReasonCode` looks for `unrecognized_keys` first, so that an extra field is
never masked by another failure. A strict object reports its extra keys next to the issues
of its fields, and so does every schema around it. A discriminated union that selects no
branch looks at no key: an extra field of such an action is not reported. Nor is a field
`__proto__` anywhere, which a strict object skips.

## Key results

- `proposalIssues_eq_nil`: a payload has no issue exactly when it parses
- `parseModelProposal_eq_some_iff`: `parseModelProposal` keeps the actions of the result
- `parseModelProposalResult_unknownField_iff`: what is rejected as `UNKNOWN_FIELD`
- `unknownField_never_masked_iff`: which unknown fields are
-/

namespace ActionHarbor

/-- The documented part of zod's reports on single values: no issue exactly when the value
    parses, and `unrecognized_keys` only from strict objects. -/
structure ZodReports.Documented (zod : ZodReports) : Prop where
  leafIssues_eq_nil : ∀ schema value, zod.leafIssues schema value = [] ↔ schema.accepts value
  code_ne : ∀ schema value, ∀ issue ∈ zod.leafIssues schema value,
    issue.code ≠ js "unrecognized_keys"

/-! ## Issues of composed schemas -/

/-- A concatenation is empty when both parts are. -/
theorem isEmpty_append {α : Type} (xs ys : List α) :
    (xs ++ ys).isEmpty = (xs.isEmpty && ys.isEmpty) := by
  cases xs <;> rfl

/-- A `flatMap` is empty when it is for every element. -/
theorem isEmpty_flatMap {α β : Type} (xs : List α) (f : α → List β) :
    (xs.flatMap f).isEmpty = xs.all fun x => (f x).isEmpty := by
  induction xs with
  | nil => rfl
  | cons x xs ih => rw [List.flatMap_cons, isEmpty_append, ih, List.all_cons]

/-- `mapM` into `Option` succeeds when it does for every element. -/
theorem isSome_mapM {α β : Type} (xs : List α) (f : α → Option β) :
    (xs.mapM f).isSome = xs.all fun x => (f x).isSome := by
  induction xs with
  | nil => rfl
  | cons x xs ih =>
    rw [List.mapM_cons, List.all_cons, ← ih]
    cases f x with
    | none => rfl
    | some y => cases xs.mapM f <;> rfl

/-- Some issue is `unrecognized_keys`. -/
def reportsUnknownKey (issues : List MinimalZodIssue) : Bool :=
  issues.any fun issue => issue.code = js "unrecognized_keys"

@[simp] theorem reportsUnknownKey_nil : reportsUnknownKey [] = false := rfl

/-- One issue with another code. -/
theorem reportsUnknownKey_of_ne {code : JsString} (h : code ≠ js "unrecognized_keys")
    (path : List PropertyKey) : reportsUnknownKey [{ code, path }] = false := by
  simp [reportsUnknownKey, h]

/-- Two lists of issues report an unknown key when one of them does. -/
@[simp] theorem reportsUnknownKey_append (issues issues' : List MinimalZodIssue) :
    reportsUnknownKey (issues ++ issues') =
      (reportsUnknownKey issues || reportsUnknownKey issues') :=
  List.any_append

/-- The code stays when the path grows. -/
@[simp] theorem reportsUnknownKey_map_under (key : PropertyKey) (issues : List MinimalZodIssue) :
    reportsUnknownKey (issues.map (MinimalZodIssue.under key)) = reportsUnknownKey issues := by
  simp only [reportsUnknownKey, List.any_map]
  rfl

/-- Issues collected over a list report an unknown key when those of some element do. -/
@[simp] theorem reportsUnknownKey_flatMap {α : Type} (xs : List α)
    (f : α → List MinimalZodIssue) :
    reportsUnknownKey (xs.flatMap f) = xs.any fun x => reportsUnknownKey (f x) :=
  List.any_flatMap

/-- The own properties of an object. -/
def JsValue.ownProps : JsValue → Option (List (JsString × JsValue))
  | .object props | .classInstance _ props => some props
  | _ => none

/-- A property of an object. -/
def JsValue.field (value : JsValue) (key : JsString) : Option JsValue :=
  value.ownProps.map fun props => propOf props key

/-- An object with a key outside `keys`. -/
def hasUnknownKey (keys : List JsString) (value : JsValue) : Bool :=
  value.ownProps.any fun props => props.any fun prop => !keys.contains prop.1

/-- The same, without the key a strict object skips. -/
def hasCheckedUnknownKey (keys : List JsString) (value : JsValue) : Bool :=
  hasUnknownKey (protoKey :: keys) value

namespace Zod

variable {shape : List (JsString × (JsValue → List MinimalZodIssue))} {value : JsValue}

/-- A strict object reports its own unknown keys and those its fields report. -/
theorem reportsUnknownKey_strictObjectIssues :
    reportsUnknownKey (strictObjectIssues shape value) =
      (hasCheckedUnknownKey (shape.map Prod.fst) value ||
        shape.any fun field => (value.field field.1).any fun v => reportsUnknownKey (field.2 v)) := by
  have hown : ∀ props : List (JsString × JsValue),
      reportsUnknownKey
          (if props.all fun prop => (protoKey :: shape.map Prod.fst).contains prop.1 then []
          else [{ code := js "unrecognized_keys", path := [] }]) =
        props.any fun prop => !(protoKey :: shape.map Prod.fst).contains prop.1 := by
    intro props
    rw [← List.not_all_eq_any_not]
    cases props.all fun prop => (protoKey :: shape.map Prod.fst).contains prop.1 <;> rfl
  cases value with
  | object props | classInstance _ props =>
    simp only [strictObjectIssues, reportsUnknownKey_append, reportsUnknownKey_flatMap,
      reportsUnknownKey_map_under, hown, hasCheckedUnknownKey, hasUnknownKey, JsValue.ownProps,
      JsValue.field, Option.map_some, Option.any_some, Bool.or_comm]
  | _ =>
    simp [strictObjectIssues, hasCheckedUnknownKey, hasUnknownKey, JsValue.field, JsValue.ownProps,
      reportsUnknownKey_of_ne (show js "invalid_type" ≠ js "unrecognized_keys" by decide)]

/-- A strict object has no issue when its keys are listed and no field has one. -/
theorem strictObjectIssues_isEmpty :
    (strictObjectIssues shape value).isEmpty =
      (strictObject (shape.map Prod.fst) value).any fun props =>
        shape.all fun field => (field.2 (propOf props field.1)).isEmpty := by
  cases value with
  | object props | classInstance _ props =>
    simp only [strictObjectIssues, strictObject]
    cases props.all fun prop => (protoKey :: shape.map Prod.fst).contains prop.1 <;>
      simp [isEmpty_append, isEmpty_flatMap]
  | _ => rfl

/-- The elements of an array report what they report alone. -/
theorem reportsUnknownKey_boundedArrayIssues {schema : JsValue → List MinimalZodIssue}
    {minItems maxItems : Nat} {items : List JsValue} :
    reportsUnknownKey (boundedArrayIssues schema minItems maxItems (.array items)) =
      items.any fun item => reportsUnknownKey (schema item) := by
  have hbounds : ∀ p : Prop, [Decidable p] → ∀ code : JsString, code ≠ js "unrecognized_keys" →
      reportsUnknownKey (if p then [{ code, path := [] }] else []) = false := by
    intro p _ code hcode
    split
    · exact reportsUnknownKey_of_ne hcode []
    · rfl
  simp only [boundedArrayIssues, reportsUnknownKey_append, reportsUnknownKey_flatMap,
    reportsUnknownKey_map_under, hbounds _ (js "too_small") (by decide),
    hbounds _ (js "too_big") (by decide), Bool.or_false]
  conv_rhs => rw [← List.zipIdx_map_fst 0 items, List.any_map]
  rfl

/-- An array is accepted by its issues when it is accepted by its parser, if its elements
    are. -/
theorem boundedArrayIssues_isEmpty {α : Type} {issues : JsValue → List MinimalZodIssue}
    {schema : JsValue → Option α} {minItems maxItems : Nat}
    (h : ∀ item, (issues item).isEmpty = (schema item).isSome) :
    (boundedArrayIssues issues minItems maxItems value).isEmpty =
      (boundedArray schema minItems maxItems value).isSome := by
  have hissues : ∀ items : List JsValue,
      (items.zipIdx.flatMap fun item =>
          (issues item.1).map (MinimalZodIssue.under (.index item.2))).isEmpty =
        items.all fun item => (schema item).isSome := by
    intro items
    simp only [isEmpty_flatMap, List.isEmpty_map, h]
    conv_rhs => rw [← List.zipIdx_map_fst 0 items, List.all_map]
    rfl
  cases value with
  | array items =>
    simp only [boundedArrayIssues, boundedArray, isEmpty_append, hissues]
    by_cases hmin : items.length < minItems
    · simp [hmin, Nat.not_le.mpr hmin]
    · by_cases hmax : maxItems < items.length
      · simp [hmax, Nat.not_le.mpr hmax]
      · simp [hmin, hmax, Nat.not_lt.mp hmin, Nat.not_lt.mp hmax, isSome_mapM]
  | _ => rfl

/-- A union reports what the branch it selects reports. -/
theorem reportsUnknownKey_discriminatedUnionIssues {discriminator : JsString}
    {branch : JsValue → Option (JsValue → List MinimalZodIssue)} :
    reportsUnknownKey (discriminatedUnionIssues discriminator branch value) =
      ((value.field discriminator).bind branch).any fun schema =>
        reportsUnknownKey (schema value) := by
  cases value with
  | object props | classInstance _ props =>
    simp only [discriminatedUnionIssues, JsValue.field, JsValue.ownProps, Option.map_some,
      Option.bind_some]
    cases branch (propOf props discriminator) with
    | some schema => rfl
    | none => exact reportsUnknownKey_of_ne (by decide) _
  | _ => exact reportsUnknownKey_of_ne (by decide) _

end Zod

/-! ## Payloads -/

/-- The keys of an action. -/
def rawActionKeys : List JsString :=
  [js "actionType", js "resourceId", js "evidenceRefs", js "parameters"]

/-- The keys the parameters of an action may have, for the three action types that parse. -/
def parameterKeys (actionType : JsValue) : Option (List JsString) :=
  if actionType.isString ActionType.createInternalTicket.toJs then
    some [js "title", js "description", js "priority"]
  else if actionType.isString ActionType.sendCustomerMessage.toJs then
    some [js "customerId", js "body", js "channel"]
  else if actionType.isString ActionType.issueRefund.toJs then
    some [js "orderId", js "amountMinorInteger", js "currency", js "reason"]
  else none

/-- The elements of `actions`. -/
def payloadActions (payload : JsValue) : List JsValue :=
  match payload.field (js "actions") with
  | some (.array items) => items
  | _ => []

/-- A key the schema of the action's parameters does not list. -/
def hasUnknownParameter (action : JsValue) : Bool :=
  ((action.field (js "actionType")).bind parameterKeys).any fun keys =>
    (action.field (js "parameters")).any (hasUnknownKey keys)

/-- A key that no schema lists, in the payload, in an action or in the parameters of an action
    that parses by its type. No schema lists `__proto__`, so it is one. -/
def hasUnknownField (payload : JsValue) : Bool :=
  hasUnknownKey [js "actions"] payload ||
    (payloadActions payload).any fun action =>
      hasUnknownKey rawActionKeys action || hasUnknownParameter action

/-- The same of the parameters, without a key `__proto__`. -/
def hasCheckedUnknownParameter (action : JsValue) : Bool :=
  ((action.field (js "actionType")).bind parameterKeys).any fun keys =>
    (action.field (js "parameters")).any (hasCheckedUnknownKey keys)

/-- The same of the payload, without the keys `__proto__` and without the actions that select
    no branch of the union. -/
def hasCheckedUnknownField (payload : JsValue) : Bool :=
  hasCheckedUnknownKey [js "actions"] payload ||
    (payloadActions payload).any fun action =>
      ((action.field (js "actionType")).bind parameterKeys).isSome &&
        (hasCheckedUnknownKey rawActionKeys action || hasCheckedUnknownParameter action)

/-! ## A payload without issues -/

theorem any_const {α : Type} (o : Option α) (b : Bool) :
    (o.any fun _ => b) = (o.isSome && b) := by
  cases o <;> rfl

/-- An optional schema accepts `undefined` and what its schema accepts. -/
theorem Zod.isSome_optional {α : Type} (schema : JsValue → Option α) (value : JsValue) :
    (Zod.optional schema value).isSome = (value.isUndefined || (schema value).isSome) := by
  cases value <;> simp [Zod.optional, JsValue.isUndefined]

namespace LeafSchema

theorem accepts_string (minLength : Nat) (maxLength : Option Nat) (value : JsValue) :
    (LeafSchema.string minLength maxLength).accepts value =
      (Zod.boundedString minLength maxLength value).isSome := rfl

theorem accepts_enum (options : List JsString) (value : JsValue) :
    (LeafSchema.enum options).accepts value = (Zod.enum options id value).isSome := rfl

theorem accepts_positiveInt (value : JsValue) :
    LeafSchema.positiveInt.accepts value = (Zod.positiveInt value).isSome := rfl

/-- An optional leaf accepts `undefined` and what its leaf accepts. -/
theorem accepts_optional (schema : LeafSchema) (value : JsValue) :
    (LeafSchema.optional schema).accepts value =
      (value.isUndefined || schema.accepts value) := by
  cases value <;> rfl

end LeafSchema

section
variable {zod : ZodReports} (hzod : zod.Documented)

include hzod

/-- A documented report is empty exactly on the values its leaf accepts. -/
theorem ZodReports.Documented.isEmpty_leafIssues (schema : LeafSchema) (value : JsValue) :
    (zod.leafIssues schema value).isEmpty = schema.accepts value := by
  rw [Bool.eq_iff_iff, List.isEmpty_iff]
  exact hzod.leafIssues_eq_nil schema value

/-- The issues of a ticket's parameters are none exactly where they parse. -/
theorem createInternalTicketParameters_isEmpty (value : JsValue) :
    (Zod.strictObjectIssues (createInternalTicketParametersShape zod) value).isEmpty =
      (parseCreateInternalTicketParameters value).isSome := by
  simp only [Zod.strictObjectIssues_isEmpty, createInternalTicketParametersShape,
    parseCreateInternalTicketParameters, hzod.isEmpty_leafIssues, LeafSchema.accepts_string,
    LeafSchema.accepts_enum, LeafSchema.accepts_optional, Zod.isSome_optional,
    Option.bind_eq_bind, Option.isSome_bind, any_const, Option.isSome_some, List.map_cons,
    List.map_nil, List.all_cons, List.all_nil]

/-- The issues of a message's parameters are none exactly where they parse. -/
theorem sendCustomerMessageParameters_isEmpty (value : JsValue) :
    (Zod.strictObjectIssues (sendCustomerMessageParametersShape zod) value).isEmpty =
      (parseSendCustomerMessageParameters value).isSome := by
  simp only [Zod.strictObjectIssues_isEmpty, sendCustomerMessageParametersShape,
    parseSendCustomerMessageParameters, hzod.isEmpty_leafIssues, LeafSchema.accepts_string,
    LeafSchema.accepts_enum, Option.bind_eq_bind, Option.isSome_bind, any_const,
    Option.isSome_some, List.map_cons, List.map_nil, List.all_cons, List.all_nil]
  rfl

/-- The issues of a refund's parameters are none exactly where they parse. -/
theorem issueRefundParameters_isEmpty (value : JsValue) :
    (Zod.strictObjectIssues (issueRefundParametersShape zod) value).isEmpty =
      (parseIssueRefundParameters value).isSome := by
  simp only [Zod.strictObjectIssues_isEmpty, issueRefundParametersShape,
    parseIssueRefundParameters, hzod.isEmpty_leafIssues, LeafSchema.accepts_string,
    LeafSchema.accepts_positiveInt, Option.bind_eq_bind, Option.isSome_bind, any_const,
    Option.isSome_some, List.map_cons, List.map_nil, List.all_cons, List.all_nil]
  rfl

/-- The branch an `actionType` selects. -/
structure SelectedBranch (zod : ZodReports) (actionType : JsValue) (type : ActionType)
    (shape : List (JsString × (JsValue → List MinimalZodIssue)))
    (schema : JsValue → Option RawActionParameters) : Prop where
  literal : actionType = .string type.toJs
  branch_eq : rawActionBranch zod actionType =
    some (Zod.strictObjectIssues (rawActionBranchShape zod type shape))
  schema_eq : parametersSchema actionType = some schema
  keys_eq : parameterKeys actionType = some (shape.map Prod.fst)
  leaves : ∀ field ∈ shape, ∃ leaf, field.2 = zod.leafIssues leaf
  isEmpty : ∀ v, (Zod.strictObjectIssues shape v).isEmpty = (schema v).isSome

/-- One branch is selected, or nothing looks at the action. -/
theorem rawActionBranch_cases (actionType : JsValue) :
    (∃ type shape schema, SelectedBranch zod actionType type shape schema) ∨
      (rawActionBranch zod actionType = none ∧ parametersSchema actionType = none ∧
        parameterKeys actionType = none) := by
  -- the three definitions ask for the same literals in the same order
  by_cases hticket : actionType.isString ActionType.createInternalTicket.toJs = true
  · refine .inl ⟨.createInternalTicket, createInternalTicketParametersShape zod,
      parseCreateInternalTicketParameters, ?_⟩
    exact
      { literal := JsValue.eq_of_isString hticket
        branch_eq := by rw [rawActionBranch, if_pos hticket]
        schema_eq := by rw [parametersSchema, if_pos hticket]
        keys_eq := by rw [parameterKeys, if_pos hticket]; rfl
        leaves := by simp [createInternalTicketParametersShape]
        isEmpty := createInternalTicketParameters_isEmpty hzod }
  by_cases hmessage : actionType.isString ActionType.sendCustomerMessage.toJs = true
  · refine .inl ⟨.sendCustomerMessage, sendCustomerMessageParametersShape zod,
      parseSendCustomerMessageParameters, ?_⟩
    exact
      { literal := JsValue.eq_of_isString hmessage
        branch_eq := by rw [rawActionBranch, if_neg hticket, if_pos hmessage]
        schema_eq := by rw [parametersSchema, if_neg hticket, if_pos hmessage]
        keys_eq := by rw [parameterKeys, if_neg hticket, if_pos hmessage]; rfl
        leaves := by simp [sendCustomerMessageParametersShape]
        isEmpty := sendCustomerMessageParameters_isEmpty hzod }
  by_cases hrefund : actionType.isString ActionType.issueRefund.toJs = true
  · refine .inl ⟨.issueRefund, issueRefundParametersShape zod, parseIssueRefundParameters, ?_⟩
    exact
      { literal := JsValue.eq_of_isString hrefund
        branch_eq := by rw [rawActionBranch, if_neg hticket, if_neg hmessage, if_pos hrefund]
        schema_eq := by rw [parametersSchema, if_neg hticket, if_neg hmessage, if_pos hrefund]
        keys_eq := by rw [parameterKeys, if_neg hticket, if_neg hmessage, if_pos hrefund]; rfl
        leaves := by simp [issueRefundParametersShape]
        isEmpty := issueRefundParameters_isEmpty hzod }
  · refine .inr ⟨?_, ?_, ?_⟩
    · rw [rawActionBranch, if_neg hticket, if_neg hmessage, if_neg hrefund]
    · rw [parametersSchema, if_neg hticket, if_neg hmessage, if_neg hrefund]
    · rw [parameterKeys, if_neg hticket, if_neg hmessage, if_neg hrefund]

/-- An action has no issue exactly when it parses. -/
theorem rawActionIssues_isEmpty (value : JsValue) :
    (rawActionIssues zod value).isEmpty = (RawAction.safeParse value).isSome := by
  cases value with
  | object props | classInstance _ props =>
    rw [rawActionIssues, Zod.discriminatedUnionIssues]
    rcases rawActionBranch_cases hzod (propOf props (js "actionType")) with
      ⟨type, shape, schema, hbranch⟩ | ⟨hbranch, hschema, -⟩
    · have hliteral : (Zod.enum [type.toJs] id (propOf props (js "actionType"))).isSome = true := by
        rw [hbranch.literal]
        simp [Zod.enum]
      have hevidence : ∀ v,
          (Zod.boundedArrayIssues (zod.leafIssues (.string 1 none)) 0 20 v).isEmpty =
            (Zod.boundedArray Zod.nonEmptyString 0 20 v).isSome := fun v =>
        Zod.boundedArrayIssues_isEmpty (hzod.isEmpty_leafIssues _)
      rw [hbranch.branch_eq]
      simp only [Zod.strictObjectIssues_isEmpty, rawActionBranchShape, RawAction.safeParse,
        Zod.strictObject, List.map_cons, List.map_nil, Option.bind_eq_bind, Option.isSome_bind]
      split
      · simp only [Option.any_some, List.all_cons, List.all_nil, hzod.isEmpty_leafIssues,
          LeafSchema.accepts_enum, hliteral, LeafSchema.accepts_string, hevidence,
          hbranch.isEmpty, hbranch.schema_eq, any_const, Option.isSome_some, Bool.true_and]
        rfl
      · rfl
    · rw [hbranch]
      simp only [RawAction.safeParse, Zod.strictObject, Option.bind_eq_bind]
      split <;> simp [hschema]
  | _ => rfl

/-- A payload has no issue exactly when it parses. -/
theorem proposalIssues_eq_nil (payload : JsValue) :
    proposalIssues zod payload = [] ↔ ∃ actions, parseRawProposalEnvelope payload = some actions := by
  have hactions : ∀ v, (Zod.boundedArrayIssues (rawActionIssues zod) 1 5 v).isEmpty =
      (Zod.boundedArray RawAction.safeParse 1 5 v).isSome := fun v =>
    Zod.boundedArrayIssues_isEmpty (rawActionIssues_isEmpty hzod)
  rw [← Option.isSome_iff_exists, ← List.isEmpty_iff, ← Bool.eq_iff_iff, proposalIssues,
    Zod.strictObjectIssues_isEmpty, parseRawProposalEnvelope]
  simp only [List.map_cons, List.map_nil, List.all_cons, List.all_nil, hactions, Bool.and_true,
    Option.bind_eq_bind, Option.isSome_bind]

/-! ## What is reported -/

/-- No leaf of a documented report speaks of keys. -/
theorem ZodReports.Documented.reportsUnknownKey_leafIssues (schema : LeafSchema)
    (value : JsValue) : reportsUnknownKey (zod.leafIssues schema value) = false := by
  rw [reportsUnknownKey, List.any_eq_false]
  intro issue hissue
  simpa using hzod.code_ne schema value issue hissue

/-- An array of single values has no keys. -/
theorem reportsUnknownKey_leafArray (leaf : LeafSchema) (minItems maxItems : Nat)
    (value : JsValue) :
    reportsUnknownKey (Zod.boundedArrayIssues (zod.leafIssues leaf) minItems maxItems value) =
      false := by
  cases value with
  | array items =>
    simp [Zod.reportsUnknownKey_boundedArrayIssues, hzod.reportsUnknownKey_leafIssues]
  | _ => exact reportsUnknownKey_of_ne (by decide) _

/-- An object of single values reports its own keys only. -/
theorem reportsUnknownKey_leafObject {shape : List (JsString × (JsValue → List MinimalZodIssue))}
    (hleaves : ∀ field ∈ shape, ∃ leaf, field.2 = zod.leafIssues leaf) (value : JsValue) :
    reportsUnknownKey (Zod.strictObjectIssues shape value) =
      hasCheckedUnknownKey (shape.map Prod.fst) value := by
  have hfields : (shape.any fun field =>
      (value.field field.1).any fun v => reportsUnknownKey (field.2 v)) = false := by
    rw [List.any_eq_false]
    intro field hfield
    obtain ⟨leaf, hleaf⟩ := hleaves field hfield
    simp [hleaf, hzod.reportsUnknownKey_leafIssues]
  rw [Zod.reportsUnknownKey_strictObjectIssues, hfields, Bool.or_false]

/-- An action reports the keys its branch does not list, when it selects one. -/
theorem reportsUnknownKey_rawActionIssues (action : JsValue) :
    reportsUnknownKey (rawActionIssues zod action) =
      (((action.field (js "actionType")).bind parameterKeys).isSome &&
        (hasCheckedUnknownKey rawActionKeys action || hasCheckedUnknownParameter action)) := by
  rw [rawActionIssues, Zod.reportsUnknownKey_discriminatedUnionIssues, hasCheckedUnknownParameter]
  cases action.field (js "actionType") with
  | none => rfl
  | some actionType =>
    rw [Option.bind_some, Option.bind_some]
    rcases rawActionBranch_cases hzod actionType with
      ⟨type, shape, schema, hbranch⟩ | ⟨hbranch, -, hkeys⟩
    · rw [hbranch.branch_eq, hbranch.keys_eq]
      simp [Zod.reportsUnknownKey_strictObjectIssues, rawActionBranchShape,
        hzod.reportsUnknownKey_leafIssues, reportsUnknownKey_leafArray hzod,
        reportsUnknownKey_leafObject hzod hbranch.leaves, rawActionKeys]
    · rw [hbranch, hkeys]
      rfl

/-- A payload reports the unknown fields of every object a schema looks at. -/
theorem reportsUnknownKey_proposalIssues (payload : JsValue) :
    reportsUnknownKey (proposalIssues zod payload) = hasCheckedUnknownField payload := by
  simp only [proposalIssues, Zod.reportsUnknownKey_strictObjectIssues, hasCheckedUnknownField,
    payloadActions, List.map_cons, List.map_nil, List.any_cons, List.any_nil, Bool.or_false]
  congr 1
  cases payload.field (js "actions") with
  | none => rfl
  | some actions =>
    rw [Option.any_some]
    cases actions with
    | array items =>
      simp only [Zod.reportsUnknownKey_boundedArrayIssues, reportsUnknownKey_rawActionIssues hzod]
    | _ => exact reportsUnknownKey_of_ne (by decide) _

end

/-! ## The reason code -/

/-- The reason code is `UNKNOWN_FIELD` exactly when some issue reports an unknown key. -/
theorem mapZodErrorToReasonCode_eq_unknownField_iff {issues : List MinimalZodIssue} :
    mapZodErrorToReasonCode issues = .unknownField ↔ reportsUnknownKey issues = true := by
  rw [mapZodErrorToReasonCode, reportsUnknownKey]
  split
  · rename_i h
    simp [h]
  · rename_i h
    refine iff_of_false ?_ h
    split
    · simp
    · split <;> simp

/-- `parseModelProposal` keeps the actions of the result. -/
theorem parseModelProposal_eq_some_iff [Host] (zod : ZodReports) {raw : JsString}
    {actions : List RawAction} :
    parseModelProposal raw = some actions ↔ parseModelProposalResult zod raw = .ok actions := by
  rw [parseModelProposal, parseModelProposalResult]
  split
  · simp
  · cases jsonParse raw with
    | none => simp
    | some payload =>
      cases hparse : parseRawProposalEnvelope payload <;> simp [hparse]

/-- What is rejected as `UNKNOWN_FIELD`: the payloads with an unknown field in an object that a
    schema looks at. -/
theorem parseModelProposalResult_unknownField_iff [Host] {zod : ZodReports}
    (hzod : zod.Documented) {raw : JsString} {payload : JsValue}
    (hsize : utf8ByteLength raw ≤ maxProposalBytes) (hpayload : jsonParse raw = some payload) :
    (∃ details, parseModelProposalResult zod raw = .rejected .unknownField details) ↔
      hasCheckedUnknownField payload = true := by
  rw [← reportsUnknownKey_proposalIssues hzod, ← mapZodErrorToReasonCode_eq_unknownField_iff]
  cases hactions : parseRawProposalEnvelope payload with
  | some actions =>
    have hnil : proposalIssues zod payload = [] :=
      (proposalIssues_eq_nil hzod payload).mpr ⟨actions, hactions⟩
    simp [parseModelProposalResult, Nat.not_lt.mpr hsize, hpayload, hactions, hnil,
      mapZodErrorToReasonCode]
  | none =>
    simp [parseModelProposalResult, Nat.not_lt.mpr hsize, hpayload, hactions]

/-- What is accepted is a text of at most 64 KiB whose payload has no unknown field that a
    schema looks at. -/
theorem parseModelProposalResult_ok [Host] {zod : ZodReports} (hzod : zod.Documented)
    {raw : JsString} {actions : List RawAction}
    (h : parseModelProposalResult zod raw = .ok actions) :
    utf8ByteLength raw ≤ maxProposalBytes ∧
      ∃ payload, jsonParse raw = some payload ∧ hasCheckedUnknownField payload = false := by
  by_cases hsize : maxProposalBytes < utf8ByteLength raw
  · rw [parseModelProposalResult, if_pos hsize] at h
    cases h
  have hsize : utf8ByteLength raw ≤ maxProposalBytes := Nat.le_of_not_lt hsize
  cases hpayload : jsonParse raw with
  | none =>
    rw [parseModelProposalResult, if_neg (Nat.not_lt.mpr hsize), hpayload] at h
    cases h
  | some payload =>
    refine ⟨hsize, payload, rfl, Bool.eq_false_iff.mpr fun hunknown => ?_⟩
    -- it would have been rejected
    obtain ⟨details, hrejected⟩ :=
      (parseModelProposalResult_unknownField_iff hzod hsize hpayload).mpr hunknown
    cases h.symm.trans hrejected

/-- A payload with unknown fields, all of them named `__proto__` or keys of actions that
    select no branch. -/
def unknownFieldsUnchecked (payload : JsValue) : Bool :=
  hasUnknownField payload && !hasCheckedUnknownField payload

/-- An unknown field is rejected as one, whatever else is wrong, unless no schema looks at the
    objects it is in or the strict objects skip it. -/
theorem unknownField_never_masked_iff [Host] {zod : ZodReports} (hzod : zod.Documented)
    {raw : JsString} {payload : JsValue} (hsize : utf8ByteLength raw ≤ maxProposalBytes)
    (hpayload : jsonParse raw = some payload) :
    (hasUnknownField payload = true →
        ∃ details, parseModelProposalResult zod raw = .rejected .unknownField details) ↔
      unknownFieldsUnchecked payload = false := by
  rw [parseModelProposalResult_unknownField_iff hzod hsize hpayload, unknownFieldsUnchecked]
  cases hasUnknownField payload <;> simp

namespace Sample

/-- Reports as zod words them for a payload with the key `modelConfidence`. -/
def zodReports : ZodReports where
  leafIssues schema value :=
    if schema.accepts value then [] else [{ code := js "invalid_type", path := [] }]
  errorMessage _ :=
    js "[\n  \x7b\n    \"code\": \"unrecognized_keys\",\n    \"keys\": [\n" ++
      js "      \"modelConfidence\"\n    ],\n    \"path\": [],\n" ++
      js "    \"message\": \"Unrecognized key: \\\"modelConfidence\\\"\"\n  \x7d\n]"
  syntaxErrorMessage _ := js "Unexpected end of JSON input"

theorem zodReports_documented : zodReports.Documented where
  leafIssues_eq_nil schema value := by simp [zodReports]
  code_ne schema value issue hissue := by
    have hcode : issue = { code := js "invalid_type", path := [] } := by
      simp only [zodReports] at hissue
      split at hissue
      · cases hissue
      · exact List.mem_singleton.mp hissue
    rw [hcode]
    decide

/-- A ticket, and a key next to `actions`. -/
def confidentProposal : Canonical :=
  .object [(js "actions", .array [proposedAction .createInternalTicket (js "incident-1")
      [(js "title", .string (js "x"))]]),
    (js "modelConfidence", .bool true)]

/-- An action of an unknown type with a key of its own. -/
def missileProposal : Canonical :=
  .object [(js "actions", .array [.object [(js "actionType", .string (js "launch_missiles")),
    (js "resourceId", .string (js "x")), (js "evidenceRefs", .array []),
    (js "parameters", .object []), (js "verified", .bool true)]])]

/-- A ticket, and a key `__proto__` next to `actions`. -/
def protoProposal : JsString :=
  js "\x7b\"actions\":[\x7b\"actionType\":\"create_internal_ticket\",\"resourceId\":\"x\"," ++
    js "\"evidenceRefs\":[],\"parameters\":\x7b\"title\":\"x\"\x7d\x7d],\"__proto__\":true\x7d"

end Sample

/-- The extra key is the only thing wrong with the first payload. -/
theorem Sample.confidentProposal_unknownField :
    hasUnknownField confidentProposal.reread = true ∧
      ((hasUnknownField confidentProposal.reread = true →
          ∃ details, @parseModelProposalResult node zodReports (stringify confidentProposal) =
            .rejected .unknownField details) ↔
        unknownFieldsUnchecked confidentProposal.reread = false) :=
  ⟨by decide +kernel, @unknownField_never_masked_iff node _ zodReports_documented _ _
    (by decide +kernel) (@jsonParse_stringify node _ (Canonical.readExactly_node _))⟩

/-- The extra key of the second is not reported: the only issue is the unknown type. -/
theorem unknownField_masked :
    @jsonParse node (stringify Sample.missileProposal) = some Sample.missileProposal.reread ∧
      utf8ByteLength (stringify Sample.missileProposal) ≤ maxProposalBytes ∧
      hasUnknownField Sample.missileProposal.reread = true ∧
      ∀ zod, @parseModelProposalResult node zod (stringify Sample.missileProposal) =
        .rejected .invalidProposal (zod.errorMessage
          [{ code := js "invalid_union"
             path := [.name (js "actions"), .index 0, .name (js "actionType")] }]) := by
  have hpayload := @jsonParse_stringify node Sample.missileProposal (Canonical.readExactly_node _)
  have hsize : utf8ByteLength (stringify Sample.missileProposal) ≤ maxProposalBytes := by
    decide +kernel
  refine ⟨hpayload, hsize, by decide +kernel, fun zod => ?_⟩
  have hnone : parseRawProposalEnvelope Sample.missileProposal.reread = none := by
    decide +kernel
  simp only [parseModelProposalResult, Nat.not_lt.mpr hsize, if_false, hpayload, hnone]
  rfl

/-- The key of the third is skipped: the payload is accepted. -/
example : (@jsonParse node Sample.protoProposal).any hasUnknownField = true ∧
    (@parseModelProposal node Sample.protoProposal).isSome = true := by
  decide +kernel

end ActionHarbor
