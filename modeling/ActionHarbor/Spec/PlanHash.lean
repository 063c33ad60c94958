import ActionHarbor.Model.ModelAdapter
import ActionHarbor.Spec.CanonicalText
import ActionHarbor.Spec.PlannedParams
import ActionHarbor.Spec.Receipts

/-!
# The plan hash

Approvals, capabilities and freshness checks compare plans by their hash alone. For
the plans of accepted actions the hash tells apart all that a plan says, but for the
order of keys and of evidence.

## Key results

- `isJsonData_of_parseModelProposal`: accepted parameters are JSON data
- `sameJson_planProps_iff`: two plan objects field by field
- `computeProposalHash_eq_iff`: which plans have one hash
-/

namespace ActionHarbor

/-! ## Accepted parameters -/

/-- Accepted parameters are JSON data: strings, and a finite amount. -/
theorem isJsonData_of_parameters {actionType raw : JsValue}
    {schema : JsValue → Option RawActionParameters} {parameters : RawActionParameters}
    (hschema : parametersSchema actionType = some schema) (h : schema raw = some parameters) :
    isJsonData parameters.toJsValue = true := by
  unfold parametersSchema at hschema
  -- what a schema returns is strings and a positive integer
  split at hschema
  · obtain rfl := Option.some.inj hschema
    simp only [parseCreateInternalTicketParameters, Option.bind_eq_bind,
      Option.bind_eq_some_iff, Option.some.injEq] at h
    obtain ⟨_, -, title, -, description, -, priority, -, rfl⟩ := h
    cases description <;> cases priority <;> rfl
  split at hschema
  · obtain rfl := Option.some.inj hschema
    simp only [parseSendCustomerMessageParameters, Option.bind_eq_bind,
      Option.bind_eq_some_iff, Option.some.injEq] at h
    obtain ⟨_, -, customerId, -, body, -, channel, -, rfl⟩ := h
    rfl
  split at hschema
  · obtain rfl := Option.some.inj hschema
    simp only [parseIssueRefundParameters, Option.bind_eq_bind,
      Option.bind_eq_some_iff, Option.some.injEq, Zod.positiveInt_eq_some] at h
    obtain ⟨_, -, orderId, -, amount, ⟨-, d, rfl, -⟩, currency, -, reason, -, rfl⟩ := h
    rfl
  · cases hschema

/-- What a successful `mapM` returns came out of some element. -/
theorem exists_of_mem_mapM {α β : Type} {f : α → Option β} {items : List α} {values : List β}
    (h : items.mapM f = some values) : ∀ value ∈ values, ∃ item ∈ items, f item = some value := by
  induction items generalizing values with
  | nil =>
    obtain rfl : [] = values := by simpa using h
    simp
  | cons item rest ih =>
    simp only [List.mapM_cons, Option.bind_eq_bind, Option.bind_eq_some_iff, Option.pure_def,
      Option.some.injEq] at h
    obtain ⟨head, hhead, tail, htail, rfl⟩ := h
    intro value hvalue
    rcases List.mem_cons.mp hvalue with rfl | hvalue
    · exact ⟨item, List.mem_cons_self, hhead⟩
    · obtain ⟨source, hsource, hfound⟩ := ih htail value hvalue
      exact ⟨source, List.mem_cons_of_mem _ hsource, hfound⟩

/-- The parameters of an action that `parseModelProposal` accepted are JSON data. -/
theorem isJsonData_of_parseModelProposal [Host] {raw : JsString} {actions : List RawAction}
    {action : RawAction} (h : parseModelProposal raw = some actions) (haction : action ∈ actions) :
    isJsonData action.parameters.toJsValue = true := by
  unfold parseModelProposal at h
  split at h
  · cases h
  obtain ⟨value, -, henvelope⟩ := Option.bind_eq_some_iff.mp h
  obtain ⟨props, -, hactions⟩ := Option.bind_eq_some_iff.mp henvelope
  unfold Zod.boundedArray at hactions
  split at hactions
  · split at hactions
    · obtain ⟨item, -, hitem⟩ := exists_of_mem_mapM hactions action haction
      simp only [RawAction.safeParse, Option.bind_eq_bind, Option.bind_eq_some_iff,
        Option.some.injEq] at hitem
      obtain ⟨_, -, schema, hschema, _, -, _, -, parameters, hparameters, rfl⟩ := hitem
      exact isJsonData_of_parameters hschema hparameters
    · cases hactions
  · cases hactions

/-! ## Field by field -/

/-- Lists of strings are the same JSON value when they are equal. -/
theorem sameItems_strings_iff {texts others : List JsString} :
    sameItems (texts.map .string) (others.map .string) = true ↔ texts = others := by
  induction texts generalizing others with
  | nil => cases others <;> simp [sameItems]
  | cons text rest ih =>
    cases others with
    | nil => simp [sameItems]
    | cons other others => simp [sameItems, sameJson, ih]

/-- Sorting forgets the order of evidence and nothing else. -/
theorem insertionSort_eq_iff {refs others : List JsString} :
    refs.insertionSort (· ≤ ·) = others.insertionSort (· ≤ ·) ↔ refs.Perm others := by
  have hsorted : ∀ l : List JsString, (l.insertionSort (· ≤ ·)).Pairwise (· ≤ ·) := by
    intro l
    have : IsTrans JsString (· ≤ ·) := ⟨fun _ _ _ h h' => List.le_trans h h'⟩
    have : Std.Total (α := JsString) (· ≤ ·) := ⟨List.le_total⟩
    exact List.pairwise_insertionSort _ l
  have hperm : ∀ l : List JsString, (l.insertionSort (· ≤ ·)).Perm l :=
    fun l => List.perm_insertionSort _ l
  constructor
  · intro h
    exact (hperm refs).symm.trans (h ▸ hperm others)
  · intro h
    exact ((hperm refs).trans (h.trans (hperm others).symm)).eq_of_pairwise
      (fun _ _ _ _ => List.le_antisymm) (hsorted refs) (hsorted others)

/-- One plan object is part of another, field by field. -/
theorem sameJson_planProps_iff {plan other : ProposalHashInput} :
    sameJson (.object (planProps plan)) (.object (planProps other)) = true ↔
      plan.schemaVersion = other.schemaVersion ∧ plan.actionType = other.actionType ∧
        plan.resourceId = other.resourceId ∧
        sameJson plan.parameters other.parameters = true ∧
        plan.evidenceRefs.Perm other.evidenceRefs := by
  have hfound : (planProps other).lookup (js "schemaVersion") = some (.string other.schemaVersion) ∧
      (planProps other).lookup (js "actionType") = some (.string other.actionType) ∧
      (planProps other).lookup (js "resourceId") = some (.string other.resourceId) ∧
      (planProps other).lookup (js "parameters") = some other.parameters ∧
      (planProps other).lookup (js "evidenceRefs") =
        some (.array ((other.evidenceRefs.insertionSort (· ≤ ·)).map .string)) :=
    ⟨rfl, rfl, rfl, rfl, rfl⟩
  obtain ⟨hversion, htype, hresource, hparameters, hevidence⟩ := hfound
  have hlength : (planProps plan).length = (planProps other).length := rfl
  rw [sameJson, Bool.and_eq_true, decide_eq_true_eq]
  simp only [hlength, true_and]
  -- the lookups are known, so the second object can stay closed
  generalize planProps other = props at hversion htype hresource hparameters hevidence
  simp only [planProps, sameProps, hversion, htype, hresource, hparameters, hevidence, sameJson,
    Bool.and_eq_true, decide_eq_true_eq, sameItems_strings_iff, insertionSort_eq_iff, and_true]

section
variable [Host]

/-- The parts of the plan come from an action `parseModelProposal` accepted. -/
def ProposalHashInput.ComesFromAccepted (plan : ProposalHashInput) : Prop :=
  ∃ raw actions action, parseModelProposal raw = some actions ∧ action ∈ actions ∧
    plan.actionType = action.actionType.toJs ∧ plan.resourceId = action.resourceId ∧
    plan.parameters = action.parameters.toJsValue ∧ plan.evidenceRefs = action.evidenceRefs

/-- Plans of accepted actions have one hash exactly when they are one plan, whatever
    the order of their keys and of their evidence. -/
theorem computeProposalHash_eq_iff (hdigest : DigestInjective) {plan other : ProposalHashInput}
    (hplan : plan.ComesFromAccepted) (hother : other.ComesFromAccepted) :
    (∃ hash, computeProposalHash plan = .ok hash ∧ computeProposalHash other = .ok hash) ↔
      plan.schemaVersion = other.schemaVersion ∧ plan.actionType = other.actionType ∧
        plan.resourceId = other.resourceId ∧ SameJson plan.parameters other.parameters ∧
        plan.evidenceRefs.Perm other.evidenceRefs := by
  have hjson : ∀ {plan : ProposalHashInput}, plan.ComesFromAccepted →
      isJsonData plan.parameters = true := by
    rintro plan ⟨raw, actions, action, hactions, haction, -, -, hparameters, -⟩
    rw [hparameters]
    exact isJsonData_of_parseModelProposal hactions haction
  have hagree := hashesAgree_iff_sameJson hdigest (isJsonData_plan (hjson hplan))
    (isJsonData_plan (hjson hother))
  refine hagree.trans ?_
  -- equality both ways: the evidence is compared sorted
  rw [SameJson, sameJson_planProps_iff, sameJson_planProps_iff]
  constructor
  · rintro ⟨⟨hversion, htype, hresource, hsame, hperm⟩, -, -, -, hsame', -⟩
    exact ⟨hversion, htype, hresource, ⟨hsame, hsame'⟩, hperm⟩
  · rintro ⟨hversion, htype, hresource, hsame, hperm⟩
    exact ⟨⟨hversion, htype, hresource, hsame.1, hperm⟩, hversion.symm, htype.symm,
      hresource.symm, hsame.2, hperm.symm⟩

end

namespace Sample

attribute [local instance] textsNode

/-- What a model may propose: a ticket, with evidence listed in some order. -/
def ticketProposal (refs : String) : JsString :=
  js "\x7b\"actions\":[\x7b\"actionType\":\"create_internal_ticket\",\"resourceId\":\"incident-1\"," ++
    js "\"evidenceRefs\":[" ++ js refs ++ js "],\"parameters\":\x7b\"title\":\"Cold-chain check\"\x7d\x7d]\x7d"

/-- The plan of that ticket. -/
def plannedTicket (refs : List JsString) : ProposalHashInput where
  schemaVersion := js "w3-proposal-1"
  actionType := js "create_internal_ticket"
  resourceId := js "incident-1"
  parameters := (RawActionParameters.createInternalTicket (js "Cold-chain check") none none).toJsValue
  evidenceRefs := refs

/-- Evidence in either order, one plan hash. -/
theorem reorderedEvidence_same :
    ∃ hash, computeProposalHash (plannedTicket [js "ev-1", js "ev-2"]) = .ok hash ∧
      computeProposalHash (plannedTicket [js "ev-2", js "ev-1"]) = .ok hash := by
  have hparsed :
      parseModelProposal (ticketProposal "\"ev-1\",\"ev-2\"") =
        some [⟨js "incident-1", [js "ev-1", js "ev-2"],
          .createInternalTicket (js "Cold-chain check") none none⟩] ∧
      parseModelProposal (ticketProposal "\"ev-2\",\"ev-1\"") =
        some [⟨js "incident-1", [js "ev-2", js "ev-1"],
          .createInternalTicket (js "Cold-chain check") none none⟩] := by
    decide +kernel
  refine (computeProposalHash_eq_iff textsNode_injective
    ⟨_, _, _, hparsed.1, List.mem_cons_self, rfl, rfl, rfl, rfl⟩
    ⟨_, _, _, hparsed.2, List.mem_cons_self, rfl, rfl, rfl, rfl⟩).mpr ?_
  -- field by field, so that the two lists of evidence are never compared in order
  dsimp only [plannedTicket]
  exact ⟨rfl, rfl, rfl, by decide, by decide⟩

end Sample

end ActionHarbor
