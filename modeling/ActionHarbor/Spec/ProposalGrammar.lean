import ActionHarbor.Model.ModelAdapter
import ActionHarbor.Spec.Receipts
import ActionHarbor.Spec.SameJson

/-!
# The proposal grammar

`parseModelProposal` reads back what is printed of actions within the bounds of the
schemas. The fake model builds such actions for every goal: it cuts each text to the
bound of its field, and where it copies the goal by itself the goal is not empty.

## Key results

- `RawAction.Valid.safeParse_reread`: an action within bounds is read back from its text
- `parseModelProposal_stringify`: so is an envelope of one to five of them
- `fakeModel_speaks_grammar`: whatever is asked of the fake model, its answer parses
-/

namespace ActionHarbor

/-! ## Printing actions -/

/-- Properties that are no array indices keep their order. -/
theorem inPropertyOrder_of_names {α : Type} {props : List (JsString × α)}
    (h : ∀ p ∈ props, arrayIndex p.1 = none) : inPropertyOrder props = props := by
  have hindexed : props.filter (fun p => (arrayIndex p.1).isSome) = [] :=
    List.filter_eq_nil_iff.mpr fun p hp => by simp [h p hp]
  have hnamed : props.filter (fun p => (arrayIndex p.1).isNone) = props :=
    List.filter_eq_self.mpr fun p hp => by simp [h p hp]
  simp only [inPropertyOrder, hindexed, hnamed, List.insertionSort_nil, List.nil_append]

/-- Printed objects whose keys are distinct names are read back in their order. -/
theorem reread_object_of_names {fields : List (JsString × Canonical)} (names : List JsString)
    (hfields : AssocList.keys fields = names) (hdistinct : names.Nodup)
    (hnames : ∀ name ∈ names, arrayIndex name = none) :
    (Canonical.object fields).reread = .object (fields.map fun p => (p.1, p.2.reread)) := by
  have hkeys : AssocList.keys (Canonical.rereadProps fields) = names := by
    rw [rereadProps_eq, ← hfields, AssocList.keys, List.map_map]
    rfl
  rw [Canonical.reread, objectOfMembers_eq (hkeys ▸ hdistinct), inPropertyOrder_of_names,
    rereadProps_eq]
  intro p hp
  exact hnames p.1 (hkeys ▸ List.mem_map_of_mem hp)

/-- The elements of a printed array are read back one by one. -/
theorem rereadItems_eq (items : List Canonical) :
    Canonical.rereadItems items = items.map Canonical.reread := by
  induction items with
  | nil => rfl
  | cons item rest ih => rw [Canonical.rereadItems, ih, List.map_cons]

/-- The fields of parameters in the order of their schema. -/
def RawActionParameters.toFields : RawActionParameters → List (JsString × Canonical)
  | .createInternalTicket title description priority =>
    [(js "title", .string title)] ++
      (description.map fun text => (js "description", Canonical.string text)).toList ++
      (priority.map fun text => (js "priority", Canonical.string text)).toList
  | .sendCustomerMessage customerId body channel =>
    [(js "customerId", .string customerId), (js "body", .string body),
      (js "channel", .string channel)]
  | .issueRefund orderId amountMinorInteger currency reason =>
    [(js "orderId", .string orderId), (js "amountMinorInteger", .number amountMinorInteger),
      (js "currency", .string currency), (js "reason", .string reason)]

/-- An action as it is printed. -/
def RawAction.toCanonical (action : RawAction) : Canonical :=
  .object [(js "actionType", .string action.actionType.toJs),
    (js "resourceId", .string action.resourceId),
    (js "evidenceRefs", .array (action.evidenceRefs.map .string)),
    (js "parameters", .object action.parameters.toFields)]

/-- Parameters within the bounds of their schema. -/
def RawActionParameters.Valid : RawActionParameters → Prop
  | .createInternalTicket title description priority =>
    (1 ≤ title.length ∧ title.length ≤ 120) ∧ (∀ text ∈ description, text.length ≤ 2000) ∧
      ∀ text ∈ priority, text ∈ ticketPriorities
  | .sendCustomerMessage customerId body channel =>
    1 ≤ customerId.length ∧ (1 ≤ body.length ∧ body.length ≤ 2000) ∧ channel ∈ messageChannels
  | .issueRefund orderId amountMinorInteger currency reason =>
    1 ≤ orderId.length ∧
      Zod.positiveInt (.number amountMinorInteger) = some amountMinorInteger ∧
      currency.length = 3 ∧ 1 ≤ reason.length ∧ reason.length ≤ 300

/-- An action within the bounds of its schema. -/
structure RawAction.Valid (action : RawAction) : Prop where
  resourceId : 1 ≤ action.resourceId.length
  evidenceCount : action.evidenceRefs.length ≤ 20
  evidenceRefs : ∀ ref ∈ action.evidenceRefs, 1 ≤ ref.length
  parameters : action.parameters.Valid

/-! ## Reading them back -/

/-- Every element that parses to what it was printed of makes an array that does. -/
theorem boundedArray_map {α : Type} {schema : JsValue → Option α} {minItems maxItems : Nat}
    {print : α → JsValue} {values : List α} (hmin : minItems ≤ values.length)
    (hmax : values.length ≤ maxItems) (h : ∀ value ∈ values, schema (print value) = some value) :
    Zod.boundedArray schema minItems maxItems (.array (values.map print)) = some values := by
  rw [Zod.boundedArray, if_pos (by rw [List.length_map]; exact ⟨hmin, hmax⟩)]
  clear hmin hmax
  induction values with
  | nil => rfl
  | cons value rest ih =>
    rw [List.map_cons, List.mapM_cons, h value List.mem_cons_self,
      ih fun value hvalue => h value (List.mem_cons_of_mem _ hvalue)]
    rfl

/-- Ticket parameters within bounds are read back. -/
theorem parseCreateInternalTicketParameters_reread {title : JsString}
    {description priority : Option JsString}
    (h : (RawActionParameters.createInternalTicket title description priority).Valid) :
    parseCreateInternalTicketParameters
        (Canonical.object (RawActionParameters.toFields (.createInternalTicket title description priority))).reread =
      some (.createInternalTicket title description priority) := by
  obtain ⟨htitle, hdescription, hpriority⟩ := h
  have hread : (Canonical.object
        (RawActionParameters.toFields (.createInternalTicket title description priority))).reread =
      .object ([(js "title", .string title)] ++
        (description.map fun text => (js "description", JsValue.string text)).toList ++
        (priority.map fun text => (js "priority", JsValue.string text)).toList) := by
    -- an option that is not given has no property
    cases description <;> cases priority
    · exact reread_object_of_names [js "title"] rfl (by decide) (by decide)
    · exact reread_object_of_names [js "title", js "priority"] rfl (by decide) (by decide)
    · exact reread_object_of_names [js "title", js "description"] rfl (by decide) (by decide)
    · exact reread_object_of_names [js "title", js "description", js "priority"] rfl (by decide)
        (by decide)
  rw [hread]
  simp only [parseCreateInternalTicketParameters, Option.bind_eq_bind, Option.bind_eq_some_iff,
    Zod.strictObject_eq_some, Zod.boundedString_eq_some]
  refine ⟨_, ⟨.object, ?_⟩, title, ⟨by simp, htitle.1, by simpa using htitle.2⟩, description, ?_,
    priority, ?_, rfl⟩
  · cases description <;> cases priority <;> simp
  · rw [Zod.optional_eq_some rfl]
    cases description with
    | none => cases priority <;> simp
    | some text =>
      refine .inr ⟨text, rfl, Zod.boundedString_eq_some.mpr ⟨by simp, Nat.zero_le _, ?_⟩⟩
      rintro _ ⟨⟩
      exact hdescription text rfl
  · rw [Zod.optional_eq_some rfl]
    cases priority with
    | none => cases description <;> simp
    | some text =>
      refine .inr ⟨text, rfl, Zod.enum_id_eq_some.mpr ⟨?_, hpriority text rfl⟩⟩
      cases description <;> simp

/-- Message parameters within bounds are read back. -/
theorem parseSendCustomerMessageParameters_reread {customerId body channel : JsString}
    (h : (RawActionParameters.sendCustomerMessage customerId body channel).Valid) :
    parseSendCustomerMessageParameters
        (Canonical.object (RawActionParameters.toFields (.sendCustomerMessage customerId body channel))).reread =
      some (.sendCustomerMessage customerId body channel) := by
  obtain ⟨hcustomerId, hbody, hchannel⟩ := h
  rw [reread_object_of_names [js "customerId", js "body", js "channel"] rfl (by decide)
    (by decide)]
  simp only [RawActionParameters.toFields, parseSendCustomerMessageParameters, Option.bind_eq_bind,
    Option.bind_eq_some_iff, Zod.strictObject_eq_some, Zod.nonEmptyString,
    Zod.boundedString_eq_some, Zod.enum_id_eq_some]
  refine ⟨_, ⟨.object, ?_⟩, customerId, ⟨?_, hcustomerId, ?_⟩, body, ⟨?_, hbody.1, ?_⟩, channel,
    ⟨?_, hchannel⟩, rfl⟩
  all_goals simp [Canonical.reread, hbody.2]

/-- Refund parameters within bounds are read back. -/
theorem parseIssueRefundParameters_reread {orderId currency reason : JsString}
    {amountMinorInteger : JsNumber}
    (h : (RawActionParameters.issueRefund orderId amountMinorInteger currency reason).Valid) :
    parseIssueRefundParameters
        (Canonical.object (RawActionParameters.toFields
          (.issueRefund orderId amountMinorInteger currency reason))).reread =
      some (.issueRefund orderId amountMinorInteger currency reason) := by
  obtain ⟨horderId, hamount, hcurrency, hreason⟩ := h
  obtain ⟨-, d, rfl, -⟩ := Zod.positiveInt_eq_some.mp hamount
  rw [reread_object_of_names [js "orderId", js "amountMinorInteger", js "currency", js "reason"]
    rfl (by decide) (by decide)]
  simp only [RawActionParameters.toFields, parseIssueRefundParameters, Option.bind_eq_bind,
    Option.bind_eq_some_iff, Zod.strictObject_eq_some, Zod.nonEmptyString,
    Zod.boundedString_eq_some]
  refine ⟨_, ⟨.object, ?_⟩, orderId, ⟨?_, horderId, ?_⟩, _, ?_, currency, ⟨?_, ?_, ?_⟩, reason,
    ⟨?_, hreason.1, ?_⟩, rfl⟩
  all_goals simp [Canonical.reread, hcurrency, hreason.2]
  exact hamount

/-- Parameters within bounds are read back by the schema their action type selects. -/
theorem RawActionParameters.parse_reread {parameters : RawActionParameters}
    (h : parameters.Valid) :
    ∃ schema, parametersSchema (.string parameters.actionType.toJs) = some schema ∧
      schema (Canonical.object parameters.toFields).reread = some parameters := by
  cases parameters with
  | createInternalTicket title description priority =>
    exact ⟨_, rfl, parseCreateInternalTicketParameters_reread h⟩
  | sendCustomerMessage customerId body channel =>
    exact ⟨_, rfl, parseSendCustomerMessageParameters_reread h⟩
  | issueRefund orderId amountMinorInteger currency reason =>
    exact ⟨_, rfl, parseIssueRefundParameters_reread h⟩

/-- An action within bounds is read back from what is printed of it. -/
theorem RawAction.Valid.safeParse_reread {action : RawAction} (h : action.Valid) :
    RawAction.safeParse action.toCanonical.reread = some action := by
  obtain ⟨schema, hschema, hparameters⟩ := RawActionParameters.parse_reread h.parameters
  have hrefs : (Canonical.array (action.evidenceRefs.map .string)).reread =
      .array (action.evidenceRefs.map .string) := by
    rw [Canonical.reread, rereadItems_eq, List.map_map]
    rfl
  have hprinted : ∀ ref ∈ action.evidenceRefs, Zod.nonEmptyString (.string ref) = some ref := by
    intro ref href
    exact Zod.boundedString_eq_some.mpr ⟨rfl, h.evidenceRefs ref href, by simp⟩
  rw [RawAction.toCanonical, reread_object_of_names
    [js "actionType", js "resourceId", js "evidenceRefs", js "parameters"] rfl (by decide)
    (by decide)]
  simp only [RawAction.safeParse, Option.bind_eq_bind, Option.bind_eq_some_iff,
    Zod.strictObject_eq_some, Zod.nonEmptyString, Zod.boundedString_eq_some]
  refine ⟨_, ⟨.object, by simp⟩, schema, ?_, action.resourceId, ⟨?_, h.resourceId, by simp⟩,
    action.evidenceRefs, ?_, action.parameters, ?_, rfl⟩
  · simpa [Canonical.reread, RawAction.actionType] using hschema
  · simp [Canonical.reread]
  · simpa [hrefs, Zod.nonEmptyString] using
      boundedArray_map (Nat.zero_le _) h.evidenceCount hprinted
  · simpa using hparameters

/-- The envelope of some actions. -/
def proposalEnvelope (actions : List RawAction) : Canonical :=
  .object [(js "actions", .array (actions.map RawAction.toCanonical))]

/-- A list of values without a rounded number. -/
theorem readExactlyItems_iff [Host] {items : List Canonical} :
    Canonical.ReadExactlyItems items ↔ ∀ item ∈ items, item.ReadExactly := by
  induction items with
  | nil => simp [Canonical.ReadExactlyItems]
  | cons item rest ih => simp [Canonical.ReadExactlyItems, ih]

/-- The amount of a refund, as far as the parameters have one. -/
def RawActionParameters.amount : RawActionParameters → Option JsNumber
  | .issueRefund _ amountMinorInteger _ _ => some amountMinorInteger
  | _ => none

/-- An action holds no number but its amount. -/
theorem RawAction.readExactly_toCanonical [Host] {action : RawAction}
    (h : ∀ amount ∈ action.parameters.amount, amount.ReadExactly) :
    action.toCanonical.ReadExactly := by
  have hrefs : Canonical.ReadExactlyItems (action.evidenceRefs.map .string) := by
    rw [readExactlyItems_iff]
    intro item hitem
    obtain ⟨ref, -, rfl⟩ := List.mem_map.mp hitem
    trivial
  have hfields : Canonical.ReadExactlyProps action.parameters.toFields := by
    obtain ⟨resourceId, evidenceRefs, parameters⟩ := action
    cases parameters with
    | createInternalTicket title description priority =>
      cases description <;> cases priority <;>
        simp [RawActionParameters.toFields, Canonical.ReadExactlyProps, Canonical.ReadExactly]
    | sendCustomerMessage customerId body channel =>
      simp [RawActionParameters.toFields, Canonical.ReadExactlyProps, Canonical.ReadExactly]
    | issueRefund orderId amountMinorInteger currency reason =>
      exact ⟨trivial, h _ rfl, trivial, trivial, trivial⟩
  exact ⟨trivial, trivial, hrefs, hfields, trivial⟩

/-- One to five actions within bounds are read back from the text of their envelope, unless
    it is too long. -/
theorem parseModelProposal_stringify [Host] {actions : List RawAction}
    (hvalid : ∀ action ∈ actions, action.Valid) (hmin : 1 ≤ actions.length)
    (hmax : actions.length ≤ 5)
    (hexact : ∀ action ∈ actions, ∀ amount ∈ action.parameters.amount, amount.ReadExactly)
    (hsize : utf8ByteLength (stringify (proposalEnvelope actions)) ≤ maxProposalBytes) :
    parseModelProposal (stringify (proposalEnvelope actions)) = some actions := by
  have hread : (proposalEnvelope actions).ReadExactly := by
    refine ⟨readExactlyItems_iff.mpr fun item hitem => ?_, trivial⟩
    obtain ⟨action, haction, rfl⟩ := List.mem_map.mp hitem
    exact RawAction.readExactly_toCanonical (hexact action haction)
  have hactions : (proposalEnvelope actions).reread = .object [(js "actions",
      .array (actions.map fun action => action.toCanonical.reread))] := by
    rw [proposalEnvelope, reread_object_of_names [js "actions"] rfl (by decide) (by decide)]
    simp [Canonical.reread, rereadItems_eq]
  rw [parseModelProposal, if_neg (Nat.not_lt.mpr hsize), jsonParse_stringify _ hread, hactions,
    Option.bind_some, parseRawProposalEnvelope]
  simp only [Option.bind_eq_bind, Option.bind_eq_some_iff, Zod.strictObject_eq_some]
  refine ⟨_, ⟨.object, by simp⟩, ?_⟩
  simpa using boundedArray_map hmin hmax fun action haction =>
    (hvalid action haction).safeParse_reread

/-! ## The fake model -/

section
variable [Host]

/-- The actions the fake model builds for the keywords of a goal, as the parser returns them. -/
def FakeModelAdapter.matched (request : ModelProposeRequest) : List RawAction :=
  let goal := Host.toLowerCase request.goal
  (if includes goal (js "ticket") || includes goal (js "incident") then
      [⟨request.resourceId, [],
        .createInternalTicket (truncate request.goal 120) none (some (js "medium"))⟩]
    else []) ++
  (if includes goal (js "message") || includes goal (js "email") || includes goal (js "notify") ||
        includes goal (js "sms") then
      [⟨request.resourceId, [], .sendCustomerMessage request.resourceId
        (truncate (js "Update regarding: " ++ request.goal) 2000)
        (if includes goal (js "sms") then js "sms" else js "email")⟩]
    else []) ++
  (if includes goal (js "refund") then
      [⟨request.resourceId, [],
        .issueRefund request.resourceId (.ofNat 1000) (js "USD") (truncate request.goal 300)⟩]
    else [])

/-- All it builds: without a keyword, a ticket for a review. -/
def FakeModelAdapter.planned (request : ModelProposeRequest) : List RawAction :=
  if (matched request).isEmpty then
    [⟨request.resourceId, [],
      .createInternalTicket (truncate (js "Review needed: " ++ request.goal) 120) none
        (some (js "low"))⟩]
  else matched request

/-- The fake model pushes what is printed of them. -/
theorem FakeModelAdapter.actions_eq (request : ModelProposeRequest) :
    FakeModelAdapter.actions request =
      (FakeModelAdapter.planned request).map RawAction.toCanonical := by
  unfold FakeModelAdapter.actions FakeModelAdapter.planned FakeModelAdapter.matched
  generalize Host.toLowerCase request.goal = goal
  cases hticket : includes goal (js "ticket") || includes goal (js "incident") <;>
    cases hmessage : includes goal (js "message") || includes goal (js "email") ||
        includes goal (js "notify") || includes goal (js "sms") <;>
    cases hrefund : includes goal (js "refund") <;>
    simp only [hticket, hmessage, hrefund, if_true, Bool.false_eq_true, if_false]
  all_goals rfl

/-- A goal has keywords for three actions at most. -/
theorem FakeModelAdapter.length_matched (request : ModelProposeRequest) :
    (FakeModelAdapter.matched request).length ≤ 3 := by
  have hone : ∀ (found : Bool) (action : RawAction),
      (if found then [action] else []).length ≤ 1 := by
    intro found action
    cases found <;> simp
  rw [FakeModelAdapter.matched, List.length_append, List.length_append]
  exact Nat.add_le_add (Nat.add_le_add (hone _ _) (hone _ _)) (hone _ _)

/-- One to three actions are built. -/
theorem FakeModelAdapter.length_planned (request : ModelProposeRequest) :
    1 ≤ (FakeModelAdapter.planned request).length ∧
      (FakeModelAdapter.planned request).length ≤ 3 := by
  unfold FakeModelAdapter.planned
  split
  · simp
  · rename_i hmatched
    rw [List.isEmpty_iff] at hmatched
    exact ⟨List.length_pos_iff.mpr hmatched, FakeModelAdapter.length_matched request⟩

/-- The kinds of actions the fake model builds. One that copies the goal by itself is built
    for a goal with a keyword in it. -/
inductive FakeModelAdapter.Builds (request : ModelProposeRequest) : RawAction → Prop
  | ticket (hgoal : request.goal ≠ []) :
      Builds request ⟨request.resourceId, [],
        .createInternalTicket (truncate request.goal 120) none (some (js "medium"))⟩
  | message (channel : JsString) (hchannel : channel ∈ messageChannels) :
      Builds request ⟨request.resourceId, [], .sendCustomerMessage request.resourceId
        (truncate (js "Update regarding: " ++ request.goal) 2000) channel⟩
  | refund (hgoal : request.goal ≠ []) :
      Builds request ⟨request.resourceId, [],
        .issueRefund request.resourceId (.ofNat 1000) (js "USD") (truncate request.goal 300)⟩
  | review :
      Builds request ⟨request.resourceId, [],
        .createInternalTicket (truncate (js "Review needed: " ++ request.goal) 120) none
          (some (js "low"))⟩

/-- Every action is of one of these kinds, if the empty text has no letters to lower. -/
theorem FakeModelAdapter.builds_of_mem (hlower : Host.toLowerCase [] = [])
    {request : ModelProposeRequest} {action : RawAction}
    (h : action ∈ FakeModelAdapter.planned request) : Builds request action := by
  -- the empty goal holds no keyword
  have hgoal : ∀ needle, needle ≠ [] →
      includes (Host.toLowerCase request.goal) needle = true → request.goal ≠ [] := by
    intro needle hneedle hfound hempty
    rw [hempty, hlower] at hfound
    cases needle with
    | nil => exact hneedle rfl
    | cons u rest => cases hfound
  unfold FakeModelAdapter.planned at h
  split at h
  · rw [List.mem_singleton] at h
    exact h ▸ .review
  · rw [FakeModelAdapter.matched, List.mem_append, List.mem_append] at h
    obtain (hticket | hmessage) | hrefund := h
    · split at hticket
      · rename_i hfound
        rw [List.mem_singleton] at hticket
        rw [Bool.or_eq_true] at hfound
        exact hticket ▸ .ticket
          (hfound.elim (hgoal _ (by decide)) (hgoal _ (by decide)))
      · cases hticket
    · split at hmessage
      · rw [List.mem_singleton] at hmessage
        exact hmessage ▸ .message _ (by split <;> decide)
      · cases hmessage
    · split at hrefund
      · rename_i hfound
        rw [List.mem_singleton] at hrefund
        exact hrefund ▸ .refund (hgoal _ (by decide) hfound)
      · cases hrefund

omit [Host] in
/-- A text is cut to the length it may have. -/
theorem length_truncate (text : JsString) (maxLength : Nat) :
    (truncate text maxLength).length = min text.length maxLength := by
  unfold truncate
  split
  · rw [List.length_take]
    omega
  · omega

omit [Host] in
/-- What is built is within the bounds of the schemas. -/
theorem FakeModelAdapter.Builds.valid {request : ModelProposeRequest} {action : RawAction}
    (h : Builds request action) (hresource : request.resourceId ≠ []) : action.Valid := by
  have hid : 1 ≤ request.resourceId.length := List.length_pos_iff.mpr hresource
  -- `truncate` keeps every text within its bound, and none is empty
  have hparameters : action.parameters.Valid := by
    cases h with
    | ticket hgoal =>
      have := List.length_pos_iff.mpr hgoal
      refine ⟨?_, by simp, ?_⟩
      · rw [length_truncate]
        omega
      · rintro _ ⟨⟩
        decide
    | message channel hchannel =>
      refine ⟨hid, ?_, hchannel⟩
      rw [length_truncate, List.length_append]
      have : (js "Update regarding: ").length = 18 := by decide
      omega
    | refund hgoal =>
      have := List.length_pos_iff.mpr hgoal
      refine ⟨hid, by decide, by decide, ?_⟩
      rw [length_truncate]
      omega
    | review =>
      refine ⟨?_, by simp, ?_⟩
      · rw [length_truncate, List.length_append]
        have : (js "Review needed: ").length = 15 := by decide
        omega
      · rintro _ ⟨⟩
        decide
  cases h <;> exact ⟨hid, by simp, by simp, hparameters⟩

/-- Whatever the goal, the answer of the fake model parses: to the one to three actions it
    built, all on the resource it was asked about. -/
theorem fakeModel_speaks_grammar (hlower : Host.toLowerCase [] = [])
    (hexact : (JsNumber.ofNat 1000).ReadExactly) (request : ModelProposeRequest)
    (hresource : request.resourceId ≠ [])
    (hsize : utf8ByteLength (FakeModelAdapter.propose request) ≤ maxProposalBytes) :
    ∃ actions, parseModelProposal (FakeModelAdapter.propose request) = some actions ∧
      1 ≤ actions.length ∧ actions.length ≤ 3 ∧
      (∀ action ∈ actions, action.resourceId = request.resourceId) ∧
      FakeModelAdapter.actions request = actions.map RawAction.toCanonical := by
  have hbuilds := fun action => @FakeModelAdapter.builds_of_mem _ hlower request action
  obtain ⟨hmin, hmax⟩ := FakeModelAdapter.length_planned request
  have hanswer : FakeModelAdapter.propose request =
      stringify (proposalEnvelope (FakeModelAdapter.planned request)) := by
    rw [FakeModelAdapter.propose, FakeModelAdapter.actions_eq, proposalEnvelope]
  refine ⟨FakeModelAdapter.planned request, ?_, hmin, hmax, fun action haction => ?_,
    FakeModelAdapter.actions_eq request⟩
  · rw [hanswer] at hsize ⊢
    refine parseModelProposal_stringify (fun action haction => (hbuilds action haction).valid hresource)
      hmin (by omega) (fun action haction amount hamount => ?_) hsize
    cases hbuilds action haction with
    | refund hgoal =>
      obtain rfl := Option.some.inj hamount
      exact hexact
    | ticket | message | review => cases hamount
  · cases hbuilds action haction <;> rfl

end

/-- An answer with a message and a refund in it. -/
theorem Sample.smsRefund_parses :
    ∃ actions, @parseModelProposal node (@FakeModelAdapter.propose node
        ⟨js "Notify by SMS: refund issued", js "order-1"⟩) = some actions ∧
      1 ≤ actions.length ∧ actions.length ≤ 3 ∧
      (∀ action ∈ actions, action.resourceId = js "order-1") ∧
      @FakeModelAdapter.actions node ⟨js "Notify by SMS: refund issued", js "order-1"⟩ =
        actions.map RawAction.toCanonical :=
  @fakeModel_speaks_grammar node rfl (fun _ _ _ => rfl)
    ⟨js "Notify by SMS: refund issued", js "order-1"⟩ (by decide) (by decide +kernel)

end ActionHarbor
