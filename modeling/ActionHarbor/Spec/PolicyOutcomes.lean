import ActionHarbor.Spec.MintSoundness

/-!
# The outcome of a policy decision

The rules of the policy are tried in order and return early. Here is what they add up
to, in no order: the conditions every outcome but `DENY` rests on, what is allowed
under them without a human, and what a human may approve.

## Key results

- `evaluateRecognized_of_not_base`: without the base conditions the rules deny
- `evaluatePolicy_outcome`: the three outcomes
-/

namespace ActionHarbor

/-! ## The conditions -/

section
variable [Host]

/-- The intent is older than it may be: both fields are given, and `now - createdAt`, a
    difference of doubles, exceeds the bound. -/
def PolicyEnvironment.IntentTooOld (environment : PolicyEnvironment) : Prop :=
  ∃ ttlMs createdAt createdAtMs, environment.intentTtlMs = some ttlMs ∧
    environment.intentCreatedAt = some createdAt ∧
    Host.dateParse createdAt = some createdAtMs ∧
    ttlMs.ltInt (environment.now.minus createdAtMs) = true

/-- What every outcome other than `DENY` rests on. -/
structure PolicyInput.Base (input : PolicyInput) (principal : Principal) : Prop where
  requestedBy : input.principal = some principal
  knownRole : principal.role ∈ roleOptions
  knownStatus : input.resource.status ∈ resourceStatusOptions
  active : input.resource.status = js "active"
  sameTenant : principal.tenantId = input.resource.tenantId
  inTime : ¬ input.environment.IntentTooOld

omit [Host] in
/-- One of the two ticket actions. -/
def PolicyInput.IsTicketAction (input : PolicyInput) : Prop :=
  input.actionType = js "create_internal_ticket" ∨ input.actionType = js "update_ticket_status"

omit [Host] in
/-- Every piece of evidence referred to exists. -/
def PolicyInput.EvidenceKnown (input : PolicyInput) : Prop :=
  ∀ ref ∈ input.evidenceRefs, ref ∈ input.environment.knownEvidenceIds

omit [Host] in
instance (input : PolicyInput) : Decidable input.EvidenceKnown :=
  inferInstanceAs (Decidable (∀ ref ∈ input.evidenceRefs,
    ref ∈ input.environment.knownEvidenceIds))

/-- A ticket action on one's own resource. -/
def PolicyInput.Allowed (input : PolicyInput) : Prop :=
  ∃ principal, input.Base principal ∧ input.IsTicketAction ∧
    input.resource.ownerId = principal.id

/-- A ticket action on somebody else's resource, a customer message, or a refund asked
    for by finance. -/
def PolicyInput.ApprovalNeeded (input : PolicyInput) : Prop :=
  ∃ principal, input.Base principal ∧
    (input.IsTicketAction ∧ input.resource.ownerId ≠ principal.id ∨
      input.EvidenceKnown ∧ (input.actionType = js "send_customer_message" ∨
        input.actionType = js "issue_refund" ∧ principal.role = js "finance"))

/-- The code's own comparison of the intent's age. -/
theorem intentExpired_iff (environment : PolicyEnvironment) :
    intentExpired environment = true ↔ environment.IntentTooOld := by
  unfold intentExpired PolicyEnvironment.IntentTooOld
  cases environment.intentTtlMs with
  | none => simp
  | some ttlMs =>
    cases environment.intentCreatedAt with
    | none => simp
    | some createdAt => cases hparsed : Host.dateParse createdAt <;> simp [hparsed]

/-! ## The rules -/

/-- Without the base conditions the rules deny, or throw. -/
theorem evaluateRecognized_of_not_base {input : PolicyInput} {principal : Principal}
    {actionType : ActionType} {verdict : PolicyVerdict}
    (hprincipal : input.principal = some principal) (hrole : principal.role ∈ roleOptions)
    (h : evaluateRecognized principal actionType input = .ok verdict)
    (hbase : ¬ input.Base principal) : verdict.outcome = .deny := by
  unfold evaluateRecognized at h
  split at h
  · cases h
  rename_i hstatus
  split at h
  · cases h
    rfl
  rename_i htenant
  split at h
  · cases h
    rfl
  rename_i hintent
  split at h
  · cases h
    rfl
  split at h
  · cases h
    rfl
  split at h
  · cases h
    rfl
  rename_i hactive
  -- the rules passed so far are the base conditions
  exact absurd ⟨hprincipal, hrole, not_not.mp hstatus, not_not.mp hactive, not_not.mp htenant,
    fun hold => hintent ((intentExpired_iff _).mpr hold)⟩ hbase

omit [Host] in
/-- The code's own search for a reference that does not resolve. -/
theorem danglingRef_iff (input : PolicyInput) :
    (input.evidenceRefs.any fun ref => !input.environment.knownEvidenceIds.contains ref) = true ↔
      ¬ input.EvidenceKnown := by
  simp [PolicyInput.EvidenceKnown]

/-- Under the base conditions, a ticket action depends on the owner alone. -/
theorem evaluateRecognized_ticketAction {input : PolicyInput} {principal : Principal}
    (hbase : input.Base principal) {actionType : ActionType}
    (hreversible : actionType ∉ irreversibleActionTypes) :
    evaluateRecognized principal actionType input =
      .ok (if input.resource.ownerId ≠ principal.id then requireApproval [.affectsOtherPrincipal]
        else allow) := by
  have hintent : intentExpired input.environment = false :=
    Bool.eq_false_iff.mpr fun hold => hbase.inTime ((intentExpired_iff _).mp hold)
  have hstatus : js "active" ∈ resourceStatusOptions := by decide
  have htypes : actionType ≠ .issueRefund ∧ actionType ≠ .sendCustomerMessage ∧
      actionType ∉ customerImpactingActionTypes := by
    cases actionType <;> first | (exact absurd (by decide) hreversible) | decide
  unfold evaluateRecognized
  simp [hbase.active, hstatus, hbase.sameTenant, hintent, htypes.1, htypes.2.1, htypes.2.2,
    hreversible]
  split <;> rfl

/-- Under the base conditions, an action that reaches a customer needs known evidence, and
    a refund needs the finance role. -/
theorem evaluateRecognized_customerImpact {input : PolicyInput} {principal : Principal}
    (hbase : input.Base principal) {actionType : ActionType}
    (hirreversible : actionType ∈ irreversibleActionTypes) :
    ∃ verdict, evaluateRecognized principal actionType input = .ok verdict ∧
      verdict.outcome =
        if input.EvidenceKnown ∧ (actionType = .issueRefund → principal.role = js "finance") then
          .requireApproval
        else .deny := by
  have hintent : intentExpired input.environment = false :=
    Bool.eq_false_iff.mpr fun hold => hbase.inTime ((intentExpired_iff _).mp hold)
  have hstatus : js "active" ∈ resourceStatusOptions := by decide
  have himpact : actionType ∈ customerImpactingActionTypes := hirreversible
  unfold evaluateRecognized
  simp only [hbase.active, hstatus, hbase.sameTenant, hintent, himpact, hirreversible,
    danglingRef_iff, not_true, ne_eq, if_false, Bool.false_eq_true, true_and, if_true]
  by_cases hrole : actionType = .issueRefund ∧ ¬ principal.role = js "finance"
  · rw [if_pos hrole, if_neg fun h => hrole.2 (h.2 hrole.1)]
    exact ⟨_, rfl, rfl⟩
  · rw [if_neg hrole]
    by_cases hevidence : input.EvidenceKnown
    · have hfinance : actionType = .issueRefund → principal.role = js "finance" :=
        fun hrefund => not_not.mp fun hne => hrole ⟨hrefund, hne⟩
      have hgranted := And.intro hevidence hfinance
      rw [if_neg (not_not.mpr hevidence), if_pos hgranted]
      split <;> exact ⟨_, rfl, rfl⟩
    · rw [if_pos hevidence, if_neg fun h => hevidence h.1]
      exact ⟨_, rfl, rfl⟩

/-! ## The three outcomes -/

omit [Host] in
/-- A ticket action is recognized, and reversible. -/
theorem PolicyInput.IsTicketAction.actionType {input : PolicyInput} (h : input.IsTicketAction) :
    ∃ actionType : ActionType, input.actionType = actionType.toJs ∧
      actionType ∉ irreversibleActionTypes := by
  obtain hcreate | hupdate := h
  · exact ⟨.createInternalTicket, hcreate, by decide⟩
  · exact ⟨.updateTicketStatus, hupdate, by decide⟩

/-- What is allowed, the policy allows. -/
theorem PolicyInput.Allowed.outcome {input : PolicyInput} (h : input.Allowed) :
    (evaluatePolicy input).outcome = .allow := by
  obtain ⟨principal, hbase, hticket, howner⟩ := h
  obtain ⟨actionType, hactionType, hreversible⟩ := hticket.actionType
  have hverdict := evaluateRecognized_ticketAction hbase hreversible
  rw [if_neg (not_not.mpr howner)] at hverdict
  rw [evaluatePolicy_of_recognized hbase.requestedBy hbase.knownRole hactionType hverdict]
  rfl

/-- What needs an approval, the policy leaves to a human. -/
theorem PolicyInput.ApprovalNeeded.outcome {input : PolicyInput} (h : input.ApprovalNeeded) :
    (evaluatePolicy input).outcome = .requireApproval := by
  obtain ⟨principal, hbase, ⟨hticket, howner⟩ | ⟨hevidence, haction⟩⟩ := h
  · obtain ⟨actionType, hactionType, hreversible⟩ := hticket.actionType
    have hverdict := evaluateRecognized_ticketAction hbase hreversible
    rw [if_pos howner] at hverdict
    rw [evaluatePolicy_of_recognized hbase.requestedBy hbase.knownRole hactionType hverdict]
    rfl
  · have hrecognized : ∃ actionType ∈ irreversibleActionTypes,
        input.actionType = actionType.toJs ∧
          (actionType = .issueRefund → principal.role = js "finance") := by
      obtain hmessage | ⟨hrefund, hfinance⟩ := haction
      · exact ⟨.sendCustomerMessage, by decide, hmessage, fun h => by cases h⟩
      · exact ⟨.issueRefund, by decide, hrefund, fun _ => hfinance⟩
    obtain ⟨actionType, hirreversible, hactionType, hfinance⟩ := hrecognized
    obtain ⟨verdict, hverdict, houtcome⟩ :=
      evaluateRecognized_customerImpact hbase hirreversible
    rw [if_pos ⟨hevidence, hfinance⟩] at houtcome
    rw [evaluatePolicy_of_recognized hbase.requestedBy hbase.knownRole hactionType hverdict]
    exact houtcome

/-- What the policy does not deny is one or the other. -/
theorem allowed_or_approvalNeeded {input : PolicyInput}
    (h : (evaluatePolicy input).outcome ≠ .deny) : input.Allowed ∨ input.ApprovalNeeded := by
  obtain ⟨principal, actionType, hprincipal, hrole, hactionType, hverdict⟩ :=
    evaluateRecognized_of_outcome h
  have hbase : input.Base principal := by
    by_contra hbase
    exact h (evaluateRecognized_of_not_base hprincipal hrole hverdict hbase)
  -- an irreversible action is never allowed at once
  by_cases hirreversible : actionType ∈ irreversibleActionTypes
  · right
    obtain ⟨verdict, hverdict', houtcome⟩ :=
      evaluateRecognized_customerImpact hbase hirreversible
    rw [hverdict, Except.ok.injEq] at hverdict'
    rw [hverdict', houtcome] at h
    split at h
    · rename_i hgranted
      refine ⟨principal, hbase, Or.inr ⟨hgranted.1, ?_⟩⟩
      cases actionType with
      | sendCustomerMessage => exact Or.inl hactionType
      | issueRefund => exact Or.inr ⟨hactionType, hgranted.2 rfl⟩
      | createInternalTicket => exact absurd hirreversible (by decide)
      | updateTicketStatus => exact absurd hirreversible (by decide)
    · exact absurd rfl h
  · have hticket : input.IsTicketAction := by
      cases actionType with
      | createInternalTicket => exact Or.inl hactionType
      | updateTicketStatus => exact Or.inr hactionType
      | sendCustomerMessage => exact absurd (by decide) hirreversible
      | issueRefund => exact absurd (by decide) hirreversible
    by_cases howner : input.resource.ownerId = principal.id
    · exact Or.inl ⟨principal, hbase, hticket, howner⟩
    · exact Or.inr ⟨principal, hbase, Or.inl ⟨hticket, howner⟩⟩

/-- Every outcome of the policy, in terms of its input. -/
theorem evaluatePolicy_outcome (input : PolicyInput) :
    ((evaluatePolicy input).outcome = .allow ↔ input.Allowed) ∧
      ((evaluatePolicy input).outcome = .requireApproval ↔ input.ApprovalNeeded) ∧
      ((evaluatePolicy input).outcome = .deny ↔ ¬ input.Allowed ∧ ¬ input.ApprovalNeeded) := by
  refine ⟨⟨fun h => ?_, fun h => h.outcome⟩, ⟨fun h => ?_, fun h => h.outcome⟩, fun h => ?_,
    fun h => ?_⟩
  · refine (allowed_or_approvalNeeded (by rw [h]; decide)).resolve_right fun happroval => ?_
    rw [happroval.outcome] at h
    cases h
  · refine (allowed_or_approvalNeeded (by rw [h]; decide)).resolve_left fun hallowed => ?_
    rw [hallowed.outcome] at h
    cases h
  · constructor
    · intro hallowed
      rw [hallowed.outcome] at h
      cases h
    · intro happroval
      rw [happroval.outcome] at h
      cases h
  · by_contra hdenied
    exact (allowed_or_approvalNeeded hdenied).elim h.1 h.2

end

end ActionHarbor
