import ActionHarbor.Model.ModelAdapter
import ActionHarbor.Model.Orchestrator
import ActionHarbor.Spec.Receipts

/-!
# Postconditions of requested actions

What a verified receipt says about the parameters that were requested. The
expectation of a message carries all of its parameters, that of a refund the
order and the amount, that of a ticket only the idempotency key.

## Key results

- `RunPlan.postcondition_eq`: a run asks for the expectation its parameters fill
- `verifyPostcondition_confirmedBy`: exactly which receipts verify
-/

namespace ActionHarbor

namespace RawActionParameters

/-- The expectation that carries a key and these parameters: every field it has is
    filled from them. -/
def expectation (idempotencyKey : JsString) : RawActionParameters → PostconditionExpectation
  | .createInternalTicket _ _ _ => .createInternalTicket idempotencyKey
  | .sendCustomerMessage customerId body channel =>
    .sendCustomerMessage idempotencyKey customerId body channel
  | .issueRefund orderId amountMinorInteger _ _ =>
    .issueRefund idempotencyKey orderId amountMinorInteger

section
variable [Host]

/-- The receipt is schema-valid, has the key, and every field that reports a
    requested parameter has the requested value. -/
def ReportedBy (raw : JsValue) (idempotencyKey : JsString) : RawActionParameters → Prop
  | .createInternalTicket title description priority =>
    ∃ receipt, TicketReceipt.safeParse raw = some receipt ∧
      receipt.idempotencyKey = idempotencyKey ∧ receipt.title = title ∧
      receipt.description = description ∧
      ∀ requested, priority = some requested → receipt.priority = requested
  | .sendCustomerMessage customerId body channel =>
    ∃ receipt, MessageReceipt.safeParse raw = some receipt ∧
      receipt.idempotencyKey = idempotencyKey ∧ receipt.customerId = customerId ∧
      receipt.body = body ∧ receipt.channel = channel
  | .issueRefund orderId amountMinorInteger currency reason =>
    ∃ receipt, RefundReceipt.safeParse raw = some receipt ∧
      receipt.idempotencyKey = idempotencyKey ∧ receipt.orderId = orderId ∧
      receipt.amountMinorInteger = amountMinorInteger ∧ receipt.currency = currency ∧
      receipt.reason = reason

/-- The receipt is schema-valid, has the key, and the fields the expectation carries
    have the requested values: all of a message, the order and the amount of a
    refund, none of a ticket. -/
def ConfirmedBy (raw : JsValue) (idempotencyKey : JsString) : RawActionParameters → Prop
  | .createInternalTicket _ _ _ =>
    ∃ receipt, TicketReceipt.safeParse raw = some receipt ∧
      receipt.idempotencyKey = idempotencyKey
  | .sendCustomerMessage customerId body channel =>
    ∃ receipt, MessageReceipt.safeParse raw = some receipt ∧
      receipt.idempotencyKey = idempotencyKey ∧ receipt.customerId = customerId ∧
      receipt.body = body ∧ receipt.channel = channel
  | .issueRefund orderId amountMinorInteger _ _ =>
    ∃ receipt, RefundReceipt.safeParse raw = some receipt ∧
      receipt.idempotencyKey = idempotencyKey ∧ receipt.orderId = orderId ∧
      receipt.amountMinorInteger = amountMinorInteger

/-- A receipt that reports everything confirms what is compared. -/
theorem ReportedBy.confirmedBy {raw : JsValue} {key : JsString} {params : RawActionParameters}
    (h : params.ReportedBy raw key) : params.ConfirmedBy raw key := by
  cases params with
  | createInternalTicket title description priority =>
    obtain ⟨receipt, hparse, hkey, -⟩ := h
    exact ⟨receipt, hparse, hkey⟩
  | sendCustomerMessage customerId body channel => exact h
  | issueRefund orderId amountMinorInteger currency reason =>
    obtain ⟨receipt, hparse, hkey, horder, hamount, -⟩ := h
    exact ⟨receipt, hparse, hkey, horder, hamount⟩

/-- The expectation of the parameters is fulfilled by the receipts that confirm them. -/
theorem fulfils_expectation_iff {raw : JsValue} {key : JsString} {params : RawActionParameters} :
    Fulfils raw params.actionType (params.expectation key) ↔ params.ConfirmedBy raw key := by
  cases params with
  | createInternalTicket title description priority =>
    constructor
    · intro h
      simp only [actionType, expectation] at h
      cases h with
      | ticket r hparse => exact ⟨r, hparse, rfl⟩
    · rintro ⟨receipt, hparse, rfl⟩
      exact .ticket receipt hparse
  | sendCustomerMessage customerId body channel =>
    constructor
    · intro h
      simp only [actionType, expectation] at h
      cases h with
      | message r hparse => exact ⟨r, hparse, rfl, rfl, rfl, rfl⟩
    · rintro ⟨receipt, hparse, rfl, rfl, rfl, rfl⟩
      exact .message receipt hparse
  | issueRefund orderId amountMinorInteger currency reason =>
    constructor
    · intro h
      simp only [actionType, expectation] at h
      cases h with
      | refund r hparse => exact ⟨r, hparse, rfl, rfl, rfl⟩
    · rintro ⟨receipt, hparse, rfl, rfl, rfl⟩
      exact .refund receipt hparse

end

end RawActionParameters

section
variable [Host]

omit [Host] in
/-- `executeForRun` asks for the expectation its run's parameters fill, where it has an
    execution path. -/
theorem RunPlan.postcondition_eq {plan : RunPlan} {postcondition : PostconditionExpectation}
    (h : plan.postcondition = some postcondition) :
    postcondition = plan.parameters.expectation plan.idempotencyKey := by
  unfold RunPlan.postcondition at h
  split at h
  · rename_i hparams
    rw [hparams]
    exact (Option.some.inj h).symm
  · rename_i hparams
    rw [hparams]
    exact (Option.some.inj h).symm
  · cases h

/-- A receipt verifies for requested parameters exactly when it is schema-valid, has
    the key, and reports the parameters the expectation carries. -/
theorem verifyPostcondition_confirmedBy (params : RawActionParameters) (key : JsString)
    (raw : JsValue) :
    verifyPostcondition params.actionType raw (params.expectation key) = true ↔
      params.ConfirmedBy raw key :=
  verifyPostcondition_iff.trans RawActionParameters.fulfils_expectation_iff

end

/-! ## Receipts for something else -/

namespace Sample

attribute [local instance] node

/-- A refund of 2500 US cents. -/
def refundParameters : RawActionParameters :=
  .issueRefund (js "order-1") (.ofNat 2500) (js "USD") (js "Cold-chain failure")

/-- The refund of 2500 in another currency, for another reason. -/
def otherRefund : RefundReceipt where
  refundId := js "rfnd_000001"
  orderId := js "order-1"
  amountMinorInteger := .ofNat 2500
  currency := js "KWD"
  reason := js "Goodwill"
  idempotencyKey := js "key-1"
  resourceId := js "order-1"
  issuedAt := js "2026-08-22T09:00:00Z"

/-- A ticket with a title and a priority. -/
def ticketParameters : RawActionParameters :=
  .createInternalTicket (js "Review cold chain") none (some (js "high"))

/-- A ticket about something else. -/
def otherTicket : TicketReceipt where
  ticketId := js "tkt_000001"
  title := js "Close the incident"
  description := some (js "Nothing to do")
  priority := js "low"
  idempotencyKey := js "key-1"
  resourceId := js "workspace-1"
  createdAt := js "2026-08-22T09:00:00Z"

/-- Both receipts verify for parameters that the schema accepts and they do not report. -/
theorem otherReceipts_verified :
    (parseIssueRefundParameters refundParameters.toJsValue = some refundParameters ∧
      verifyPostcondition .issueRefund otherRefund.toJsValue
        (refundParameters.expectation (js "key-1")) = true ∧
      ¬ refundParameters.ReportedBy otherRefund.toJsValue (js "key-1")) ∧
    (parseCreateInternalTicketParameters ticketParameters.toJsValue = some ticketParameters ∧
      verifyPostcondition .createInternalTicket otherTicket.toJsValue
        (ticketParameters.expectation (js "key-1")) = true ∧
      ¬ ticketParameters.ReportedBy otherTicket.toJsValue (js "key-1")) := by
  have hrefund : RefundReceipt.safeParse otherRefund.toJsValue = some otherRefund := by
    decide +kernel
  have hticket : TicketReceipt.safeParse otherTicket.toJsValue = some otherTicket := by
    decide +kernel
  refine ⟨⟨by decide +kernel, by decide +kernel, ?_⟩, by decide +kernel, by decide +kernel, ?_⟩
  · rintro ⟨receipt, hparse, -, -, -, hcurrency, -⟩
    obtain rfl := Option.some.inj (hrefund.symm.trans hparse)
    exact absurd hcurrency (by decide)
  · rintro ⟨receipt, hparse, -, htitle, -⟩
    obtain rfl := Option.some.inj (hticket.symm.trans hparse)
    exact absurd htitle (by decide)

end Sample

end ActionHarbor
