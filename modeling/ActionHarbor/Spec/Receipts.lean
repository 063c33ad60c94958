import ActionHarbor.Model.Adapters

/-!
# Receipts

What the receipt schemas accept. A parsed receipt meets the bounds of its schema,
printing it and parsing it again gives it back, and no value parses under two
schemas. So a receipt verifies for one action type and one expectation only.

## Key results

- `js_inj`: different texts are different strings
- `TicketReceipt.safeParse_toJsValue` and its two siblings: the round trips
- `verifyPostcondition_iff`, `Fulfils.unique`: a receipt verifies for one action type and
  one expectation
-/

namespace ActionHarbor

/-! ## Strings -/

/-- The first unit of a character tells how many units it has. -/
private theorem utf16Units_append_inj {c d : Char} {xs ys : JsString}
    (h : utf16Units c ++ xs = utf16Units d ++ ys) : c = d ∧ xs = ys := by
  have hc := c.valid
  have hd := d.valid
  have hchar : c.val.toNat = d.val.toNat → c = d := fun hval =>
    Char.ext (UInt32.toNat_inj.mp hval)
  simp only [UInt32.isValidChar, Nat.isValidChar] at hc hd
  simp only [utf16Units, UInt32.lt_iff_toNat_lt] at h
  -- outside the first plane a character opens with a unit no other character has
  split at h <;> split at h
  all_goals
    simp only [List.cons_append, List.nil_append, List.cons.injEq, ← UInt16.toNat_inj,
      UInt32.toNat_toUInt16, UInt32.toNat_add, UInt32.toNat_sub, UInt32.toNat_div,
      UInt32.toNat_mod, UInt32.reduceToNat] at *
  · exact ⟨hchar (by omega), h.2⟩
  · omega
  · omega
  · exact ⟨hchar (by omega), h.2.2⟩

private theorem utf16Units_append_ne_nil (c : Char) (xs : JsString) :
    utf16Units c ++ xs ≠ [] := by
  rw [utf16Units]
  split <;> simp

/-- Different texts are different strings. -/
@[simp] theorem js_inj {s t : String} : js s = js t ↔ s = t := by
  refine ⟨fun h => ?_, fun h => by rw [h]⟩
  rw [← String.toList_inj]
  simp only [js] at h
  generalize s.toList = cs at h ⊢
  generalize t.toList = ds at h ⊢
  induction cs generalizing ds with
  | nil =>
    cases ds with
    | nil => rfl
    | cons d ds => exact absurd h.symm (utf16Units_append_ne_nil d _)
  | cons c cs ih =>
    cases ds with
    | nil => exact absurd h (utf16Units_append_ne_nil c _)
    | cons d ds =>
      obtain ⟨rfl, htail⟩ := utf16Units_append_inj h
      rw [ih ds htail]

/-! ## Properties -/

@[simp] theorem propOf_nil (key : JsString) : propOf [] key = .undefined := rfl

@[simp] theorem propOf_cons (key key' : JsString) (value : JsValue)
    (rest : List (JsString × JsValue)) :
    propOf ((key', value) :: rest) key = if key = key' then value else propOf rest key := by
  simp only [propOf, List.lookup_cons]
  split <;> simp_all

/-- A property that is not `undefined` is listed. -/
theorem mem_of_propOf {props : List (JsString × JsValue)} {key : JsString} {value : JsValue}
    (h : propOf props key = value) (hvalue : value ≠ .undefined) : (key, value) ∈ props := by
  induction props with
  | nil => exact absurd h.symm hvalue
  | cons prop props ih =>
    obtain ⟨key', value'⟩ := prop
    rw [propOf_cons] at h
    split at h
    · rename_i hkey
      rw [hkey, h]
      exact List.mem_cons_self
    · exact List.mem_cons_of_mem _ (ih h)

/-- A value with these properties. -/
inductive HasProps (props : List (JsString × JsValue)) : JsValue → Prop
  | object : HasProps props (.object props)
  | classInstance (className : JsString) : HasProps props (.classInstance className props)

/-- A property of an object is read from its properties. -/
theorem HasProps.getProp {props : List (JsString × JsValue)} {value : JsValue}
    (h : HasProps props value) (key : JsString) : value.getProp key = some (propOf props key) := by
  cases h <;> rfl

/-- The properties of an object are unique. -/
theorem HasProps.unique {props props' : List (JsString × JsValue)} {value : JsValue}
    (h : HasProps props value) (h' : HasProps props' value) : props = props' := by
  cases h <;> cases h' <;> rfl

/-! ## Schema constructors -/

namespace Zod

/-- A strict object accepts exactly the objects whose keys it lists, an own `__proto__` apart. -/
theorem strictObject_eq_some {keys : List JsString} {value : JsValue}
    {props : List (JsString × JsValue)} :
    strictObject keys value = some props ↔
      HasProps props value ∧ ∀ prop ∈ props, prop.1 ∈ protoKey :: keys := by
  constructor
  · intro h
    cases value with
    | object _ | classInstance _ _ =>
      simp only [strictObject, Option.ite_none_right_eq_some, Option.some.injEq] at h
      obtain ⟨hkeys, rfl⟩ := h
      exact ⟨by constructor, by simpa using hkeys⟩
    | _ => cases h
  · rintro ⟨h, hkeys⟩
    cases h <;> simpa [strictObject, or_iff_not_imp_left] using hkeys

/-- A bounded string accepts exactly the strings within its bounds. -/
theorem boundedString_eq_some {minLength : Nat} {maxLength : Option Nat} {value : JsValue}
    {s : JsString} :
    boundedString minLength maxLength value = some s ↔
      value = .string s ∧ minLength ≤ s.length ∧ ∀ n, maxLength = some n → s.length ≤ n := by
  cases value with
  | string t =>
    simp only [boundedString, Option.ite_none_right_eq_some, Bool.and_eq_true,
      decide_eq_true_eq, Option.all_eq_true_iff_get, Option.some.injEq, JsValue.string.injEq]
    constructor
    · rintro ⟨⟨hmin, hmax⟩, rfl⟩
      refine ⟨rfl, hmin, fun n hn => ?_⟩
      subst hn
      exact hmax rfl
    · rintro ⟨rfl, hmin, hmax⟩
      exact ⟨⟨hmin, fun h => hmax _ (Option.some_get h).symm⟩, rfl⟩
  | _ => simp [boundedString]

/-- A datetime accepts exactly the strings that the host's pattern matches. -/
theorem isoDatetime_eq_some [Host] {value : JsValue} {s : JsString} :
    isoDatetime value = some s ↔ value = .string s ∧ Host.isoDatetime s = true := by
  cases value with
  | string t =>
    simp only [isoDatetime, Option.ite_none_right_eq_some, Option.some.injEq,
      JsValue.string.injEq]
    constructor
    · rintro ⟨h, rfl⟩; exact ⟨rfl, h⟩
    · rintro ⟨rfl, h⟩; exact ⟨h, rfl⟩
  | _ => simp [isoDatetime]

/-- An enumeration whose options are their own texts. -/
theorem enum_id_eq_some {options : List JsString} {value : JsValue} {s : JsString} :
    enum options id value = some s ↔ value = .string s ∧ s ∈ options := by
  cases value with
  | string t =>
    simp only [enum, id_eq, JsValue.string.injEq]
    constructor
    · intro h
      obtain rfl : s = t := by simpa using List.find?_some h
      exact ⟨rfl, List.mem_of_find?_eq_some h⟩
    · rintro ⟨rfl, hmem⟩
      cases hfind : options.find? fun option => decide (option = t) with
      | none => simpa using List.find?_eq_none.mp hfind t hmem
      | some u => rw [show u = t by simpa using List.find?_some hfind]
  | _ => simp [enum]

theorem positiveInt_eq_some {value : JsValue} {n : JsNumber} :
    positiveInt value = some n ↔ value = .number n ∧
      ∃ d : Decimal, n = .finite false d ∧ 0 < d.digits ∧ 0 ≤ d.exponent ∧
        d.digits * 10 ^ d.exponent.toNat ≤ 2 ^ 53 - 1 := by
  constructor
  · intro h
    unfold positiveInt at h
    split at h
    · rename_i d
      simp only [Option.ite_none_right_eq_some, Option.some.injEq] at h
      obtain ⟨hbounds, rfl⟩ := h
      exact ⟨rfl, d, rfl, hbounds⟩
    · cases h
  · rintro ⟨rfl, d, rfl, hbounds⟩
    simp only [positiveInt, Option.ite_none_right_eq_some, and_true]
    exact hbounds

/-- An optional field is absent, or parses. -/
theorem optional_eq_some {α : Type} {schema : JsValue → Option α} {value : JsValue}
    {parsed : Option α} (hundefined : schema .undefined = none) :
    optional schema value = some parsed ↔
      (value = .undefined ∧ parsed = none) ∨ ∃ a, parsed = some a ∧ schema value = some a := by
  cases value with
  | undefined => simp [optional, hundefined, eq_comm]
  | _ => simp [optional, eq_comm, and_comm]

end Zod

/-! ## Receipt schemas -/

section
variable [Host]

/-- The bounds of the ticket schema. -/
structure TicketReceipt.Valid (r : TicketReceipt) : Prop where
  ticketId : 1 ≤ r.ticketId.length
  title : 1 ≤ r.title.length ∧ r.title.length ≤ 120
  description : ∀ description, r.description = some description → description.length ≤ 2000
  priority : r.priority ∈ ticketPriorities
  idempotencyKey : 1 ≤ r.idempotencyKey.length
  resourceId : 1 ≤ r.resourceId.length
  createdAt : Host.isoDatetime r.createdAt = true

/-- The bounds of the message schema. -/
structure MessageReceipt.Valid (r : MessageReceipt) : Prop where
  messageId : 1 ≤ r.messageId.length
  customerId : 1 ≤ r.customerId.length
  body : 1 ≤ r.body.length ∧ r.body.length ≤ 2000
  channel : r.channel ∈ messageChannels
  idempotencyKey : 1 ≤ r.idempotencyKey.length
  resourceId : 1 ≤ r.resourceId.length
  sentAt : Host.isoDatetime r.sentAt = true

/-- The bounds of the refund schema. -/
structure RefundReceipt.Valid (r : RefundReceipt) : Prop where
  refundId : 1 ≤ r.refundId.length
  orderId : 1 ≤ r.orderId.length
  amountMinorInteger : ∃ d : Decimal, r.amountMinorInteger = .finite false d ∧ 0 < d.digits ∧
    0 ≤ d.exponent ∧ d.digits * 10 ^ d.exponent.toNat ≤ 2 ^ 53 - 1
  currency : r.currency.length = 3
  reason : 1 ≤ r.reason.length ∧ r.reason.length ≤ 300
  idempotencyKey : 1 ≤ r.idempotencyKey.length
  resourceId : 1 ≤ r.resourceId.length
  issuedAt : Host.isoDatetime r.issuedAt = true

/-- What a parsed ticket receipt was read from. -/
theorem TicketReceipt.safeParse_eq_some {raw : JsValue} {r : TicketReceipt}
    (h : TicketReceipt.safeParse raw = some r) :
    ∃ props, HasProps props raw ∧
      (∀ prop ∈ props, prop.1 ∈ [protoKey, js "ticketId", js "status", js "title",
        js "description", js "priority", js "idempotencyKey", js "resourceId",
        js "createdAt"]) ∧
      propOf props (js "ticketId") = .string r.ticketId ∧
      propOf props (js "idempotencyKey") = .string r.idempotencyKey ∧
      propOf props (js "resourceId") = .string r.resourceId ∧ r.Valid := by
  simp only [safeParse, Option.bind_eq_bind, Option.bind_eq_some_iff, Zod.strictObject_eq_some,
    Zod.nonEmptyString, Zod.boundedString_eq_some, Zod.enum_id_eq_some, Zod.isoDatetime_eq_some,
    Option.some.injEq] at h
  obtain ⟨props, ⟨hprops, hkeys⟩, ticketId, hticketId, status, -, title, htitle, description,
    hdescription, priority, hpriority, idempotencyKey, hidempotencyKey, resourceId, hresourceId,
    createdAt, hcreatedAt, rfl⟩ := h
  refine ⟨props, hprops, hkeys, hticketId.1, hidempotencyKey.1, hresourceId.1, ?_⟩
  exact {
    ticketId := hticketId.2.1
    title := ⟨htitle.2.1, htitle.2.2 120 rfl⟩
    description := by
      rintro text rfl
      -- an absent description parses to none
      rcases (Zod.optional_eq_some rfl).mp hdescription with ⟨-, h⟩ | ⟨_, h, hparse⟩
      · cases h
      · obtain rfl := Option.some.inj h
        exact (Zod.boundedString_eq_some.mp hparse).2.2 2000 rfl
    priority := hpriority.2
    idempotencyKey := hidempotencyKey.2.1
    resourceId := hresourceId.2.1
    createdAt := hcreatedAt.2 }

/-- What a parsed message receipt was read from. -/
theorem MessageReceipt.safeParse_eq_some {raw : JsValue} {r : MessageReceipt}
    (h : MessageReceipt.safeParse raw = some r) :
    ∃ props, HasProps props raw ∧
      (∀ prop ∈ props, prop.1 ∈ [protoKey, js "messageId", js "customerId", js "body",
        js "channel", js "idempotencyKey", js "resourceId", js "sentAt"]) ∧
      propOf props (js "messageId") = .string r.messageId ∧
      propOf props (js "idempotencyKey") = .string r.idempotencyKey ∧
      propOf props (js "resourceId") = .string r.resourceId ∧
      propOf props (js "customerId") = .string r.customerId ∧
      propOf props (js "body") = .string r.body ∧
      propOf props (js "channel") = .string r.channel ∧ r.Valid := by
  simp only [safeParse, Option.bind_eq_bind, Option.bind_eq_some_iff, Zod.strictObject_eq_some,
    Zod.nonEmptyString, Zod.boundedString_eq_some, Zod.enum_id_eq_some, Zod.isoDatetime_eq_some,
    Option.some.injEq] at h
  obtain ⟨props, ⟨hprops, hkeys⟩, messageId, hmessageId, customerId, hcustomerId, body, hbody,
    channel, hchannel, idempotencyKey, hidempotencyKey, resourceId, hresourceId, sentAt, hsentAt,
    rfl⟩ := h
  refine ⟨props, hprops, hkeys, hmessageId.1, hidempotencyKey.1, hresourceId.1, hcustomerId.1,
    hbody.1, hchannel.1, ?_⟩
  exact {
    messageId := hmessageId.2.1
    customerId := hcustomerId.2.1
    body := ⟨hbody.2.1, hbody.2.2 2000 rfl⟩
    channel := hchannel.2
    idempotencyKey := hidempotencyKey.2.1
    resourceId := hresourceId.2.1
    sentAt := hsentAt.2 }

/-- What a parsed refund receipt was read from. -/
theorem RefundReceipt.safeParse_eq_some {raw : JsValue} {r : RefundReceipt}
    (h : RefundReceipt.safeParse raw = some r) :
    ∃ props, HasProps props raw ∧
      (∀ prop ∈ props, prop.1 ∈ [protoKey, js "refundId", js "orderId",
        js "amountMinorInteger", js "currency", js "reason", js "idempotencyKey",
        js "resourceId", js "issuedAt"]) ∧
      propOf props (js "refundId") = .string r.refundId ∧
      propOf props (js "idempotencyKey") = .string r.idempotencyKey ∧
      propOf props (js "resourceId") = .string r.resourceId ∧ r.Valid := by
  simp only [safeParse, Option.bind_eq_bind, Option.bind_eq_some_iff, Zod.strictObject_eq_some,
    Zod.nonEmptyString, Zod.boundedString_eq_some, Zod.positiveInt_eq_some,
    Zod.isoDatetime_eq_some, Option.some.injEq] at h
  obtain ⟨props, ⟨hprops, hkeys⟩, refundId, hrefundId, orderId, horderId, amount, hamount,
    currency, hcurrency, reason, hreason, idempotencyKey, hidempotencyKey, resourceId,
    hresourceId, issuedAt, hissuedAt, rfl⟩ := h
  refine ⟨props, hprops, hkeys, hrefundId.1, hidempotencyKey.1, hresourceId.1, ?_⟩
  exact {
    refundId := hrefundId.2.1
    orderId := horderId.2.1
    amountMinorInteger := hamount.2
    -- at least and at most three code units
    currency := Nat.le_antisymm (hcurrency.2.2 3 rfl) hcurrency.2.1
    reason := ⟨hreason.2.1, hreason.2.2 300 rfl⟩
    idempotencyKey := hidempotencyKey.2.1
    resourceId := hresourceId.2.1
    issuedAt := hissuedAt.2 }

/-! ## Round trips -/

/-- Printing a valid ticket receipt and parsing it gives it back. -/
theorem TicketReceipt.safeParse_toJsValue {r : TicketReceipt} (h : r.Valid) :
    TicketReceipt.safeParse r.toJsValue = some r := by
  obtain ⟨ticketId, title, description, priority, idempotencyKey, resourceId, createdAt⟩ := r
  simp only [safeParse, Option.bind_eq_bind, Option.bind_eq_some_iff, Zod.strictObject_eq_some,
    Zod.nonEmptyString, Zod.boundedString_eq_some, Zod.enum_id_eq_some, Zod.isoDatetime_eq_some,
    Option.some.injEq, toJsValue]
  refine ⟨_, ⟨.object, ?_⟩, ticketId, ?_, js "open", ?_, title, ?_, description, ?_, priority, ?_,
    idempotencyKey, ?_, resourceId, ?_, createdAt, ?_, rfl⟩
  -- an absent description is not printed
  all_goals cases description
  all_goals simp [h.ticketId, h.title, h.description, h.priority, h.idempotencyKey,
    h.resourceId, h.createdAt, Zod.optional, Zod.boundedString]

/-- Printing a valid message receipt and parsing it gives it back. -/
theorem MessageReceipt.safeParse_toJsValue {r : MessageReceipt} (h : r.Valid) :
    MessageReceipt.safeParse r.toJsValue = some r := by
  obtain ⟨messageId, customerId, body, channel, idempotencyKey, resourceId, sentAt⟩ := r
  simp only [safeParse, Option.bind_eq_bind, Option.bind_eq_some_iff, Zod.strictObject_eq_some,
    Zod.nonEmptyString, Zod.boundedString_eq_some, Zod.enum_id_eq_some, Zod.isoDatetime_eq_some,
    Option.some.injEq, toJsValue]
  refine ⟨_, ⟨.object, ?_⟩, messageId, ?_, customerId, ?_, body, ?_, channel, ?_,
    idempotencyKey, ?_, resourceId, ?_, sentAt, ?_, rfl⟩
  all_goals simp [h.messageId, h.customerId, h.body, h.channel, h.idempotencyKey, h.resourceId,
    h.sentAt]

/-- Printing a valid refund receipt and parsing it gives it back. -/
theorem RefundReceipt.safeParse_toJsValue {r : RefundReceipt} (h : r.Valid) :
    RefundReceipt.safeParse r.toJsValue = some r := by
  have hamount := h.amountMinorInteger
  obtain ⟨refundId, orderId, amount, currency, reason, idempotencyKey, resourceId, issuedAt⟩ := r
  simp only [safeParse, Option.bind_eq_bind, Option.bind_eq_some_iff, Zod.strictObject_eq_some,
    Zod.nonEmptyString, Zod.boundedString_eq_some, Zod.positiveInt_eq_some,
    Zod.isoDatetime_eq_some, Option.some.injEq, toJsValue]
  refine ⟨_, ⟨.object, ?_⟩, refundId, ?_, orderId, ?_, amount, ⟨?_, hamount⟩, currency, ?_,
    reason, ?_, idempotencyKey, ?_, resourceId, ?_, issuedAt, ?_, rfl⟩
  all_goals simp [h.refundId, h.orderId, h.currency, h.reason, h.idempotencyKey, h.resourceId,
    h.issuedAt]

/-! ## Postconditions -/

/-- A receipt parses under the schema of the action type, and the expectation is the
    one it fulfils. -/
inductive Fulfils (raw : JsValue) : ActionType → PostconditionExpectation → Prop
  | ticket (r : TicketReceipt) (hparse : TicketReceipt.safeParse raw = some r) :
      Fulfils raw .createInternalTicket (.createInternalTicket r.idempotencyKey)
  | message (r : MessageReceipt) (hparse : MessageReceipt.safeParse raw = some r) :
      Fulfils raw .sendCustomerMessage
        (.sendCustomerMessage r.idempotencyKey r.customerId r.body r.channel)
  | refund (r : RefundReceipt) (hparse : RefundReceipt.safeParse raw = some r) :
      Fulfils raw .issueRefund (.issueRefund r.idempotencyKey r.orderId r.amountMinorInteger)

omit [Host] in
/-- `===` with a positive amount is equality. -/
private theorem strictEq_positive {d : Decimal} {n : JsNumber} (hd : 0 < d.digits)
    (h : (JsNumber.finite false d).strictEq n = true) : n = .finite false d := by
  cases n with
  | finite negative e =>
    simp only [JsNumber.strictEq, Bool.and_eq_true, Bool.or_eq_true, decide_eq_true_eq] at h
    obtain ⟨rfl, rfl | hzero⟩ := h
    · rfl
    · omega
  | _ => simp [JsNumber.strictEq] at h

/-- The postcondition check accepts exactly the receipts that fulfil the expectation. -/
theorem verifyPostcondition_iff {actionType : ActionType} {raw : JsValue}
    {expected : PostconditionExpectation} :
    verifyPostcondition actionType raw expected = true ↔ Fulfils raw actionType expected := by
  constructor
  · intro h
    cases actionType <;> cases expected <;> try cases h
    case createInternalTicket.createInternalTicket key =>
      simp only [verifyPostcondition, verifyTicketPostcondition] at h
      split at h
      · cases h
      · rename_i r hparse
        obtain rfl := of_decide_eq_true h
        exact .ticket r hparse
    case sendCustomerMessage.sendCustomerMessage key customerId body channel =>
      simp only [verifyPostcondition, verifyMessagePostcondition] at h
      split at h
      · cases h
      · rename_i r hparse
        simp only [Bool.and_eq_true, decide_eq_true_eq] at h
        obtain ⟨⟨⟨rfl, rfl⟩, rfl⟩, rfl⟩ := h
        exact .message r hparse
    case issueRefund.issueRefund key orderId amount =>
      simp only [verifyPostcondition, verifyRefundPostcondition] at h
      split at h
      · cases h
      · rename_i r hparse
        simp only [Bool.and_eq_true, decide_eq_true_eq] at h
        obtain ⟨⟨rfl, rfl⟩, hamount⟩ := h
        -- `===` is equality on the positive integer the schema has admitted
        obtain ⟨_, -, -, -, -, -, hvalid⟩ := RefundReceipt.safeParse_eq_some hparse
        obtain ⟨d, hd, hpositive, -⟩ := hvalid.amountMinorInteger
        rw [hd] at hamount
        obtain rfl : amount = r.amountMinorInteger := (strictEq_positive hpositive hamount).trans hd.symm
        exact .refund r hparse
  · intro h
    cases h with
    | ticket r hparse => simp [verifyPostcondition, verifyTicketPostcondition, hparse]
    | message r hparse => simp [verifyPostcondition, verifyMessagePostcondition, hparse]
    | refund r hparse =>
      obtain ⟨_, -, -, -, -, -, hvalid⟩ := RefundReceipt.safeParse_eq_some hparse
      obtain ⟨d, hd, -⟩ := hvalid.amountMinorInteger
      simp [verifyPostcondition, verifyRefundPostcondition, hparse, hd, JsNumber.strictEq]

/-- The keys of an action type's receipt schema. -/
def receiptKeys : ActionType → List JsString
  | .createInternalTicket =>
    [js "ticketId", js "status", js "title", js "description", js "priority",
      js "idempotencyKey", js "resourceId", js "createdAt"]
  | .sendCustomerMessage =>
    [js "messageId", js "customerId", js "body", js "channel", js "idempotencyKey",
      js "resourceId", js "sentAt"]
  | .issueRefund =>
    [js "refundId", js "orderId", js "amountMinorInteger", js "currency", js "reason",
      js "idempotencyKey", js "resourceId", js "issuedAt"]
  | .updateTicketStatus => []

/-- The required key that no other schema knows. -/
def receiptIdKey : ActionType → JsString
  | .createInternalTicket => js "ticketId"
  | .sendCustomerMessage => js "messageId"
  | .issueRefund => js "refundId"
  | .updateTicketStatus => js ""

omit [Host] in
/-- No receipt lists the id of a receipt of another action type. -/
theorem receiptIdKey_not_mem {actionType other : ActionType} (h : actionType ≠ other) :
    receiptIdKey actionType ∉ protoKey :: receiptKeys other := by
  cases actionType <;> cases other <;>
    first | exact absurd rfl h | simp [receiptIdKey, receiptKeys, protoKey]

/-- A receipt that fulfils an expectation is an object with the keys of its schema and
    perhaps a `__proto__`, the id among them, and the expected idempotency key. -/
theorem Fulfils.hasProps {raw : JsValue} {actionType : ActionType}
    {expected : PostconditionExpectation} (h : Fulfils raw actionType expected) :
    ∃ props id, HasProps props raw ∧ (∀ prop ∈ props, prop.1 ∈ protoKey :: receiptKeys actionType) ∧
      propOf props (receiptIdKey actionType) = .string id ∧
      propOf props (js "idempotencyKey") = .string expected.idempotencyKey := by
  cases h with
  | ticket r hparse =>
    obtain ⟨props, hprops, hkeys, hid, hkey, -⟩ := TicketReceipt.safeParse_eq_some hparse
    exact ⟨props, r.ticketId, hprops, hkeys, hid, hkey⟩
  | message r hparse =>
    obtain ⟨props, hprops, hkeys, hid, hkey, -⟩ := MessageReceipt.safeParse_eq_some hparse
    exact ⟨props, r.messageId, hprops, hkeys, hid, hkey⟩
  | refund r hparse =>
    obtain ⟨props, hprops, hkeys, hid, hkey, -⟩ := RefundReceipt.safeParse_eq_some hparse
    exact ⟨props, r.refundId, hprops, hkeys, hid, hkey⟩

/-- A receipt that fulfils an expectation carries its idempotency key. -/
theorem Fulfils.idempotencyKey {raw : JsValue} {actionType : ActionType}
    {expected : PostconditionExpectation} (h : Fulfils raw actionType expected) :
    raw.getProp (js "idempotencyKey") = some (.string expected.idempotencyKey) := by
  obtain ⟨props, id, hprops, -, -, hkey⟩ := h.hasProps
  rw [hprops.getProp, hkey]

/-- A receipt fulfils one expectation, under one action type. -/
theorem Fulfils.unique {raw : JsValue} {actionType actionType' : ActionType}
    {expected expected' : PostconditionExpectation} (h : Fulfils raw actionType expected)
    (h' : Fulfils raw actionType' expected') :
    actionType = actionType' ∧ expected = expected' := by
  have htype : actionType = actionType' := by
    obtain ⟨props, id, hprops, -, hid, -⟩ := h.hasProps
    obtain ⟨props', -, hprops', hkeys, -, -⟩ := h'.hasProps
    obtain rfl := hprops.unique hprops'
    by_contra hne
    -- the id of the one schema would be a key of the other
    exact receiptIdKey_not_mem hne (hkeys _ (mem_of_propOf hid (by simp)))
  subst htype
  refine ⟨rfl, ?_⟩
  cases h with
  | ticket r hparse | message r hparse | refund r hparse =>
    cases h' with
    | _ r' hparse' =>
      obtain rfl := Option.some.inj (hparse.symm.trans hparse')
      rfl

end

end ActionHarbor
