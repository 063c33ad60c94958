import ActionHarbor.Model.AdapterInterleaving
import ActionHarbor.Spec.Receipts

/-!
# What a fake adapter can do

The inversion lemma of `FakeAdapter.execute` and the invariant of a fake's tables:
one receipt for each key, carrying that key, and nothing but such receipts under
the operation ids.

## Key results

- `FakeAdapter.execute_cases`: a receipt is remembered or constructed
- `FakeAdapter.Consistent.execute`: the invariant is kept
-/

namespace ActionHarbor

section
variable [Host]

/-! ## Construction -/

/-- A receipt constructed for a call: it has the call's key and the capability's
    resource, and a message reflects the parameters. -/
inductive Constructed (operation : AdapterOperation) (capability : Capability)
    (params : JsValue) : ActionType → JsValue → Prop
  | ticket (r : TicketReceipt) (hvalid : r.Valid)
      (hkey : r.idempotencyKey = operation.idempotencyKey)
      (hresource : r.resourceId = capability.resourceId) :
      Constructed operation capability params .createInternalTicket r.toJsValue
  | message (r : MessageReceipt) (hvalid : r.Valid)
      (hkey : r.idempotencyKey = operation.idempotencyKey)
      (hresource : r.resourceId = capability.resourceId)
      (hcustomerId : params.getProp (js "customerId") = some (.string r.customerId))
      (hbody : params.getProp (js "body") = some (.string r.body))
      (hchannel : params.getProp (js "channel") = some (.string r.channel)) :
      Constructed operation capability params .sendCustomerMessage r.toJsValue
  | refund (r : RefundReceipt) (hvalid : r.Valid)
      (hkey : r.idempotencyKey = operation.idempotencyKey)
      (hresource : r.resourceId = capability.resourceId) :
      Constructed operation capability params .issueRefund r.toJsValue

namespace Constructed
variable {operation : AdapterOperation} {capability : Capability} {params receipt : JsValue}
  {actionType : ActionType}

/-- A constructed receipt carries the key of its call. -/
theorem idempotencyKey (h : Constructed operation capability params actionType receipt) :
    receipt.getProp (js "idempotencyKey") = some (.string operation.idempotencyKey) := by
  cases h with
  | ticket r _ hkey | message r _ hkey | refund r _ hkey =>
    rw [← hkey]
    simp [TicketReceipt.toJsValue, MessageReceipt.toJsValue, RefundReceipt.toJsValue,
      JsValue.getProp]
    try (split <;> simp)

/-- A constructed receipt names the resource of the capability. -/
theorem resourceId (h : Constructed operation capability params actionType receipt) :
    receipt.getProp (js "resourceId") = some (.string capability.resourceId) := by
  cases h with
  | ticket r _ _ hresource | message r _ _ hresource | refund r _ _ hresource =>
    rw [← hresource]
    simp [TicketReceipt.toJsValue, MessageReceipt.toJsValue, RefundReceipt.toJsValue,
      JsValue.getProp]
    try (split <;> simp)

end Constructed

omit [Host] in
/-- Reading a parameter that has a value. -/
theorem readParam_eq_ok {params value : JsValue} {key : String}
    (h : readParam params key = .ok value) : params.getProp (js key) = some value := by
  unfold readParam at h
  split at h
  · rename_i found hfound
    rw [hfound, Except.ok.inj h]
  · cases h

omit [Host] in
/-- A computation that goes through has gone through its first part. -/
theorem bind_eq_ok {ε α β : Type} {x : Except ε α} {f : α → Except ε β} {b : β}
    (h : (x >>= f) = .ok b) : ∃ a, x = .ok a ∧ f a = .ok b := by
  cases x with
  | error _ => cases h
  | ok a => exact ⟨a, rfl, h⟩

/-- What validated parses under the schema of its action type, and is printed from it. -/
inductive Validated (raw : JsValue) : ActionType → JsValue → Prop
  | ticket (r : TicketReceipt) (hparse : TicketReceipt.safeParse raw = some r) :
      Validated raw .createInternalTicket r.toJsValue
  | message (r : MessageReceipt) (hparse : MessageReceipt.safeParse raw = some r) :
      Validated raw .sendCustomerMessage r.toJsValue
  | refund (r : RefundReceipt) (hparse : RefundReceipt.safeParse raw = some r) :
      Validated raw .issueRefund r.toJsValue

/-- A receipt that is validated is the one the schema reads. -/
theorem validateAdapterReceipt_eq_ok {actionType : ActionType} {raw receipt : JsValue}
    {issues : JsString} (h : validateAdapterReceipt actionType raw issues = .ok receipt) :
    Validated raw actionType receipt := by
  cases actionType with
  | createInternalTicket | sendCustomerMessage | issueRefund =>
    simp only [validateAdapterReceipt] at h
    split at h
    · rename_i parsed hparsed
      obtain ⟨r, hr, rfl⟩ := Option.map_eq_some_iff.mp hparsed
      obtain rfl := Except.ok.inj h
      constructor
      exact hr
    · cases h
  | updateTicketStatus => cases h

/-- A candidate that validates is a constructed receipt. -/
theorem constructed_of_candidate {kind : FakeAdapterKind} (hkind : IsFakeAdapter kind)
    {operation : AdapterOperation} {capability : Capability} {params candidate receipt : JsValue}
    {draw : AdapterDraw}
    (hcandidate : kind.candidate operation capability params draw = .ok candidate)
    (hvalidate : validateAdapterReceipt kind.actionType candidate draw.issues = .ok receipt) :
    Constructed operation capability params kind.actionType receipt := by
  have hvalidated := validateAdapterReceipt_eq_ok hvalidate
  cases hkind with
  | ticket =>
    obtain ⟨title, -, hcandidate⟩ := bind_eq_ok hcandidate
    obtain ⟨description, -, hcandidate⟩ := bind_eq_ok hcandidate
    obtain ⟨priority, -, hcandidate⟩ := bind_eq_ok hcandidate
    obtain rfl := Except.ok.inj hcandidate
    cases hvalidated with
    | ticket r hparse =>
      obtain ⟨props, hprops, -, -, hkey, hresource, hvalid⟩ :=
        TicketReceipt.safeParse_eq_some hparse
      obtain rfl := hprops.unique .object
      refine .ticket r hvalid ?_ ?_
      · split at hkey <;> simpa [eq_comm] using hkey
      · split at hresource <;> simpa [eq_comm] using hresource
  | message =>
    obtain ⟨customerId, hcustomerId, hcandidate⟩ := bind_eq_ok hcandidate
    obtain ⟨body, hbody, hcandidate⟩ := bind_eq_ok hcandidate
    obtain ⟨channel, hchannel, hcandidate⟩ := bind_eq_ok hcandidate
    obtain rfl := Except.ok.inj hcandidate
    cases hvalidated with
    | message r hparse =>
      obtain ⟨props, hprops, -, -, hkey, hresource, hcustomerId', hbody', hchannel', hvalid⟩ :=
        MessageReceipt.safeParse_eq_some hparse
      obtain rfl := hprops.unique .object
      -- the candidate's fields are the parameters themselves
      have hcustomer : customerId = .string r.customerId := by simpa using hcustomerId'
      have htext : body = .string r.body := by simpa using hbody'
      have hroute : channel = .string r.channel := by simpa using hchannel'
      refine .message r hvalid (by simpa [eq_comm] using hkey) (by simpa [eq_comm] using hresource)
        ?_ ?_ ?_
      · rw [readParam_eq_ok hcustomerId, hcustomer]
      · rw [readParam_eq_ok hbody, htext]
      · rw [readParam_eq_ok hchannel, hroute]
  | refund =>
    obtain ⟨orderId, -, hcandidate⟩ := bind_eq_ok hcandidate
    obtain ⟨amount, -, hcandidate⟩ := bind_eq_ok hcandidate
    obtain ⟨currency, -, hcandidate⟩ := bind_eq_ok hcandidate
    obtain ⟨reason, -, hcandidate⟩ := bind_eq_ok hcandidate
    obtain rfl := Except.ok.inj hcandidate
    cases hvalidated with
    | refund r hparse =>
      obtain ⟨props, hprops, -, -, hkey, hresource, hvalid⟩ :=
        RefundReceipt.safeParse_eq_some hparse
      obtain rfl := hprops.unique .object
      exact .refund r hvalid (by simpa [eq_comm] using hkey) (by simpa [eq_comm] using hresource)

/-! ## The tables -/

namespace FakeAdapter

/-- The fake after an `execute` that returned this receipt for this operation. -/
def registered (adapter : FakeAdapter) (operationId : JsString) (receipt : JsValue) :
    FakeAdapter :=
  { adapter with byOperationId := Function.update adapter.byOperationId operationId (some receipt) }

/-- The fake after constructing a receipt. -/
def remembered (adapter : FakeAdapter) (key payloadHash : JsString) (receipt : JsValue) :
    FakeAdapter :=
  { adapter with
    byIdempotencyKey :=
      Function.update adapter.byIdempotencyKey key (some ⟨payloadHash, receipt⟩)
    created := adapter.created ++ [(key, receipt)] }

omit [Host] in
@[simp] theorem registered_byOperationId (adapter : FakeAdapter) (operationId : JsString)
    (receipt : JsValue) : (adapter.registered operationId receipt).byOperationId =
      Function.update adapter.byOperationId operationId (some receipt) := rfl

omit [Host] in
@[simp] theorem registered_byIdempotencyKey (adapter : FakeAdapter) (operationId : JsString)
    (receipt : JsValue) : (adapter.registered operationId receipt).byIdempotencyKey =
      adapter.byIdempotencyKey := rfl

omit [Host] in
@[simp] theorem remembered_byIdempotencyKey (adapter : FakeAdapter) (key payloadHash : JsString)
    (receipt : JsValue) : (adapter.remembered key payloadHash receipt).byIdempotencyKey =
      Function.update adapter.byIdempotencyKey key (some ⟨payloadHash, receipt⟩) := rfl

omit [Host] in
@[simp] theorem remembered_created (adapter : FakeAdapter) (key payloadHash : JsString)
    (receipt : JsValue) : (adapter.remembered key payloadHash receipt).created =
      adapter.created ++ [(key, receipt)] := rfl

/-- The two ways an `execute` can return a receipt. -/
inductive ExecuteOutcome (kind : FakeAdapterKind) (adapter : FakeAdapter)
    (operation : AdapterOperation) (capability : Capability) (params : JsValue) :
    FakeAdapter → JsValue → Prop
  | reused (existing : IdempotencyRecord)
      (hexisting : adapter.byIdempotencyKey operation.idempotencyKey = some existing)
      (hhash : hashCanonical params = .ok existing.payloadHash) :
      ExecuteOutcome kind adapter operation capability params
        (adapter.registered operation.operationId existing.receipt) existing.receipt
  | constructed (payloadHash : JsString) (receipt : JsValue)
      (hnew : adapter.byIdempotencyKey operation.idempotencyKey = none)
      (hhash : hashCanonical params = .ok payloadHash)
      (hconstructed : Constructed operation capability params kind.actionType receipt) :
      ExecuteOutcome kind adapter operation capability params
        ((adapter.remembered operation.idempotencyKey payloadHash receipt).registered
          operation.operationId receipt) receipt

/-- An `execute` that does not throw goes one of these ways. -/
theorem execute_cases {kind : FakeAdapterKind} (hkind : IsFakeAdapter kind)
    {adapter adapter' : FakeAdapter} {operation : AdapterOperation} {capability : Capability}
    {params receipt : JsValue} {draw : AdapterDraw}
    (h : adapter.execute kind operation capability params draw = .ok (adapter', receipt)) :
    capability.actionType = kind.actionType ∧
      ExecuteOutcome kind adapter operation capability params adapter' receipt := by
  rw [execute] at h
  split at h
  · cases h
  rename_i htype
  refine ⟨not_not.mp htype, ?_⟩
  -- past the capability check and the hash, the key decides
  obtain ⟨_, -, h⟩ := bind_eq_ok h
  cases hhash : hashCanonical params with
  | error _ => rw [hhash] at h; cases h
  | ok payloadHash =>
    rw [hhash] at h
    obtain ⟨⟨adapter₁, receipt₁⟩, hreceipt, h⟩ := bind_eq_ok h
    obtain ⟨rfl, rfl⟩ := Prod.mk.inj (Except.ok.inj h)
    rw [receiptFor] at hreceipt
    cases hexisting : adapter.byIdempotencyKey operation.idempotencyKey with
    | some existing =>
      simp only [hexisting] at hreceipt
      split at hreceipt
      · cases hreceipt
      · rename_i hpayload
        obtain ⟨rfl, rfl⟩ := Prod.mk.inj (Except.ok.inj hreceipt)
        exact .reused existing hexisting (by rw [hhash, not_not.mp hpayload])
    | none =>
      simp only [hexisting, create] at hreceipt
      obtain ⟨candidate, hcandidate, hreceipt⟩ := bind_eq_ok hreceipt
      split at hreceipt
      · cases hreceipt
      · rename_i validated hvalidate
        obtain ⟨rfl, rfl⟩ := Prod.mk.inj (Except.ok.inj hreceipt)
        exact .constructed payloadHash _ hexisting hhash
          (constructed_of_candidate hkind hcandidate hvalidate)

/-- The receipt a fake holds under a key. -/
def Holds (adapter : FakeAdapter) (key : JsString) (receipt : JsValue) : Prop :=
  ∃ payloadHash, adapter.byIdempotencyKey key = some ⟨payloadHash, receipt⟩

omit [Host] in
/-- There is one for each key. -/
theorem Holds.unique {adapter : FakeAdapter} {key : JsString} {receipt receipt' : JsValue}
    (h : adapter.Holds key receipt) (h' : adapter.Holds key receipt') : receipt = receipt' := by
  obtain ⟨payloadHash, h⟩ := h
  obtain ⟨payloadHash', h'⟩ := h'
  exact (IdempotencyRecord.mk.inj (Option.some.inj (h.symm.trans h'))).2

/-- What holds of the tables of a fake at any time. -/
structure Consistent (adapter : FakeAdapter) : Prop where
  /-- the constructed receipts are the remembered ones -/
  mem_created : ∀ key receipt, (key, receipt) ∈ adapter.created ↔ adapter.Holds key receipt
  /-- one for each key -/
  nodup : (adapter.created.map Prod.fst).Nodup
  /-- a remembered receipt carries its key -/
  keyed : ∀ key receipt, adapter.Holds key receipt →
    receipt.getProp (js "idempotencyKey") = some (.string key)
  /-- under an operation id there is a remembered receipt -/
  operations : ∀ operationId receipt, adapter.byOperationId operationId = some receipt →
    ∃ key, adapter.Holds key receipt

omit [Host] in
/-- Tables that hold nothing are consistent. -/
theorem consistent_empty : Consistent {} where
  mem_created key receipt := by simp [Holds]
  nodup := List.nodup_nil
  keyed key receipt h := by
    obtain ⟨_, h⟩ := h
    cases h
  operations operationId receipt h := by cases h

omit [Host] in
/-- Registering a remembered receipt under an operation id. -/
private theorem Consistent.registered {adapter : FakeAdapter} (hconsistent : adapter.Consistent)
    {key : JsString} {receipt : JsValue} (hholds : adapter.Holds key receipt)
    (operationId : JsString) : (adapter.registered operationId receipt).Consistent where
  mem_created := hconsistent.mem_created
  nodup := hconsistent.nodup
  keyed := hconsistent.keyed
  operations id found hfound := by
    by_cases hid : id = operationId
    · subst hid
      rw [registered_byOperationId, Function.update_self] at hfound
      exact ⟨key, Option.some.inj hfound ▸ hholds⟩
    · rw [registered_byOperationId, Function.update_of_ne hid] at hfound
      exact hconsistent.operations id found hfound

omit [Host] in
/-- Remembering a receipt for a new key keeps the others. -/
theorem Holds.remembered {adapter : FakeAdapter} {key newKey payloadHash : JsString}
    {receipt new : JsValue} (h : adapter.Holds key receipt)
    (hnew : adapter.byIdempotencyKey newKey = none) :
    (adapter.remembered newKey payloadHash new).Holds key receipt := by
  obtain ⟨hash, h⟩ := h
  have hne : key ≠ newKey := by
    rintro rfl
    rw [hnew] at h
    cases h
  exact ⟨hash, by rw [remembered_byIdempotencyKey, Function.update_of_ne hne, h]⟩

omit [Host] in
/-- Remembering a receipt that carries its key, for a new key. -/
private theorem Consistent.remember {adapter : FakeAdapter} (hconsistent : adapter.Consistent)
    {key payloadHash : JsString} {receipt : JsValue}
    (hnew : adapter.byIdempotencyKey key = none)
    (hkeyed : receipt.getProp (js "idempotencyKey") = some (.string key)) :
    (adapter.remembered key payloadHash receipt).Consistent where
  mem_created key' found := by
    rw [remembered_created, List.mem_append, List.mem_singleton, hconsistent.mem_created, Holds,
      Holds, remembered_byIdempotencyKey]
    by_cases hkey : key' = key
    · subst hkey
      simp [hnew, eq_comm]
    · simp [hkey]
  nodup := by
    -- a key that is not held has created nothing
    have hfresh : key ∉ adapter.created.map Prod.fst := by
      intro hmem
      obtain ⟨⟨_, old⟩, hentry, rfl⟩ := List.mem_map.mp hmem
      obtain ⟨_, hold⟩ := (hconsistent.mem_created _ old).mp hentry
      rw [hnew] at hold
      cases hold
    simpa [List.nodup_append, hconsistent.nodup] using
      fun a b hab (heq : a = key) => hfresh (heq ▸ List.mem_map_of_mem hab)
  keyed key' found hfound := by
    obtain ⟨hash, hfound⟩ := hfound
    by_cases hkey : key' = key
    · subst hkey
      rw [remembered_byIdempotencyKey, Function.update_self] at hfound
      rw [← (IdempotencyRecord.mk.inj (Option.some.inj hfound)).2, hkeyed]
    · rw [remembered_byIdempotencyKey, Function.update_of_ne hkey] at hfound
      exact hconsistent.keyed key' found ⟨hash, hfound⟩
  operations operationId found hfound := by
    obtain ⟨key', hholds⟩ := hconsistent.operations operationId found hfound
    exact ⟨key', hholds.remembered hnew⟩

/-- What an `execute` that returns a receipt does to the tables. -/
structure Returns (adapter adapter' : FakeAdapter) (operation : AdapterOperation)
    (receipt : JsValue) : Prop where
  consistent : adapter'.Consistent
  holds : adapter'.Holds operation.idempotencyKey receipt
  kept : ∀ key receipt, adapter.Holds key receipt → adapter'.Holds key receipt

/-- An `execute` keeps the tables consistent and the remembered receipts, and returns
    the receipt it holds under the key of the call. -/
theorem Consistent.execute {kind : FakeAdapterKind} {adapter adapter' : FakeAdapter}
    (hconsistent : adapter.Consistent) {operation : AdapterOperation} {capability : Capability}
    {params receipt : JsValue}
    (h : ExecuteOutcome kind adapter operation capability params adapter' receipt) :
    Returns adapter adapter' operation receipt := by
  cases h with
  | reused existing hexisting hhash =>
    -- a held key only gets one more operation id
    have hholds : adapter.Holds operation.idempotencyKey existing.receipt := ⟨_, hexisting⟩
    exact {
      consistent := hconsistent.registered hholds operation.operationId
      holds := hholds
      kept := fun _ _ h => h }
  | constructed payloadHash _ hnew hhash hconstructed =>
    have hremembered :
        (adapter.remembered operation.idempotencyKey payloadHash receipt).Consistent :=
      hconsistent.remember hnew hconstructed.idempotencyKey
    have hholds : (adapter.remembered operation.idempotencyKey payloadHash receipt).Holds
        operation.idempotencyKey receipt := ⟨payloadHash, Function.update_self ..⟩
    exact {
      consistent := hremembered.registered hholds operation.operationId
      holds := hholds
      kept := fun _ _ h => h.remembered hnew }

end FakeAdapter

/-! ## Decorators -/

/-- Handing a call on to the wrapped fake. -/
theorem CountingAdapter.execute_cases {kind : FakeAdapterKind} (hkind : IsFakeAdapter kind)
    (adapter : CountingAdapter) (operation : AdapterOperation) (capability : Capability)
    (params : JsValue) (draw : AdapterDraw) :
    (∃ error, adapter.execute kind operation capability params draw = (adapter, .error error)) ∨
    ∃ inner receipt,
      adapter.execute kind operation capability params draw =
        ({ adapter with inner := inner }, .ok receipt) ∧
      capability.actionType = kind.actionType ∧
      FakeAdapter.ExecuteOutcome kind adapter.inner operation capability params inner receipt := by
  rw [execute]
  cases hresult : adapter.inner.execute kind operation capability params draw with
  | error error => exact .inl ⟨error, rfl⟩
  | ok result =>
    obtain ⟨inner, receipt⟩ := result
    obtain ⟨htype, houtcome⟩ := FakeAdapter.execute_cases hkind hresult
    exact .inr ⟨inner, receipt, rfl, htype, houtcome⟩

end

end ActionHarbor
