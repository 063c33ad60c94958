import ActionHarbor.Spec.CanonicalText
import ActionHarbor.Spec.FakeAdapters

/-!
# A fake adapter over a history of calls

A fake is handed one call after the other, in any order of keys, operation ids,
capabilities and clock readings. Under a key it answers what the first call that
succeeded with it returned; under an operation id it finds what the last one did. A
message receipt found under an operation id can so be replaced.

## Key results

- `executeInPlace_run`: a call that throws leaves the tables as they were
- `runCalls_faithful`: what the tables hold, in terms of the calls
- `fakeAdapter_idempotent`: one receipt for each key, whatever is called
- `messageReceipts_stable_iff`: the runs in which no receipt is replaced
-/

namespace ActionHarbor

/-! ## Throwing over a state -/

/-- Lifting a result reads and writes nothing. -/
theorem run_liftExcept {ε σ α : Type} (x : Except ε α) (s : σ) :
    (liftExcept x : ExceptT ε (StateM σ) α).run.run s = (x, s) := by
  cases x <;> rfl

/-- Reading the state. -/
theorem run_get {ε σ : Type} (s : σ) :
    (get : ExceptT ε (StateM σ) σ).run.run s = (.ok s, s) := rfl

/-- A throw keeps the state it was made in. -/
theorem run_bind {ε σ α β : Type} (x : ExceptT ε (StateM σ) α)
    (f : α → ExceptT ε (StateM σ) β) (s : σ) :
    (x >>= f).run.run s =
      match x.run.run s with
      | (.ok a, s') => (f a).run.run s'
      | (.error e, s') => (.error e, s') := by
  rw [ExceptT.run_bind, StateT.run_bind]
  obtain ⟨_ | _, s'⟩ := x.run.run s <;> rfl

section
variable [Host]

namespace FakeAdapter

/-- Mutated in place, the tables change when `execute` returns, and never when it throws. -/
theorem executeInPlace_run (kind : FakeAdapterKind) (adapter : FakeAdapter)
    (operation : AdapterOperation) (capability : Capability) (params : JsValue)
    (draw : AdapterDraw) :
    (executeInPlace kind operation capability params draw).run.run adapter =
      match adapter.execute kind operation capability params draw with
      | .error error => (.error error, adapter)
      | .ok (adapter', receipt) => (.ok receipt, adapter') := by
  unfold executeInPlace execute
  by_cases htype : capability.actionType ≠ kind.actionType
  · rw [if_pos htype, if_pos htype]
    rfl
  rw [if_neg htype, if_neg htype]
  cases hactive : assertCapabilityActive capability draw.now with
  | error error => rfl
  | ok _ =>
    cases hhash : hashCanonical params with
    | error error => rfl
    | ok payloadHash =>
      -- nothing is written before the receipt is known
      simp only [run_bind, run_liftExcept, run_get, receiptFor, pure_bind]
      cases hexisting : adapter.byIdempotencyKey operation.idempotencyKey with
      | some existing =>
        by_cases hpayload : existing.payloadHash ≠ payloadHash
        · simp only [if_pos hpayload]
          rfl
        · simp only [if_neg hpayload]
          rfl
      | none =>
        simp only [create, run_bind, run_liftExcept]
        cases hcandidate : kind.candidate operation capability params draw with
        | error error => rfl
        | ok candidate =>
          simp only
          cases hvalidate : validateAdapterReceipt kind.actionType candidate draw.issues with
          | error details => simp only [bind, Except.bind, hvalidate]; rfl
          | ok receipt => simp only [bind, Except.bind, hvalidate]; rfl

/-- A call that throws leaves the fake as it was. -/
theorem call_error {kind : FakeAdapterKind} {adapter : FakeAdapter} {next : ExecuteCall}
    {error : AdapterError} (h : (adapter.call kind next).1 = .error error) :
    (adapter.call kind next).2 = adapter := by
  rw [call, executeInPlace_run] at h ⊢
  split at h
  · rfl
  · cases h

/-- A call that returns is an `execute`. -/
theorem execute_of_call {kind : FakeAdapterKind} {adapter : FakeAdapter} {next : ExecuteCall}
    {receipt : JsValue} (h : (adapter.call kind next).1 = .ok receipt) :
    adapter.execute kind next.operation next.capability next.params next.draw =
      .ok ((adapter.call kind next).2, receipt) := by
  rw [call, executeInPlace_run] at h ⊢
  split at h
  · cases h
  · rename_i hreturned
    rw [hreturned]
    cases h
    rfl

/-! ## What a call asks for -/

/-- The capability lets the call through: the right action type, active, unexpired. -/
def Permits (kind : FakeAdapterKind) (next : ExecuteCall) : Prop :=
  next.capability.actionType = kind.actionType ∧ next.capability.status = .active ∧
    isExpired next.capability.expiresAt next.draw.now = false

/-- The adapters' check of a capability. -/
theorem assertCapabilityActive_eq_ok_iff (capability : Capability) (now : Instant) :
    assertCapabilityActive capability now = .ok () ↔
      capability.status = .active ∧ isExpired capability.expiresAt now = false := by
  unfold assertCapabilityActive
  split
  · rename_i hstatus
    simp [hstatus]
  · rename_i hstatus
    split <;> simp_all

/-- What an `execute` went through that returns. -/
theorem execute_eq_ok_iff {kind : FakeAdapterKind} {adapter adapter' : FakeAdapter}
    {operation : AdapterOperation} {capability : Capability} {params returned : JsValue}
    {draw : AdapterDraw} :
    adapter.execute kind operation capability params draw = .ok (adapter', returned) ↔
      capability.actionType = kind.actionType ∧
        assertCapabilityActive capability draw.now = .ok () ∧
        ∃ payloadHash, hashCanonical params = .ok payloadHash ∧
          ∃ found, adapter.receiptFor kind operation capability params payloadHash draw =
              .ok (found, returned) ∧
            adapter' =
              { found with
                byOperationId :=
                  Function.update found.byOperationId operation.operationId (some returned) } := by
  rw [execute]
  -- the action type is checked before anything else
  by_cases htype : capability.actionType = kind.actionType
  · rw [if_neg (not_not.mpr htype)]
    constructor
    · intro h
      obtain ⟨_, hactive, h⟩ := bind_eq_ok h
      refine ⟨htype, hactive, ?_⟩
      cases hhash : hashCanonical params with
      | error error =>
        rw [hhash] at h
        cases h
      | ok payloadHash =>
        rw [hhash] at h
        obtain ⟨⟨found, receipt⟩, hfound, h⟩ := bind_eq_ok h
        cases h
        exact ⟨payloadHash, rfl, found, hfound, rfl⟩
    · rintro ⟨-, hactive, payloadHash, hhash, found, hfound, rfl⟩
      rw [hactive, hhash]
      simp only [bind, Except.bind, hfound]
  · rw [if_pos htype]
    constructor
    · intro h
      cases h
    · rintro ⟨h, -⟩
      exact absurd h htype

/-- A call returns what `receiptFor` does, if the capability permits it and the parameters
    have a hash. -/
theorem call_eq_ok_iff {kind : FakeAdapterKind} {adapter : FakeAdapter} {next : ExecuteCall}
    {returned : JsValue} :
    (adapter.call kind next).1 = .ok returned ↔
      Permits kind next ∧ ∃ payloadHash, hashCanonical next.params = .ok payloadHash ∧
        ∃ adapter', adapter.receiptFor kind next.operation next.capability next.params payloadHash
          next.draw = .ok (adapter', returned) := by
  constructor
  · intro h
    obtain ⟨htype, hactive, payloadHash, hhash, found, hfound, -⟩ :=
      execute_eq_ok_iff.mp (execute_of_call h)
    exact ⟨⟨htype, (assertCapabilityActive_eq_ok_iff _ _).mp hactive⟩, payloadHash, hhash, found,
      hfound⟩
  · rintro ⟨⟨htype, hactive⟩, payloadHash, hhash, found, hfound⟩
    rw [call, executeInPlace_run, execute_eq_ok_iff.mpr ⟨htype,
      (assertCapabilityActive_eq_ok_iff _ _).mpr hactive, payloadHash, hhash, found, hfound, rfl⟩]

/-- With a key that has a receipt, a call returns that receipt, if the capability permits it
    and the parameters have the remembered hash; otherwise it throws. -/
theorem call_of_held {kind : FakeAdapterKind} {adapter : FakeAdapter} {next : ExecuteCall}
    {existing : IdempotencyRecord}
    (hexisting : adapter.byIdempotencyKey next.operation.idempotencyKey = some existing)
    (returned : JsValue) :
    (adapter.call kind next).1 = .ok returned ↔
      Permits kind next ∧ hashCanonical next.params = .ok existing.payloadHash ∧
        returned = existing.receipt := by
  rw [call_eq_ok_iff]
  simp only [receiptFor, hexisting]
  constructor
  · rintro ⟨hpermits, payloadHash, hhash, adapter', h⟩
    split at h
    · cases h
    · rename_i hpayload
      cases h
      exact ⟨hpermits, not_not.mp hpayload ▸ hhash, rfl⟩
  · rintro ⟨hpermits, hhash, rfl⟩
    exact ⟨hpermits, _, hhash, adapter, by rw [if_neg (not_not.mpr rfl)]⟩

/-- The fake lets a call through: the capability permits it, and the parameters have the hash
    remembered under the key or, under a new key, make a valid receipt. -/
def Accepts (kind : FakeAdapterKind) (adapter : FakeAdapter) (next : ExecuteCall) : Prop :=
  Permits kind next ∧ ∃ payloadHash, hashCanonical next.params = .ok payloadHash ∧
    ((∃ existing, adapter.byIdempotencyKey next.operation.idempotencyKey = some existing ∧
        existing.payloadHash = payloadHash) ∨
      adapter.byIdempotencyKey next.operation.idempotencyKey = none ∧
        ∃ candidate receipt,
          kind.candidate next.operation next.capability next.params next.draw = .ok candidate ∧
          validateAdapterReceipt kind.actionType candidate next.draw.issues = .ok receipt)

/-- What it lets through returns. -/
theorem accepts_iff {kind : FakeAdapterKind} {adapter : FakeAdapter} {next : ExecuteCall} :
    adapter.Accepts kind next ↔ ∃ receipt, (adapter.call kind next).1 = .ok receipt := by
  simp only [call_eq_ok_iff]
  constructor
  · rintro ⟨hpermits, payloadHash, hhash, ⟨existing, hexisting, rfl⟩ |
      ⟨hnew, candidate, receipt, hcandidate, hvalidate⟩⟩
    · refine ⟨existing.receipt, hpermits, _, hhash, adapter, ?_⟩
      simp [receiptFor, hexisting]
    · refine ⟨receipt, hpermits, _, hhash, ?_⟩
      simp [receiptFor, hnew, create, hcandidate, hvalidate, bind, Except.bind]
  · rintro ⟨receipt, hpermits, payloadHash, hhash, adapter', h⟩
    refine ⟨hpermits, payloadHash, hhash, ?_⟩
    rw [receiptFor] at h
    cases hexisting : adapter.byIdempotencyKey next.operation.idempotencyKey with
    | some existing =>
      simp only [hexisting] at h
      split at h
      · cases h
      · rename_i hpayload
        exact Or.inl ⟨existing, rfl, not_not.mp hpayload⟩
    | none =>
      simp only [hexisting, create] at h
      obtain ⟨candidate, hcandidate, h⟩ := bind_eq_ok h
      split at h
      · cases h
      · rename_i validated hvalidate
        exact Or.inr ⟨rfl, candidate, validated, hcandidate, hvalidate⟩

end FakeAdapter

/-! ## What the tables hold -/

omit [Host] in
/-- The first call with this key that returned, and the receipt it returned. -/
def creation (key : JsString) (results : List (ExecuteCall × Except AdapterError JsValue)) :
    Option (ExecuteCall × JsValue) :=
  results.findSome? fun entry =>
    if entry.1.operation.idempotencyKey = key then entry.2.toOption.map fun receipt =>
      (entry.1, receipt)
    else none

omit [Host] in
/-- The receipt of the last call with this operation id that returned. -/
def latestReceipt (operationId : JsString)
    (results : List (ExecuteCall × Except AdapterError JsValue)) : Option JsValue :=
  results.reverse.findSome? fun entry =>
    if entry.1.operation.operationId = operationId then entry.2.toOption else none

omit [Host] in
/-- A call changes the first one only where there was none. -/
theorem creation_append (key : JsString)
    (results : List (ExecuteCall × Except AdapterError JsValue)) (next : ExecuteCall)
    (result : Except AdapterError JsValue) :
    creation key (results ++ [(next, result)]) =
      (creation key results).or
        (if next.operation.idempotencyKey = key then result.toOption.map fun receipt =>
          (next, receipt)
        else none) := by
  rw [creation, List.findSome?_append, ← creation]
  simp

omit [Host] in
/-- A call that returned is the last one under its operation id. -/
theorem latestReceipt_append (operationId : JsString)
    (results : List (ExecuteCall × Except AdapterError JsValue)) (next : ExecuteCall)
    (result : Except AdapterError JsValue) :
    latestReceipt operationId (results ++ [(next, result)]) =
      (if next.operation.operationId = operationId then result.toOption else none).or
        (latestReceipt operationId results) := by
  unfold latestReceipt
  rw [List.reverse_append, List.findSome?_append]
  simp

namespace CallHistory

/-- The tables in terms of the calls: under a key the receipt of the first that returned, with
    the hash of its parameters, under an operation id the receipt of the last. -/
structure Faithful (history : CallHistory) : Prop where
  consistent : history.adapter.Consistent
  returned : ∀ entry ∈ history.results, ∀ receipt, entry.2 = .ok receipt →
    history.adapter.Holds entry.1.operation.idempotencyKey receipt
  created : ∀ key first receipt, creation key history.results = some (first, receipt) →
    ∃ payloadHash, hashCanonical first.params = .ok payloadHash ∧
      history.adapter.byIdempotencyKey key = some ⟨payloadHash, receipt⟩
  fresh : ∀ key, creation key history.results = none → history.adapter.byIdempotencyKey key = none
  latest : ∀ operationId,
    history.adapter.byOperationId operationId = latestReceipt operationId history.results

theorem faithful_empty : Faithful {} where
  consistent := FakeAdapter.consistent_empty
  returned entry hentry := by cases hentry
  created key first receipt h := by cases h
  fresh key _ := rfl
  latest operationId := rfl

/-- A key that is held was created. -/
theorem Faithful.exists_creation {history : CallHistory} (h : history.Faithful) {key : JsString}
    {existing : IdempotencyRecord} (hexisting : history.adapter.byIdempotencyKey key = some existing) :
    ∃ first, creation key history.results = some (first, existing.receipt) ∧
      hashCanonical first.params = .ok existing.payloadHash := by
  cases hcreation : creation key history.results with
  | none =>
    rw [h.fresh key hcreation] at hexisting
    cases hexisting
  | some entry =>
    obtain ⟨first, receipt⟩ := entry
    obtain ⟨payloadHash, hhash, hheld⟩ := h.created key first receipt hcreation
    rw [hheld] at hexisting
    obtain rfl := Option.some.inj hexisting
    exact ⟨first, rfl, hhash⟩

/-- A call that threw is neither the first nor the last that returned. -/
theorem Faithful.step_thrown {history : CallHistory} (h : history.Faithful) (next : ExecuteCall)
    (error : AdapterError) :
    Faithful ⟨history.adapter, history.results ++ [(next, .error error)]⟩ := by
  have hcreation : ∀ key, creation key (history.results ++ [(next, .error error)]) =
      creation key history.results := by
    intro key
    rw [creation_append]
    simp [Except.toOption]
  exact {
    consistent := h.consistent
    returned := by
      intro entry hentry receipt hreceipt
      rw [List.mem_append, List.mem_singleton] at hentry
      obtain hbefore | rfl := hentry
      · exact h.returned entry hbefore receipt hreceipt
      · cases hreceipt
    created := fun key first receipt hfirst =>
      h.created key first receipt (hcreation key ▸ hfirst)
    fresh := fun key hfirst => h.fresh key (hcreation key ▸ hfirst)
    latest := fun id => by
      rw [h.latest, latestReceipt_append]
      simp [Except.toOption] }

/-- A call that returned is the last under its operation id, and the first under its key if
    the key is new. -/
theorem Faithful.step_returned {kind : FakeAdapterKind} {history : CallHistory} (h : history.Faithful)
    {next : ExecuteCall} {adapter' : FakeAdapter} {receipt : JsValue}
    (houtcome : FakeAdapter.ExecuteOutcome kind history.adapter next.operation next.capability
      next.params adapter' receipt) :
    Faithful ⟨adapter', history.results ++ [(next, .ok receipt)]⟩ := by
  have hreturns := h.consistent.execute houtcome
  have hreturned : ∀ entry ∈ history.results ++ [(next, .ok receipt)], ∀ found,
      entry.2 = .ok found → adapter'.Holds entry.1.operation.idempotencyKey found := by
    intro entry hentry found hfound
    rw [List.mem_append, List.mem_singleton] at hentry
    obtain hbefore | rfl := hentry
    · exact hreturns.kept _ _ (h.returned entry hbefore found hfound)
    · exact Except.ok.inj hfound ▸ hreturns.holds
  have hcreation : ∀ key, creation key (history.results ++ [(next, .ok receipt)]) =
      (creation key history.results).or
        (if next.operation.idempotencyKey = key then some (next, receipt) else none) := by
    intro key
    rw [creation_append]
    rfl
  have hlatest : ∀ id,
      Function.update history.adapter.byOperationId next.operation.operationId (some receipt) id =
        latestReceipt id (history.results ++ [(next, .ok receipt)]) := by
    intro id
    rw [latestReceipt_append]
    by_cases hid : id = next.operation.operationId
    · subst hid
      simp [Except.toOption]
    · rw [if_neg (Ne.symm hid), Function.update_of_ne hid, h.latest id]
      rfl
  cases houtcome with
  | reused existing hexisting hhash =>
    obtain ⟨first, hfirst, -⟩ := h.exists_creation hexisting
    -- the key was created before, so no first call changes
    have hkept : ∀ key, creation key (history.results ++ [(next, .ok existing.receipt)]) =
        creation key history.results := by
      intro key
      rw [hcreation]
      by_cases hkey : next.operation.idempotencyKey = key
      · subst hkey
        rw [hfirst]
        rfl
      · rw [if_neg hkey, Option.or_none]
    exact {
      consistent := hreturns.consistent
      returned := hreturned
      created := fun key first receipt h' => h.created key first receipt (hkept key ▸ h')
      fresh := fun key h' => h.fresh key (hkept key ▸ h')
      latest := hlatest }
  | constructed payloadHash _ hnew hhash hconstructed =>
    refine ⟨hreturns.consistent, hreturned, fun key first found hfirst => ?_, fun key hfirst => ?_, hlatest⟩
    · rw [hcreation] at hfirst
      by_cases hkey : next.operation.idempotencyKey = key
      · subst hkey
        have hnone : creation next.operation.idempotencyKey history.results = none := by
          by_contra hcreated
          obtain ⟨entry, hentry⟩ := Option.ne_none_iff_exists'.mp hcreated
          obtain ⟨_, -, hheld⟩ := h.created _ entry.1 entry.2 hentry
          rw [hnew] at hheld
          cases hheld
        rw [hnone, if_pos rfl] at hfirst
        obtain ⟨rfl, rfl⟩ := Prod.mk.inj (Option.some.inj hfirst)
        exact ⟨payloadHash, hhash, Function.update_self ..⟩
      · rw [if_neg hkey, Option.or_none] at hfirst
        obtain ⟨hash, hfirstHash, hheld⟩ := h.created key first found hfirst
        refine ⟨hash, hfirstHash, ?_⟩
        rw [FakeAdapter.registered_byIdempotencyKey, FakeAdapter.remembered_byIdempotencyKey,
          Function.update_of_ne (Ne.symm hkey), hheld]
    · rw [hcreation, Option.or_eq_none_iff] at hfirst
      have hkey : key ≠ next.operation.idempotencyKey := by
        rintro rfl
        rw [if_pos rfl] at hfirst
        cases hfirst.2
      rw [FakeAdapter.registered_byIdempotencyKey, FakeAdapter.remembered_byIdempotencyKey,
        Function.update_of_ne hkey, h.fresh key hfirst.1]

/-- One more call keeps the tables faithful, and every receipt. -/
theorem Faithful.step {kind : FakeAdapterKind} (hkind : IsFakeAdapter kind)
    {history : CallHistory} (h : history.Faithful) (next : ExecuteCall) :
    (history.step kind next).Faithful ∧
      ∀ key receipt, history.adapter.Holds key receipt →
        (history.step kind next).adapter.Holds key receipt := by
  have hstep : history.step kind next = ⟨(history.adapter.call kind next).2,
      history.results ++ [(next, (history.adapter.call kind next).1)]⟩ := rfl
  rw [hstep]
  cases hresult : (history.adapter.call kind next).1 with
  | error error =>
    rw [FakeAdapter.call_error hresult]
    exact ⟨h.step_thrown next error, fun _ _ hholds => hholds⟩
  | ok receipt =>
    obtain ⟨-, houtcome⟩ := FakeAdapter.execute_cases hkind (FakeAdapter.execute_of_call hresult)
    exact ⟨h.step_returned houtcome, (h.consistent.execute houtcome).kept⟩

/-- So does every run. -/
theorem Faithful.foldl {kind : FakeAdapterKind} (hkind : IsFakeAdapter kind)
    (calls : List ExecuteCall) {history : CallHistory} (h : history.Faithful) :
    (calls.foldl (CallHistory.step kind) history).Faithful ∧
      ∀ key receipt, history.adapter.Holds key receipt →
        (calls.foldl (CallHistory.step kind) history).adapter.Holds key receipt := by
  induction calls generalizing history with
  | nil => exact ⟨h, fun _ _ hholds => hholds⟩
  | cons next rest ih =>
    obtain ⟨hstep, hkept⟩ := h.step hkind next
    obtain ⟨hrun, hkeptRun⟩ := ih hstep
    exact ⟨hrun, fun key receipt hholds => hkeptRun key receipt (hkept key receipt hholds)⟩

end CallHistory

/-- After any calls the tables are what the calls make of them. -/
theorem runCalls_faithful {kind : FakeAdapterKind} (hkind : IsFakeAdapter kind)
    (calls : List ExecuteCall) : (runCalls kind calls).Faithful :=
  (CallHistory.faithful_empty.foldl hkind calls).1

/-- A receipt stays whatever is called next. -/
theorem holds_runCalls_append {kind : FakeAdapterKind} (hkind : IsFakeAdapter kind)
    (calls more : List ExecuteCall) {key : JsString} {receipt : JsValue}
    (h : (runCalls kind calls).adapter.Holds key receipt) :
    (runCalls kind (calls ++ more)).adapter.Holds key receipt := by
  rw [runCalls, List.foldl_append]
  exact ((runCalls_faithful hkind calls).foldl hkind more).2 key receipt h

/-! ## One receipt for each key -/

omit [Host] in
/-- Parameters as `JSON.parse` returns them, without a field called `__proto__`. -/
structure JsonParams (params : JsValue) : Prop where
  parsed : isParsedJson params = true
  noProto : dropProto params = params

/-- Such parameters have the hash of others exactly if they are the same up to key order. -/
theorem JsonParams.hashCanonical_eq_iff (hdigest : DigestInjective) {params others : JsValue}
    (hparams : JsonParams params) (hothers : JsonParams others) {hash : JsString}
    (hhash : hashCanonical others = .ok hash) :
    hashCanonical params = .ok hash ↔ SameJson params others := by
  have hagree := hashesAgree_iff hdigest hparams.parsed hothers.parsed
  rw [hparams.noProto, hothers.noProto] at hagree
  constructor
  · intro h
    exact (hagree.mp ⟨hash, h, hhash⟩).2
  · intro hsame
    have hplain : isPlainJson others = true :=
      (hashable_iff_of_isParsedJson hothers.parsed).mp (hashable_of_hashCanonical hhash)
    obtain ⟨found, hfound, hfound'⟩ :=
      hagree.mpr ⟨⟨isPlainJson_of_sameJson params others hsame.1 hplain, hplain⟩, hsame⟩
    rw [hhash] at hfound'
    rw [hfound, Except.ok.inj hfound']

/-- What holds of a fake and the calls it was handed. -/
structure CallHistory.Idempotent (kind : FakeAdapterKind) (history : CallHistory) : Prop where
  /-- no key has created two receipts -/
  oneReceipt : (history.adapter.created.map Prod.fst).Nodup
  /-- every receipt that was returned is the one its key has -/
  returned : ∀ entry ∈ history.results, ∀ receipt, entry.2 = .ok receipt →
    history.adapter.Holds entry.1.operation.idempotencyKey receipt
  /-- with a key that has a receipt, the parameters that created it get it, and no others -/
  replay : ∀ next receipt, JsonParams next.params →
    history.adapter.Holds next.operation.idempotencyKey receipt →
    ∃ first, creation next.operation.idempotencyKey history.results = some (first, receipt) ∧
      ∀ returned, (history.adapter.call kind next).1 = .ok returned ↔
        FakeAdapter.Permits kind next ∧ SameJson next.params first.params ∧ returned = receipt
  /-- a call that throws changes nothing -/
  atomic : ∀ next error, (history.adapter.call kind next).1 = .error error →
    (history.adapter.call kind next).2 = history.adapter
  /-- an operation id finds what the last call with it returned -/
  found : ∀ operationId receipt, latestReceipt operationId history.results = some receipt →
    history.adapter.lookup operationId =
      .object [(js "status", .string (js "found")), (js "receipt", receipt)]
  unknown : ∀ operationId, latestReceipt operationId history.results = none →
    history.adapter.lookup operationId = .object [(js "status", .string (js "unknown"))]

/-- The calls recorded are the calls made. -/
theorem results_runCalls (kind : FakeAdapterKind) (calls : List ExecuteCall) :
    (runCalls kind calls).results.map Prod.fst = calls := by
  induction calls using List.reverseRecOn with
  | nil => rfl
  | append_singleton calls next ih =>
    rw [runCalls, List.foldl_append, ← runCalls]
    exact (List.map_append ..).trans (congrArg (· ++ [next]) ih)

omit [Host] in
/-- The first call that returned is one of the calls. -/
theorem mem_of_creation {key : JsString}
    {results : List (ExecuteCall × Except AdapterError JsValue)} {first : ExecuteCall}
    {receipt : JsValue} (h : creation key results = some (first, receipt)) :
    first ∈ results.map Prod.fst := by
  obtain ⟨entry, hentry, hfirst⟩ := List.exists_of_findSome?_eq_some h
  split at hfirst
  · obtain ⟨_, -, heq⟩ := Option.map_eq_some_iff.mp hfirst
    obtain ⟨rfl, -⟩ := Prod.mk.inj heq
    exact List.mem_map_of_mem hentry
  · cases hfirst

/-- However a fake is called, it is idempotent, and what it has created stays. -/
theorem fakeAdapter_idempotent (hdigest : DigestInjective) {kind : FakeAdapterKind}
    (hkind : IsFakeAdapter kind) (calls : List ExecuteCall)
    (hparams : ∀ call ∈ calls, JsonParams call.params) :
    (runCalls kind calls).Idempotent kind ∧
      ∀ more key receipt, (runCalls kind calls).adapter.Holds key receipt →
        (runCalls kind (calls ++ more)).adapter.Holds key receipt := by
  have hfaithful := runCalls_faithful hkind calls
  refine ⟨⟨hfaithful.consistent.nodup, hfaithful.returned, fun next receipt hnext hholds => ?_,
    fun next error => FakeAdapter.call_error, fun operationId receipt hlatest => ?_,
    fun operationId hlatest => ?_⟩, fun more _ _ => holds_runCalls_append hkind calls more⟩
  · obtain ⟨payloadHash, hexisting⟩ := hholds
    obtain ⟨first, hfirst, hhash⟩ := hfaithful.exists_creation hexisting
    have hmem : first ∈ calls := results_runCalls kind calls ▸ mem_of_creation hfirst
    refine ⟨first, hfirst, fun returned => ?_⟩
    rw [FakeAdapter.call_of_held hexisting,
      hnext.hashCanonical_eq_iff hdigest (hparams first hmem) hhash]
  · rw [FakeAdapter.lookup, hfaithful.latest, hlatest]
  · rw [FakeAdapter.lookup, hfaithful.latest, hlatest]

/-! ## Receipts under an operation id -/

/-- Once a lookup has returned a receipt, every later one returns it. -/
def MessageReceiptsStable (calls : List ExecuteCall) : Prop :=
  ∀ before between after, calls = before ++ between ++ after → ∀ operationId receipt,
    (runCalls fakeMessageAdapter before).adapter.lookup operationId =
      .object [(js "status", .string (js "found")), (js "receipt", receipt)] →
    (runCalls fakeMessageAdapter (before ++ between)).adapter.lookup operationId =
      .object [(js "status", .string (js "found")), (js "receipt", receipt)]

/-- The call is let through, and its operation id has a receipt under another key than the
    call's own. -/
def FakeAdapter.Overwrites (adapter : FakeAdapter) (next : ExecuteCall) : Prop :=
  adapter.Accepts fakeMessageAdapter next ∧
    ∃ receipt, adapter.byOperationId next.operation.operationId = some receipt ∧
      receipt.getProp (js "idempotencyKey") ≠ some (.string next.operation.idempotencyKey)

/-- A call that returns registers its receipt. -/
theorem FakeAdapter.ExecuteOutcome.byOperationId {kind : FakeAdapterKind}
    {adapter adapter' : FakeAdapter} {operation : AdapterOperation} {capability : Capability}
    {params receipt : JsValue}
    (h : ExecuteOutcome kind adapter operation capability params adapter' receipt) :
    adapter'.byOperationId =
      Function.update adapter.byOperationId operation.operationId (some receipt) := by
  cases h <;> rfl

omit [Host] in
/-- A lookup finds what is registered. -/
theorem FakeAdapter.lookup_eq_found_iff {adapter : FakeAdapter} {operationId : JsString}
    {receipt : JsValue} :
    adapter.lookup operationId =
        .object [(js "status", .string (js "found")), (js "receipt", receipt)] ↔
      adapter.byOperationId operationId = some receipt := by
  rw [FakeAdapter.lookup]
  cases adapter.byOperationId operationId with
  | none => simp
  | some found => simp

/-- The next call after a run. -/
theorem runCalls_append_singleton (kind : FakeAdapterKind) (calls : List ExecuteCall)
    (next : ExecuteCall) :
    runCalls kind (calls ++ [next]) = (runCalls kind calls).step kind next := by
  rw [runCalls, List.foldl_append]
  rfl

/-- A call that does not overwrite leaves what is registered. -/
theorem CallHistory.Faithful.registered_kept {history : CallHistory} (h : history.Faithful)
    {next : ExecuteCall} (hnext : ¬ history.adapter.Overwrites next) {operationId : JsString}
    {receipt : JsValue} (hreceipt : history.adapter.byOperationId operationId = some receipt) :
    (history.step fakeMessageAdapter next).adapter.byOperationId operationId = some receipt := by
  have hstep : (history.step fakeMessageAdapter next).adapter =
      (history.adapter.call fakeMessageAdapter next).2 := rfl
  rw [hstep]
  cases hresult : (history.adapter.call fakeMessageAdapter next).1 with
  | error error => rw [FakeAdapter.call_error hresult, hreceipt]
  | ok returned =>
    obtain ⟨-, houtcome⟩ := FakeAdapter.execute_cases .message (FakeAdapter.execute_of_call hresult)
    have hreturns := h.consistent.execute houtcome
    rw [houtcome.byOperationId]
    by_cases hid : operationId = next.operation.operationId
    · subst hid
      -- the receipt that is there has the key of the call, so it is the one returned
      obtain ⟨key, hholds⟩ := h.consistent.operations _ _ hreceipt
      have hkeyed := h.consistent.keyed key receipt hholds
      have hkey : key = next.operation.idempotencyKey := by
        by_contra hne
        refine hnext ⟨FakeAdapter.accepts_iff.mpr ⟨returned, hresult⟩, receipt, hreceipt, ?_⟩
        rw [hkeyed]
        simpa using hne
      subst hkey
      rw [Function.update_self, (hreturns.kept _ _ hholds).unique hreturns.holds]
    · rw [Function.update_of_ne hid, hreceipt]

/-- A call that overwrites registers another receipt. -/
theorem CallHistory.Faithful.registered_replaced {history : CallHistory} (h : history.Faithful)
    {next : ExecuteCall} (hnext : history.adapter.Overwrites next) :
    ∃ old new, history.adapter.byOperationId next.operation.operationId = some old ∧
      (history.step fakeMessageAdapter next).adapter.byOperationId next.operation.operationId =
        some new ∧ old ≠ new := by
  obtain ⟨haccepts, old, hold, hkey⟩ := hnext
  obtain ⟨returned, hresult⟩ := FakeAdapter.accepts_iff.mp haccepts
  obtain ⟨-, houtcome⟩ := FakeAdapter.execute_cases .message (FakeAdapter.execute_of_call hresult)
  have hreturns := h.consistent.execute houtcome
  have hreturnedKey := hreturns.consistent.keyed _ _ hreturns.holds
  refine ⟨old, returned, hold, ?_, fun heq => hkey (heq ▸ hreturnedKey)⟩
  have hstep : (history.step fakeMessageAdapter next).adapter =
      (history.adapter.call fakeMessageAdapter next).2 := rfl
  rw [hstep, houtcome.byOperationId, Function.update_self]

/-- Message receipts are never replaced in exactly the runs without a call that overwrites. -/
theorem messageReceipts_stable_iff (calls : List ExecuteCall) :
    MessageReceiptsStable calls ↔
      ∀ before next after, calls = before ++ next :: after →
        ¬ (runCalls fakeMessageAdapter before).adapter.Overwrites next := by
  constructor
  · intro hstable before next after hcalls hnext
    obtain ⟨old, new, hold, hnew, hne⟩ :=
      (runCalls_faithful .message before).registered_replaced hnext
    rw [← runCalls_append_singleton] at hnew
    have hlater := hstable before [next] after (by rw [hcalls]; simp) next.operation.operationId old
      (FakeAdapter.lookup_eq_found_iff.mpr hold)
    rw [FakeAdapter.lookup_eq_found_iff, hnew] at hlater
    exact hne (Option.some.inj hlater).symm
  · intro hcalls before between after heq operationId receipt hfound
    rw [FakeAdapter.lookup_eq_found_iff] at hfound ⊢
    induction between using List.reverseRecOn generalizing after with
    | nil => rw [List.append_nil, hfound]
    | append_singleton between next ih =>
      have hsplit : calls = (before ++ between) ++ next :: after := by
        rw [heq]
        simp
      rw [← List.append_assoc, runCalls_append_singleton]
      exact (runCalls_faithful .message _).registered_kept (hcalls _ next after hsplit)
        (ih (next :: after) hsplit)

end

namespace Sample

/-- A capability for one action on one resource, for the first day of 1970. -/
def dayCapability (actionType : ActionType) : Capability :=
  ⟨js "cap-1", js "p1", actionType, js "order-1", js "hash-1", js "1970-01-02T00:00:00.000Z",
    js "nonce-1", .active⟩

/-- A ticket, and the same ticket under another operation id. -/
def ticketCalls : List ExecuteCall :=
  [⟨⟨js "op-1", js "key-1"⟩, dayCapability .createInternalTicket,
      .object [(js "title", .string (js "Late")), (js "priority", .string (js "low"))],
      ⟨0, js "tix_1", 0, []⟩⟩,
    ⟨⟨js "op-2", js "key-1"⟩, dayCapability .createInternalTicket,
      .object [(js "priority", .string (js "low")), (js "title", .string (js "Late"))],
      ⟨5, js "tix_2", 5, []⟩⟩]

/-- Node, with a digest that is injective and SHA-256 on the text of the ticket. -/
@[reducible] def ticketNode : Host :=
  pinnedNode [js "\x7b\"priority\":\"low\",\"title\":\"Late\"\x7d"]

/-- The fake is idempotent over them. -/
theorem ticketCalls_idempotent :
    @CallHistory.Idempotent ticketNode (@fakeTicketAdapter ticketNode)
      (@runCalls ticketNode (@fakeTicketAdapter ticketNode) ticketCalls) :=
  (@fakeAdapter_idempotent ticketNode (pinnedNode_injective (by decide +kernel) (by decide +kernel))
    _ (@IsFakeAdapter.ticket ticketNode) ticketCalls fun call hcall => by
      simp only [ticketCalls, List.mem_cons, List.not_mem_nil, or_false] at hcall
      obtain rfl | rfl := hcall <;> exact ⟨by decide, rfl⟩).1

/-- A message of one operation. -/
def message (key body receiptId : String) : ExecuteCall :=
  ⟨⟨js "op-1", js key⟩, dayCapability .sendCustomerMessage,
    .object [(js "customerId", .string (js "cus-1")), (js "body", .string (js body)),
      (js "channel", .string (js "email"))], ⟨0, js receiptId, 0, []⟩⟩

/-- What is registered under the operation after these messages. -/
def registered (calls : List ExecuteCall) : Option JsValue :=
  (@runCalls node (@fakeMessageAdapter node) calls).adapter.byOperationId (js "op-1")

/-- The id of a message receipt. -/
def messageId (receipt : JsValue) : Option JsString :=
  match receipt.getProp (js "messageId") with
  | some (.string text) => some text
  | _ => none

end Sample

/-- A second message under another key takes the place of the first. -/
theorem messageReceipt_replaced :
    ¬ @MessageReceiptsStable node
      [Sample.message "key-1" "Sorry" "msg_1", Sample.message "key-2" "Refunded" "msg_2"] := by
  intro hstable
  have hids : (Sample.registered [Sample.message "key-1" "Sorry" "msg_1"]).map Sample.messageId =
        some (some (js "msg_1")) ∧
      (Sample.registered [Sample.message "key-1" "Sorry" "msg_1",
        Sample.message "key-2" "Refunded" "msg_2"]).map Sample.messageId =
        some (some (js "msg_2")) := by
    decide +kernel
  obtain ⟨receipt, hreceipt, hfirst⟩ := Option.map_eq_some_iff.mp hids.1
  have hlater := hstable [Sample.message "key-1" "Sorry" "msg_1"]
    [Sample.message "key-2" "Refunded" "msg_2"] [] rfl (js "op-1") receipt
    (FakeAdapter.lookup_eq_found_iff.mpr hreceipt)
  have hregistered : Sample.registered [Sample.message "key-1" "Sorry" "msg_1",
      Sample.message "key-2" "Refunded" "msg_2"] = some receipt :=
    FakeAdapter.lookup_eq_found_iff.mp hlater
  have hboth := hids.2
  rw [hregistered, Option.map_some, hfirst] at hboth
  exact absurd (Option.some.inj hboth) (by decide)

end ActionHarbor
