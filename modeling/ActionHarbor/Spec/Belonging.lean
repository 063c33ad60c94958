import ActionHarbor.Spec.CompleteCalls

/-!
# A success belongs to the request that got it

The gateway knows an operation by its key and the hash of its parameters; resource,
action and postcondition are no part of either. A call that repeats key and
parameters is answered with the earlier receipt, whatever it asks for. So successes
belong to their requests exactly when whoever repeats a succeeded call asks for the
same thing.

## Key results

- `AdapterWorld.Accounted.step`: every success is recorded with its payload, and every
  recorded success was executed for a call it belongs to
- `AdapterWorld.success_belongs_iff`: when every success belongs to its request
-/

namespace ActionHarbor

section
variable [Host]

/-- The receipt names the resource of the request and fulfils the call's own
    postcondition. -/
structure Belongs (input : ExecuteActionInput) (receipt : JsValue) : Prop where
  resourceId : receipt.getProp (js "resourceId") = some (.string input.request.resourceId)
  verified : verifyPostcondition input.request.actionType receipt input.postcondition = true

/-- Two calls ask for the same resource, action and postcondition. -/
structure SameDemand (input input' : ExecuteActionInput) : Prop where
  resourceId : input.request.resourceId = input'.request.resourceId
  actionType : input.request.actionType = input'.request.actionType
  postcondition : input.postcondition = input'.postcondition

theorem Belongs.of_sameDemand {input input' : ExecuteActionInput} {receipt : JsValue}
    (h : Belongs input' receipt) (hsame : SameDemand input input') : Belongs input receipt where
  resourceId := by rw [h.resourceId, hsame.resourceId]
  verified := by rw [hsame.actionType, hsame.postcondition, h.verified]

/-- A receipt names one resource and fulfils one expectation. -/
theorem Belongs.sameDemand {input input' : ExecuteActionInput} {receipt : JsValue}
    (h : Belongs input receipt) (h' : Belongs input' receipt) : SameDemand input input' := by
  obtain ⟨htype, hexpected⟩ :=
    (verifyPostcondition_iff.mp h.verified).unique (verifyPostcondition_iff.mp h'.verified)
  have hresource := h.resourceId.symm.trans h'.resourceId
  rw [Option.some.injEq, JsValue.string.injEq] at hresource
  exact ⟨hresource, htype, hexpected⟩

namespace AdapterWorld

/-! ## Between calls -/

/-- What holds between calls that never overlap. -/
structure Accounted (w : AdapterWorld) : Prop where
  booked : w.world.Booked
  idle : ∀ c, w.world.pending c = none
  /-- a key the fake remembers has a record -/
  remembered : ∀ key, w.adapter.inner.byIdempotencyKey key ≠ none →
    w.world.recordOf () key ≠ none
  decided : ∀ key record, w.world.recordOf () key = some record → record.state ≠ .unknownOutcome
  /-- a recorded success was returned to a call it belongs to -/
  succeeded : ∀ key record, w.world.recordOf () key = some record → record.state = .succeeded →
    ∃ c input, w.world.Succeeded () c input record.receipt ∧
      input.operation.idempotencyKey = key ∧
      hashCanonical input.params = .ok record.payloadHash ∧ Belongs input record.receipt
  /-- a success is recorded with its payload -/
  returned : ∀ c input receipt, w.world.Succeeded () c input receipt →
    ∃ record, w.world.recordOf () input.operation.idempotencyKey = some record ∧
      record.state = .succeeded ∧ record.receipt = receipt ∧
      hashCanonical input.params = .ok record.payloadHash

theorem Fresh.accounted {w : AdapterWorld} (h : w.Fresh) : w.Accounted := by
  have hrecords : ∀ key, w.world.recordOf () key = none := fun key => by
    rw [World.recordOf, h.world.stores]
  exact {
    booked := h.world.booked
    idle := h.world.pending
    remembered := fun key hkey => absurd (by rw [h.inner]) hkey
    decided := fun key record hrecord => by rw [hrecords] at hrecord; cases hrecord
    succeeded := fun key record hrecord => by rw [hrecords] at hrecord; cases hrecord
    returned := fun c input receipt hsucceeded => by
      have hstarted := hsucceeded.1
      rw [h.world.trace] at hstarted
      cases hstarted }

theorem Accounted.quiescent {w : AdapterWorld} (h : w.Accounted) : w.Quiescent where
  idle := h.idle
  decided := h.decided
  received key record hrecord hstate := by
    obtain ⟨_, _, _, _, _, hbelongs⟩ := h.succeeded key record hrecord hstate
    exact isUndefined_of_verified hbelongs.verified

/-- The keys a fake remembers after an execution. -/
private theorem remembered_of_outcome {kind : FakeAdapterKind} {adapter inner : FakeAdapter}
    {operation : AdapterOperation} {capability : Capability} {params receipt : JsValue}
    (h : FakeAdapter.ExecuteOutcome kind adapter operation capability params inner receipt)
    {key : JsString} (hkey : inner.byIdempotencyKey key ≠ none) :
    adapter.byIdempotencyKey key ≠ none ∨ key = operation.idempotencyKey := by
  cases h with
  | reused existing hexisting => exact .inl hkey
  | constructed payloadHash _ hnew =>
    by_cases heq : key = operation.idempotencyKey
    · exact .inr heq
    · rw [FakeAdapter.registered_byIdempotencyKey, FakeAdapter.remembered_byIdempotencyKey,
        Function.update_of_ne heq] at hkey
      exact .inl hkey

/-- A call executed under a new key gets a receipt constructed for it. -/
private theorem belongs_of_executed {kind : FakeAdapterKind} {w : AdapterWorld}
    (haccounted : w.Accounted) {input : ExecuteActionInput} {now : Instant}
    {capability : Capability} {inner : FakeAdapter} {receipt : JsValue}
    (hguards : PassesGuards input now capability)
    (hnew : w.world.recordOf () input.operation.idempotencyKey = none)
    (hexecuted : FakeAdapter.ExecuteOutcome kind w.adapter.inner input.operation capability
      input.params inner receipt)
    (hverified : verifyPostcondition input.request.actionType receipt
      input.postcondition = true) : Belongs input receipt := by
  refine ⟨?_, hverified⟩
  obtain ⟨-, -, hresource, -⟩ := hguards.scope
  cases hexecuted with
  | reused existing hexisting =>
    -- the fake remembers no key without a record
    exact absurd hnew (haccounted.remembered _ (by simp [hexisting]))
  | constructed payloadHash _ _ _ hconstructed => rw [hconstructed.resourceId, hresource]

/-- What a success after a completed call is: an old one, the answer from the store, or
    freshly executed. -/
theorem Completed.succeeded_cases {kind : FakeAdapterKind} {w w' : AdapterWorld}
    {call : CompleteCall} {settled : Settled} (h : Completed kind w call w' settled)
    (haccounted : w.Accounted) {c : CallId} {input : ExecuteActionInput} {receipt : JsValue}
    (hsucceeded : w'.world.Succeeded () c input receipt) :
    w.world.Succeeded () c input receipt ∨ input = call.input ∧
      (Belongs call.input receipt ∨ ∃ capability prior,
        PassesGuards call.input call.reads.now capability ∧
        hashCanonical call.input.params = .ok prior.payloadHash ∧
        w.world.recordOf () call.input.operation.idempotencyKey = some prior ∧
        prior.state = .succeeded ∧ prior.receipt = receipt) := by
  rcases (h.succeeded_iff haccounted.booked).mp hsucceeded with hold | ⟨-, rfl, hok⟩
  · exact .inl hold
  refine .inr ⟨rfl, ?_⟩
  -- of the effects, only a replay and a fresh success return `ok`
  have heffect := h.effect
  generalize w'.world.stores () = store at heffect
  generalize w'.adapter.inner = inner at heffect
  cases heffect with
  | unchanged _ hnotOk => exact absurd hok (hnotOk receipt)
  | failed _ _ _ _ _ _ hnotOk => exact absurd hok (hnotOk receipt)
  | replayed capability prior entry hguards hhash hrecord hstate =>
    obtain ⟨_, _, _, _, heq⟩ := hok
    have hreceipt := (ExecuteActionResult.ok.inj (Settled.returned.inj heq)).1
    exact .inr ⟨capability, prior, hguards, hhash, hrecord, hstate, hreceipt⟩
  | succeeded capability record _ auditEvents hguards hhash hnew hexecuted hverified =>
    obtain ⟨_, _, _, _, heq⟩ := hok
    obtain rfl := (ExecuteActionResult.ok.inj (Settled.returned.inj heq)).1
    exact .inl (belongs_of_executed haccounted hguards hnew hexecuted hverified)

/-- A call that writes no record: its success, if any, is the recorded one. -/
private theorem Accounted.of_unchanged {w w' : AdapterWorld} (hw : w.Accounted)
    (hbooked : w'.world.Booked) (hidle : ∀ c, w'.world.pending c = none)
    (hstores : w'.world.stores () = w.world.stores ())
    (hinner : w'.adapter.inner = w.adapter.inner) (hextends : w.world.trace <+: w'.world.trace)
    (hreturned : ∀ c input receipt, w'.world.Succeeded () c input receipt →
      w.world.Succeeded () c input receipt ∨
      ∃ record, w.world.recordOf () input.operation.idempotencyKey = some record ∧
        record.state = .succeeded ∧ record.receipt = receipt ∧
        hashCanonical input.params = .ok record.payloadHash) : w'.Accounted := by
  have hrecordOf : ∀ key, w'.world.recordOf () key = w.world.recordOf () key := fun key => by
    rw [World.recordOf, hstores, World.recordOf]
  -- every field reads the store or the adapter, which are as before
  exact {
    booked := hbooked
    idle := hidle
    remembered := fun key hkey => by
      rw [hinner] at hkey
      rw [hrecordOf]
      exact hw.remembered key hkey
    decided := fun key record hrecord => by
      rw [hrecordOf] at hrecord
      exact hw.decided key record hrecord
    succeeded := fun key record hrecord hstate => by
      rw [hrecordOf] at hrecord
      obtain ⟨c, input, hsucceeded, hrest⟩ := hw.succeeded key record hrecord hstate
      exact ⟨c, input, hsucceeded.mono hextends, hrest⟩
    returned := fun c input receipt hsucceeded => by
      rw [hrecordOf]
      rcases hreturned c input receipt hsucceeded with hold | hnew
      · exact hw.returned c input receipt hold
      · exact hnew }

/-- A call that writes a decided record under a new key. -/
private theorem Accounted.of_record {w w' : AdapterWorld} (hw : w.Accounted)
    (hbooked : w'.world.Booked) (hidle : ∀ c, w'.world.pending c = none)
    {record : OperationRecord} (hstores : w'.world.stores () = (w.world.stores ()).record record)
    (hnew : w.world.recordOf () record.idempotencyKey = none)
    (hdecided : record.state ≠ .unknownOutcome)
    (hremembered : ∀ key, w'.adapter.inner.byIdempotencyKey key ≠ none →
      w.adapter.inner.byIdempotencyKey key ≠ none ∨ key = record.idempotencyKey)
    (hextends : w.world.trace <+: w'.world.trace)
    (hsucceeded : record.state = .succeeded → ∃ c input,
      w'.world.Succeeded () c input record.receipt ∧
      input.operation.idempotencyKey = record.idempotencyKey ∧
      hashCanonical input.params = .ok record.payloadHash ∧ Belongs input record.receipt)
    (hreturned : ∀ c input receipt, w'.world.Succeeded () c input receipt →
      w.world.Succeeded () c input receipt ∨
      (input.operation.idempotencyKey = record.idempotencyKey ∧ record.state = .succeeded ∧
        record.receipt = receipt ∧ hashCanonical input.params = .ok record.payloadHash)) :
    w'.Accounted := by
  have hself : w'.world.recordOf () record.idempotencyKey = some record := by
    simp [World.recordOf, hstores, OperationStore.record]
  have hother : ∀ key, key ≠ record.idempotencyKey →
      w'.world.recordOf () key = w.world.recordOf () key := fun key hkey => by
    simp [World.recordOf, hstores, OperationStore.record, Function.update_of_ne hkey]
  exact {
    -- every field at the key of the record, and at any other
    booked := hbooked
    idle := hidle
    remembered := fun key hkey => by
      by_cases heq : key = record.idempotencyKey
      · rw [heq, hself]
        simp
      · rw [hother key heq]
        exact hw.remembered key ((hremembered key hkey).resolve_right heq)
    decided := fun key found hfound => by
      by_cases heq : key = record.idempotencyKey
      · rw [heq, hself, Option.some.injEq] at hfound
        exact hfound ▸ hdecided
      · rw [hother key heq] at hfound
        exact hw.decided key found hfound
    succeeded := fun key found hfound hstate => by
      by_cases heq : key = record.idempotencyKey
      · rw [heq, hself, Option.some.injEq] at hfound
        subst hfound
        rw [heq]
        exact hsucceeded hstate
      · rw [hother key heq] at hfound
        obtain ⟨c, input, hold, hrest⟩ := hw.succeeded key found hfound hstate
        exact ⟨c, input, hold.mono hextends, hrest⟩
    returned := fun c input receipt hnewSuccess => by
      rcases hreturned c input receipt hnewSuccess with hold | ⟨hkey, hrest⟩
      · obtain ⟨found, hfound, hrest⟩ := hw.returned c input receipt hold
        have hne : input.operation.idempotencyKey ≠ record.idempotencyKey := fun heq => by
          rw [heq, hnew] at hfound
          cases hfound
        exact ⟨found, (hother _ hne).trans hfound, hrest⟩
      · exact ⟨record, by rw [hkey, hself], hrest⟩ }

/-- The bookkeeping between calls is kept by every call. -/
theorem Accounted.complete {kind : FakeAdapterKind} {w w' : AdapterWorld} (hw : w.Accounted)
    {call : CompleteCall} {settled : Settled} (hrun : w.complete kind call = some w')
    (h : Completed kind w call w' settled) : w'.Accounted := by
  obtain ⟨es, hes⟩ := complete_run hrun
  obtain ⟨ds, hds⟩ := run_world hes
  have hextends := World.trace_extends_run hds
  have hbooked := World.Booked.run hw.booked hds
  have hresults : ∀ c input receipt, w'.world.Succeeded () c input receipt ↔
      w.world.Succeeded () c input receipt ∨
        (c = w.world.nextCall ∧ input = call.input ∧ settled.IsOk receipt) :=
    fun _ _ _ => h.succeeded_iff hw.booked
  have heffect := h.effect
  generalize hstores : w'.world.stores () = store at heffect
  generalize hinner : w'.adapter.inner = inner at heffect
  cases heffect with
  | unchanged _ hnotOk =>
    refine hw.of_unchanged hbooked h.idle hstores hinner hextends fun c input receipt hs => ?_
    exact ((hresults c input receipt).mp hs).imp_right fun hok => absurd hok.2.2 (hnotOk receipt)
  | replayed capability prior entry hguards hhash hrecord hstate =>
    -- the receipt is the one on record, and the record is accounted for
    refine hw.of_unchanged hbooked h.idle hstores hinner hextends fun c input receipt hs => ?_
    refine ((hresults c input receipt).mp hs).imp_right ?_
    rintro ⟨-, rfl, _, _, _, _, heq⟩
    have hreceipt := (ExecuteActionResult.ok.inj (Settled.returned.inj heq)).1
    exact ⟨prior, hrecord, hstate, hreceipt, hhash⟩
  | succeeded capability record _ auditEvents hguards hhash hnew hexecuted hverified hkey hstate =>
    -- the one case with a new success: its own
    have hself : w'.world.Succeeded () w.world.nextCall call.input record.receipt :=
      (hresults _ _ _).mpr (.inr ⟨rfl, rfl, _, _, _, _, rfl⟩)
    refine hw.of_record hbooked h.idle hstores (hkey ▸ hnew) (by simp [hstate]) ?_ hextends ?_ ?_
    · intro key hremembered
      rw [hinner] at hremembered
      rw [hkey]
      exact remembered_of_outcome hexecuted hremembered
    · exact fun _ => ⟨_, call.input, hself, hkey.symm, hhash,
        belongs_of_executed hw hguards hnew hexecuted hverified⟩
    · intro c input receipt hs
      refine ((hresults c input receipt).mp hs).imp_right ?_
      rintro ⟨-, rfl, _, _, _, _, heq⟩
      have hreceipt := (ExecuteActionResult.ok.inj (Settled.returned.inj heq)).1
      exact ⟨hkey.symm, hstate, hreceipt, hhash⟩
  | failed capability _ record _ hnew hanswered hnotOk hkey hstate =>
    refine hw.of_record hbooked h.idle hstores (hkey ▸ hnew) (by simp [hstate]) ?_ hextends ?_ ?_
    · intro key hremembered
      rw [hinner] at hremembered
      rw [hkey]
      rcases hanswered with rfl | ⟨receipt, hexecuted⟩
      · exact .inl hremembered
      · exact remembered_of_outcome hexecuted hremembered
    · intro hsucceeded
      cases hstate.symm.trans hsucceeded
    · intro c input receipt hs
      exact ((hresults c input receipt).mp hs).imp_right fun hok => absurd hok.2.2 (hnotOk receipt)

/-- The bookkeeping is kept by every step, calls and capabilities recorded in between. -/
theorem Accounted.step {kind : FakeAdapterKind} (hkind : IsFakeAdapter kind)
    {w w' : AdapterWorld} {e : SequentialEvent} (hw : w.Accounted)
    (hstep : w.stepSequential kind e = some w') : w'.Accounted := by
  cases e with
  | record capability =>
    obtain rfl := Option.some.inj hstep
    have hbooked : World.Booked { w.world with
        registry := w.world.registry.record capability
        trace := w.world.trace ++ [.recorded capability] } :=
      hw.booked.step (.recorded capability)
    refine hw.of_unchanged hbooked hw.idle rfl rfl (List.prefix_append _ _) ?_
    rintro c input receipt ⟨hstarted, replay, operationId, reasonCode, auditEvents, hok⟩
    exact .inl ⟨by simpa using hstarted, replay, operationId, reasonCode, auditEvents,
      by simpa using hok⟩
  | call call =>
    obtain ⟨w'', settled, hcomplete, hcompleted⟩ := complete_spec hkind hw.quiescent call
    obtain rfl := Option.some.inj (hcomplete.symm.trans hstep)
    exact hw.complete hcomplete hcompleted

/-! ## When successes belong to their requests -/

/-- Every call that returned `ok` got a receipt that belongs to it. -/
def SuccessesBelong (w : AdapterWorld) : Prop :=
  ∀ c input receipt, w.world.Succeeded () c input receipt → Belongs input receipt

/-- Whoever repeats the key and the parameters of a succeeded call asks for the same
    thing. -/
def RepeatsFaithfully (w : AdapterWorld) : SequentialEvent → Prop
  | .record _ => True
  | .call call => ∀ capability payloadHash c input receipt,
      PassesGuards call.input call.reads.now capability →
      hashCanonical call.input.params = .ok payloadHash →
      w.world.Succeeded () c input receipt →
      input.operation.idempotencyKey = call.input.operation.idempotencyKey →
      hashCanonical input.params = .ok payloadHash → SameDemand call.input input

/-- A step of calls that never overlap is a run of the interleaving. -/
theorem stepSequential_extends {kind : FakeAdapterKind} {w w' : AdapterWorld}
    {e : SequentialEvent} (h : w.stepSequential kind e = some w') :
    w.world.trace <+: w'.world.trace := by
  cases e with
  | record capability =>
    obtain rfl := Option.some.inj h
    exact List.prefix_append _ _
  | call call =>
    obtain ⟨es, hes⟩ := complete_run h
    obtain ⟨ds, hds⟩ := run_world hes
    exact World.trace_extends_run hds

/-- A faithful repetition keeps every success with its request. -/
private theorem belongs_step {kind : FakeAdapterKind} (hkind : IsFakeAdapter kind)
    {w w' : AdapterWorld} {e : SequentialEvent} (hw : w.Accounted)
    (hbelongs : w.SuccessesBelong) (hfaithful : w.RepeatsFaithfully e)
    (hstep : w.stepSequential kind e = some w') : w'.SuccessesBelong := by
  intro c input receipt hsucceeded
  cases e with
  | record capability =>
    obtain rfl := Option.some.inj hstep
    obtain ⟨hstarted, replay, operationId, reasonCode, auditEvents, hok⟩ := hsucceeded
    exact hbelongs c input receipt ⟨by simpa using hstarted, replay, operationId, reasonCode,
      auditEvents, by simpa using hok⟩
  | call call =>
    obtain ⟨w'', settled, hcomplete, hcompleted⟩ := complete_spec hkind hw.quiescent call
    obtain rfl := Option.some.inj (hcomplete.symm.trans hstep)
    rcases hcompleted.succeeded_cases hw hsucceeded with hold | ⟨rfl, hfresh | hreplayed⟩
    · exact hbelongs c input receipt hold
    · exact hfresh
    -- a replay returns the receipt of the call that succeeded first
    · obtain ⟨capability, prior, hguards, hhash, hrecord, hstate, rfl⟩ := hreplayed
      obtain ⟨c₀, input₀, hsucceeded₀, hkey₀, hhash₀, hbelongs₀⟩ :=
        hw.succeeded _ prior hrecord hstate
      exact hbelongs₀.of_sameDemand
        (hfaithful capability _ c₀ input₀ _ hguards hhash hsucceeded₀ hkey₀ hhash₀)

/-- Over a fake adapter and from an empty store, every success of calls run one after
    another belongs to its request exactly when every repetition of a succeeded call's
    key and parameters asks for the same thing. -/
theorem success_belongs_iff {kind : FakeAdapterKind} (hkind : IsFakeAdapter kind)
    {w₀ w : AdapterWorld} {es : List SequentialEvent} (h₀ : w₀.Fresh)
    (hrun : Transition.run (stepSequential kind) w₀ es = some w) :
    w.SuccessesBelong ↔ Transition.Meets (stepSequential kind) RepeatsFaithfully w₀ es := by
  constructor
  · intro hbelongs
    refine Transition.Meets.of_forall_step fun pre e post m heq hpre => ?_
    subst heq
    obtain ⟨m', hpre', hrest⟩ := Transition.run_append_eq_some.mp hrun
    obtain rfl := Option.some.inj (hpre.symm.trans hpre')
    obtain ⟨m₁, hstep, hpost⟩ := Transition.run_cons_eq_some.mp hrest
    have hm : m.Accounted := Transition.run_invariant (P := Accounted)
      (fun _ _ _ hw hstep => hw.step hkind hstep) h₀.accounted hpre
    have hafter : m₁.world.trace <+: w.world.trace :=
      Transition.run_rel (R := fun w w' : AdapterWorld => w.world.trace <+: w'.world.trace)
        (fun _ => List.prefix_refl _) (fun _ _ _ => List.IsPrefix.trans)
        (fun _ _ _ hstep => stepSequential_extends hstep) hpost
    cases e with
    | record => trivial
    | call call =>
      intro capability payloadHash c input receipt hguards hhash hsucceeded hkey hhash'
      -- the earlier success is recorded, so the call is answered with its receipt
      obtain ⟨record, hrecord, hstate, rfl, hpayload⟩ := hm.returned c input receipt hsucceeded
      obtain rfl := Except.ok.inj (hpayload.symm.trans hhash')
      obtain ⟨m₂, hcomplete, hreplayed⟩ :=
        complete_replays hm.quiescent hguards hhash (hkey ▸ hrecord) hstate
      obtain rfl := Option.some.inj (hcomplete.symm.trans hstep)
      have hextends := stepSequential_extends hstep
      exact (hbelongs _ _ _ (hreplayed.mono hafter)).sameDemand
        (hbelongs _ _ _ (hsucceeded.mono (hextends.trans hafter)))
  · intro hmeets
    refine (Transition.run_invariant_of_meets
      (P := fun w : AdapterWorld => w.Accounted ∧ w.SuccessesBelong)
      (fun w e w' hw hfaithful hstep => ?_) ⟨h₀.accounted, ?_⟩ hmeets hrun).2
    · exact ⟨hw.1.step hkind hstep, belongs_step hkind hw.1 hw.2 hfaithful hstep⟩
    · intro c input receipt hsucceeded
      have hstarted := hsucceeded.1
      rw [h₀.world.trace] at hstarted
      cases hstarted

end AdapterWorld

end

/-! ## Runs on Node -/

namespace Sample

section
attribute [local instance] node
open AdapterWorld

/-- A ticket call run to completion. -/
def ticketCall (capability : Capability) (request : CapabilityRequest) (operationId : String) :
    CompleteCall where
  input := makeInput capability request operationId "key-1"
  reads := reads "evt_000001"
  draw := ⟨now, js "tix_000001", now, []⟩
  stamp := stamp "evt_000002"

/-- A capability minted for one incident is recorded and used. -/
def firstTicket : List SequentialEvent :=
  let first := makeCapability makeRequest "cap_000001" "nonce_000001"
  [.record first, .call (ticketCall first makeRequest "op_1")]

/-- The state after the call. -/
def ticketed : AdapterWorld :=
  (Transition.run (stepSequential fakeTicketAdapter) {} firstTicket).get (by decide +kernel)

theorem run_firstTicket :
    Transition.run (stepSequential fakeTicketAdapter) {} firstTicket = some ticketed :=
  (Option.some_get _).symm

/-- The ticket belongs to the call that got it. -/
theorem ticketed_belongs : ticketed.SuccessesBelong := by
  refine (success_belongs_iff .ticket ⟨⟨fun _ => rfl, fun _ => rfl, rfl⟩, rfl, fun _ => rfl⟩
    run_firstTicket).mpr ⟨trivial, fun w hw => ⟨?_, fun _ _ => trivial⟩⟩
  -- no call has succeeded before the first
  obtain rfl := Option.some.inj hw
  intro capability payloadHash c input receipt hguards hhash hsucceeded
  simpa using hsucceeded.1

/-- A request for another incident. -/
def otherRequest : CapabilityRequest := { makeRequest with resourceId := js "incident-2" }

/-- The capability minted for it. -/
def otherCapability : Capability := makeCapability otherRequest "cap_000002" "nonce_000002"

example : (mintCapability (.policyAllow allow) otherRequest
      ⟨js "cap_000002", js "nonce_000002", now⟩ 300000).toOption = some otherCapability := by
  decide +kernel

/-- The other incident's call reuses the key and the parameters. -/
def otherCall : CompleteCall := ticketCall otherCapability otherRequest "op_2"

/-- The state in which that capability is recorded too. -/
def otherRecorded : AdapterWorld :=
  (ticketed.stepSequential fakeTicketAdapter (.record otherCapability)).get rfl

/-- A call for the second incident, under the key of the first one's call, is answered
    with the first incident's ticket. -/
theorem otherCall_answered_with_first : ∃ w c receipt,
    Transition.run (stepSequential fakeTicketAdapter) {}
      (firstTicket ++ [.record otherCapability, .call otherCall]) = some w ∧
    w.world.Succeeded () c otherCall.input receipt ∧
    receipt.getProp (js "resourceId") ≠ some (.string otherCall.input.request.resourceId) := by
  have haccounted : otherRecorded.Accounted :=
    Transition.run_invariant (fun _ _ _ hw hstep => hw.step .ticket hstep)
      (Fresh.accounted ⟨⟨fun _ => rfl, fun _ => rfl, rfl⟩, rfl, fun _ => rfl⟩)
      (Transition.run_concat_eq_some.mpr ⟨ticketed, run_firstTicket, (Option.some_get _).symm⟩)
  set prior : OperationRecord :=
    (otherRecorded.world.recordOf () (js "key-1")).get (by decide +kernel) with hprior
  have hrecord : otherRecorded.world.recordOf () otherCall.input.operation.idempotencyKey =
      some prior := (Option.some_get _).symm
  have hguards : PassesGuards otherCall.input otherCall.reads.now otherCapability := by
    constructor <;> rfl
  obtain ⟨w, hcomplete, hsucceeded⟩ :
      ∃ w, otherRecorded.complete fakeTicketAdapter otherCall = some w ∧
        w.world.Succeeded () otherRecorded.world.nextCall otherCall.input prior.receipt :=
    complete_replays haccounted.quiescent hguards (by decide +kernel) hrecord (by decide +kernel)
  refine ⟨w, _, prior.receipt, ?_, hsucceeded, ?_⟩
  · rw [Transition.run_append_eq_some]
    refine ⟨ticketed, run_firstTicket, ?_⟩
    exact Transition.run_cons_eq_some.mpr ⟨otherRecorded, (Option.some_get _).symm,
      Transition.run_cons_eq_some.mpr ⟨w, hcomplete, rfl⟩⟩
  · have hfirst : (prior.receipt.getProp (js "resourceId")).any (·.isString (js "incident-1")) :=
      by decide +kernel
    intro heq
    rw [heq] at hfirst
    exact absurd hfirst (by decide +kernel)

end

end Sample

end ActionHarbor
