import ActionHarbor.Spec.AdapterSteps

/-!
# One side effect for each key

The gateway lets two overlapping calls with one key reach the adapter. That they
still end in one side effect takes three parts together: the fake constructs at
most one receipt for a key, the receipt carries that key, and the verifier accepts
only a receipt with the key of the call.

## Key results

- `AdapterWorld.Genuine.held_of_vouched`: a vouched receipt is the one held under
  the key
- `AdapterWorld.one_receipt_per_key`: one receipt is constructed for a key, and all
  successes of the key carry it
-/

namespace ActionHarbor

section
variable [Host]

namespace AdapterWorld

/-- A call expects the key it is made under. -/
def ExpectsItsKey : AdapterEvent → Prop
  | .start input _ => input.postcondition.idempotencyKey = input.operation.idempotencyKey
  | _ => True

/-- The same of every call so far. -/
def KeysExpected (w : AdapterWorld) : Prop :=
  ∀ c session input, .started c session input ∈ w.world.trace →
    input.postcondition.idempotencyKey = input.operation.idempotencyKey

/-- A call is started by a step that starts it. -/
theorem KeysExpected.step {kind : FakeAdapterKind} {w w' : AdapterWorld} {e : AdapterEvent}
    (hexpected : w.KeysExpected) (he : ExpectsItsKey e) (h : StepCases kind w e w') :
    w'.KeysExpected := by
  intro c session input hstarted
  cases h with
  -- an input is either an old one or that of the event
  | recorded capability world hstep =>
    rcases (World.step_cases hstep).started_cases hstarted with hold | ⟨-, reads, heq⟩
    · exact hexpected c session input hold
    · cases heq
  | settledAtOnce input' reads world hstep =>
    rcases (World.step_cases hstep).started_cases hstarted with hold | ⟨-, reads', heq⟩
    · exact hexpected c session input hold
    · obtain ⟨-, rfl, -⟩ := Event.start.inj heq
      exact he
  | invoked input' reads world waiting hstep =>
    rw [invoke_world] at hstarted
    rcases (World.step_cases hstep).started_cases hstarted with hold | ⟨-, reads', heq⟩
    · exact hexpected c session input hold
    · obtain ⟨-, rfl, -⟩ := Event.start.inj heq
      exact he
  | executed => exact hexpected c session input hstarted
  | woke e c' wakeup stamp world hstep =>
    rcases (World.step_cases hstep).started_cases hstarted with hold | ⟨-, reads, heq⟩
    · exact hexpected c session input hold
    · cases heq

/-- The receipt some call with this key was handed and verified is the one the fake
    holds under the key. -/
theorem Genuine.held_of_vouched {w : AdapterWorld} (hgenuine : w.Genuine)
    (hexpected : w.KeysExpected) {key : JsString} {receipt : JsValue}
    (h : w.world.Vouched () key receipt) : w.adapter.inner.Holds key receipt := by
  obtain ⟨c, input, hstarted, rfl, hreturned, hverified⟩ := h
  obtain ⟨held, hholds⟩ := hgenuine.issued hreturned
  -- the receipt carries the key it is held under, and the key that was expected of it
  have hcarried := hgenuine.consistent.keyed held receipt hholds
  have hdemanded := (verifyPostcondition_iff.mp hverified).idempotencyKey
  rw [hexpected c () input hstarted, hcarried, Option.some.injEq, JsValue.string.injEq]
    at hdemanded
  exact hdemanded ▸ hholds

/-- At most one receipt was constructed for each key, each carries its key, and any two
    successes of a key carry the same one. -/
structure OneReceiptPerKey (w : AdapterWorld) : Prop where
  created : (w.adapter.inner.created.map Prod.fst).Nodup
  keyed : ∀ key receipt, (key, receipt) ∈ w.adapter.inner.created →
    receipt.getProp (js "idempotencyKey") = some (.string key)
  shared : ∀ c input receipt c' input' receipt', w.world.Succeeded () c input receipt →
    w.world.Succeeded () c' input' receipt' →
    input.operation.idempotencyKey = input'.operation.idempotencyKey →
    receipt = receipt' ∧ (input.operation.idempotencyKey, receipt) ∈ w.adapter.inner.created

/-- In every interleaving of calls, delayed executions and timeouts there is one side
    effect for each key. -/
theorem one_receipt_per_key {kind : FakeAdapterKind} (hkind : IsFakeAdapter kind)
    {w₀ w : AdapterWorld} {es : List AdapterEvent} (h₀ : w₀.Fresh)
    (hes : ∀ e ∈ es, ExpectsItsKey e)
    (hrun : Transition.run (AdapterWorld.step kind) w₀ es = some w) : w.OneReceiptPerKey := by
  have hmeets : Transition.Meets (AdapterWorld.step kind) (fun _ e => ExpectsItsKey e) w₀ es :=
    Transition.Meets.of_forall_step fun pre e post m heq _ => hes e (by simp [heq])
  have hfresh : w₀.Genuine ∧ w₀.KeysExpected := ⟨h₀.genuine, fun c session input hstarted => by
    rw [h₀.world.trace] at hstarted
    cases hstarted⟩
  obtain ⟨hgenuine, hexpected⟩ := Transition.run_invariant_of_meets
    (P := fun w : AdapterWorld => w.Genuine ∧ w.KeysExpected)
    (fun w e w' hw he hstep => by
      have hcases := step_cases hstep
      exact ⟨hw.1.step hkind hcases, hw.2.step he hcases⟩) hfresh hmeets hrun
  -- the gateway's part of the run gives every success a voucher
  obtain ⟨ds, hworld⟩ := run_world hrun
  obtain ⟨hbooked, hprovenance⟩ := World.Provenance.run h₀.world hworld
  have hheld : ∀ c input receipt, w.world.Succeeded () c input receipt →
      w.adapter.inner.Holds input.operation.idempotencyKey receipt := by
    rintro c input receipt ⟨hstarted, replay, operationId, reasonCode, events, hok⟩
    obtain ⟨session, input', hstarted', hvouched⟩ :=
      hprovenance.returned c receipt replay operationId reasonCode events hok
    obtain ⟨-, rfl⟩ := hbooked.started_unique c _ _ _ _ hstarted hstarted'
    exact hgenuine.held_of_vouched hexpected hvouched
  exact {
    created := hgenuine.consistent.nodup
    keyed := fun key receipt hmem =>
      hgenuine.consistent.keyed key receipt ((hgenuine.consistent.mem_created key receipt).mp hmem)
    shared := fun c input receipt c' input' receipt' hsuccess hsuccess' hkey =>
      have hholds := hheld c input receipt hsuccess
      ⟨hholds.unique (hkey ▸ hheld c' input' receipt' hsuccess'),
        (hgenuine.consistent.mem_created _ receipt).mpr hholds⟩ }

end AdapterWorld

end

/-! ## A run on Node -/

namespace Sample

section
attribute [local instance] node

/-- Two overlapping calls with one key over a slow ticket adapter: the first times out
    before its execution runs, the second is handed the ticket. -/
def overlappingTickets : List AdapterEvent :=
  let first := makeCapability makeRequest "cap_000001" "nonce_000001"
  let second := makeCapability makeRequest "cap_000002" "nonce_000002"
  [.record first, .record second,
    .start (makeInput first makeRequest "op_1" "key-1") (reads "evt_000001"),
    .start (makeInput second makeRequest "op_2" "key-1") (reads "evt_000002"),
    .timeout 0 (stamp "evt_000003"),
    .execute 0 ⟨now, js "tix_000001", now, []⟩,
    .execute 1 ⟨now, js "tix_000002", now, []⟩,
    .deliver 1 (stamp "evt_000004")]

/-- The state after both calls. -/
def ticketsAfter : AdapterWorld :=
  ((Transition.run (AdapterWorld.step fakeTicketAdapter) {} overlappingTickets).get
    (by decide +kernel))

theorem ticketsAfter_one_receipt : ticketsAfter.OneReceiptPerKey :=
  AdapterWorld.one_receipt_per_key .ticket ⟨⟨fun _ => rfl, fun _ => rfl, rfl⟩, rfl, fun _ => rfl⟩
    (by simp [overlappingTickets, AdapterWorld.ExpectsItsKey, makeInput,
      PostconditionExpectation.idempotencyKey])
    (Option.some_get _).symm

end

end Sample

end ActionHarbor
