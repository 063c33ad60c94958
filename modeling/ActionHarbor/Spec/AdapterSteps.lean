import ActionHarbor.Spec.FakeAdapters
import ActionHarbor.Spec.Provenance

/-!
# Steps of the interleaving with a fake adapter

The inversion lemma of `AdapterWorld.step`, the simulation that forgets the
adapter, and the invariant of the adapter's tables and promises: whatever a call
was ever handed is a receipt the fake holds under some key.

## Key results

- `AdapterWorld.step_cases`: every step is one of five kinds
- `AdapterWorld.run_world`: forgetting the adapter leaves a run of `World`
- `AdapterWorld.Genuine.step`: the adapter invariant is kept
- `AdapterWorld.Genuine.issued`: what the adapter returned is held under some key
-/

namespace ActionHarbor

section
variable [Host]

namespace AdapterWorld

/-! ## Inversion -/

/-- The wakeup a step delivers to a call: the adapter's, the timer's or the refusal. -/
inductive Delivers (w : AdapterWorld) (c : CallId) : Wakeup → Prop
  | promised (promise : AdapterPromise) (wakeup : Wakeup) (hpromise : w.promises c = some promise)
      (hwakeup : promise.wakeup = some wakeup) : Delivers w c wakeup
  | timerFired : Delivers w c .timerFired
  | refusalDelivered : Delivers w c .refusalDelivered

/-- The five kinds of step. -/
inductive StepCases (kind : FakeAdapterKind) (w : AdapterWorld) : AdapterEvent → AdapterWorld → Prop
  | recorded (capability : Capability) (world : World Unit)
      (hstep : w.world.step (.record capability) = some world) :
      StepCases kind w (.record capability) { w with world := world }
  | settledAtOnce (input : ExecuteActionInput) (reads : CallReads) (world : World Unit)
      (hstep : w.world.step (.start () input reads) = some world)
      (hpending : world.pending w.world.nextCall = none) :
      StepCases kind w (.start input reads) { w with world := world }
  | invoked (input : ExecuteActionInput) (reads : CallReads) (world : World Unit)
      (waiting : Waiting) (hstep : w.world.step (.start () input reads) = some world)
      (hpending : world.pending w.world.nextCall = some ((), waiting)) :
      StepCases kind w (.start input reads)
        ({ w with world := world }.invoke w.world.nextCall waiting)
  | executed (c : CallId) (draw : AdapterDraw) (operation : AdapterOperation)
      (capability : Capability) (params : JsValue)
      (hpromise : w.promises c = some (.sleeping operation capability params)) :
      StepCases kind w (.execute c draw)
        { w with
          adapter := (w.adapter.execute kind operation capability params draw).1
          promises := Function.update w.promises c
            (some (.executed (w.adapter.execute kind operation capability params draw).2)) }
  | woke (e : AdapterEvent) (c : CallId) (wakeup : Wakeup) (stamp : Stamp) (world : World Unit)
      (hstep : w.world.step (.wake c wakeup stamp) = some world)
      (hdelivers : w.Delivers c wakeup) :
      StepCases kind w e { w with world := world }

/-- Continuing a call with a wakeup the step delivers. -/
private theorem wake_cases {kind : FakeAdapterKind} {w w' : AdapterWorld} {e : AdapterEvent}
    {c : CallId} {wakeup : Wakeup} {stamp : Stamp} (hdelivers : w.Delivers c wakeup)
    (h : w.wake c wakeup stamp = some w') : StepCases kind w e w' := by
  obtain ⟨world, hstep, rfl⟩ := Option.map_eq_some_iff.mp h
  exact .woke e c wakeup stamp world hstep hdelivers

/-- Every step is one of the five kinds. -/
theorem step_cases {kind : FakeAdapterKind} {w w' : AdapterWorld} {e : AdapterEvent}
    (h : w.step kind e = some w') : StepCases kind w e w' := by
  cases e with
  | record capability =>
    rw [step, Option.map_eq_some_iff] at h
    obtain ⟨world, hstep, rfl⟩ := h
    exact .recorded capability world hstep
  | start input reads =>
    simp only [step, start, Option.bind_eq_bind, Option.bind_eq_some_iff] at h
    obtain ⟨world, hstep, h⟩ := h
    split at h
    -- a call that is not pending afterwards has settled in its first step
    · rename_i hpending
      obtain rfl := Option.some.inj h
      exact .settledAtOnce input reads world hstep hpending
    · rename_i session waiting hpending
      obtain rfl := Option.some.inj h
      exact .invoked input reads world waiting hstep hpending
  | execute c draw =>
    simp only [step, execute] at h
    split at h
    · rename_i operation capability params hpromise
      obtain rfl := Option.some.inj h
      exact .executed c draw operation capability params hpromise
    · cases h
  | deliver c stamp =>
    obtain ⟨promise, hpromise, h⟩ := Option.bind_eq_some_iff.mp h
    obtain ⟨wakeup, hwakeup, h⟩ := Option.bind_eq_some_iff.mp h
    exact wake_cases (.promised promise wakeup hpromise hwakeup) h
  | timeout c stamp => exact wake_cases .timerFired h
  | refuse c stamp => exact wake_cases .refusalDelivered h

/-! ## Forgetting the adapter -/

omit [Host] in
@[simp] theorem invoke_world (w : AdapterWorld) (c : CallId) (waiting : Waiting) :
    (w.invoke c waiting).world = w.world := by
  cases waiting <;> rfl

omit [Host] in
@[simp] theorem invoke_inner (w : AdapterWorld) (c : CallId) (waiting : Waiting) :
    (w.invoke c waiting).adapter.inner = w.adapter.inner := by
  cases waiting <;> rfl

/-- Without its adapter a step is a step of the gateway's calls, or none at all. -/
theorem StepCases.world_run {kind : FakeAdapterKind} {w w' : AdapterWorld} {e : AdapterEvent}
    (h : StepCases kind w e w') :
    ∃ es, Transition.run World.step w.world es = some w'.world := by
  have hone : ∀ {e : Event Unit} {world : World Unit}, w.world.step e = some world →
      ∃ es, Transition.run World.step w.world es = some world := fun hstep =>
    ⟨[_], Transition.run_cons_eq_some.mpr ⟨_, hstep, rfl⟩⟩
  cases h with
  | recorded _ world hstep | settledAtOnce _ _ world hstep => exact hone hstep
  | woke _ _ _ _ world hstep => exact hone hstep
  | invoked _ _ world waiting hstep =>
    rw [invoke_world]
    exact hone hstep
  | executed => exact ⟨[], rfl⟩

/-- Forgetting the adapter leaves a run of the gateway's calls. -/
theorem run_world {kind : FakeAdapterKind} {w₀ w : AdapterWorld} {es : List AdapterEvent}
    (hrun : Transition.run (step kind) w₀ es = some w) :
    ∃ ds, Transition.run World.step w₀.world ds = some w.world := by
  have hsimulates : ∀ (w : AdapterWorld) (e : AdapterEvent) (w' : AdapterWorld)
      (world : World Unit), w.world = world → w.step kind e = some w' →
      ∃ ds world', Transition.run World.step world ds = some world' ∧ w'.world = world' := by
    rintro w e w' _ rfl hstep
    obtain ⟨ds, hds⟩ := (step_cases hstep).world_run
    exact ⟨ds, w'.world, hds, rfl⟩
  obtain ⟨ds, world, hrun', rfl⟩ := Transition.run_simulation hsimulates rfl hrun
  exact ⟨ds, hrun'⟩

/-! ## The adapter invariant -/

/-- The fake holds the receipt under some key. -/
def Issued (adapter : FakeAdapter) (receipt : JsValue) : Prop :=
  ∃ key, adapter.Holds key receipt

/-- What the fake may have handed to a call. -/
inductive Handed (adapter : FakeAdapter) : Wakeup → Prop
  | receipt (receipt : JsValue) (hissued : Issued adapter receipt) :
      Handed adapter (.executeResolved receipt)
  | error (error : AdapterError) : Handed adapter (.executeRejected error)
  | found (receipt : JsValue) (hissued : Issued adapter receipt) :
      Handed adapter (.lookupSettled (.resolved
        (.object [(js "status", .string (js "found")), (js "receipt", receipt)])))
  | unknown :
      Handed adapter (.lookupSettled (.resolved (.object [(js "status", .string (js "unknown"))])))
  | timerFired : Handed adapter .timerFired
  | refusalDelivered : Handed adapter .refusalDelivered

omit [Host] in
/-- What was handed over stays genuine while the fake keeps what it holds. -/
theorem Handed.mono {adapter adapter' : FakeAdapter} {wakeup : Wakeup} (h : Handed adapter wakeup)
    (hkept : ∀ key receipt, adapter.Holds key receipt → adapter'.Holds key receipt) :
    Handed adapter' wakeup := by
  cases h with
  | receipt receipt hissued =>
    obtain ⟨key, hholds⟩ := hissued
    exact .receipt receipt ⟨key, hkept key receipt hholds⟩
  | found receipt hissued =>
    obtain ⟨key, hholds⟩ := hissued
    exact .found receipt ⟨key, hkept key receipt hholds⟩
  | error error => exact .error error
  | unknown => exact .unknown
  | timerFired => exact .timerFired
  | refusalDelivered => exact .refusalDelivered

omit [Host] in
/-- A lookup answers from the tables. -/
theorem handed_lookup {adapter : FakeAdapter} (hconsistent : adapter.Consistent)
    (operationId : JsString) :
    Handed adapter (.lookupSettled (.resolved (adapter.lookup operationId))) := by
  rw [FakeAdapter.lookup]
  cases hfound : adapter.byOperationId operationId with
  | none => exact .unknown
  | some receipt => exact .found receipt (hconsistent.operations operationId receipt hfound)

/-- Every settled promise has something the fake may hand over in store. -/
def Promised (adapter : FakeAdapter) (promises : CallId → Option AdapterPromise) : Prop :=
  ∀ c promise wakeup, promises c = some promise → promise.wakeup = some wakeup →
    Handed adapter wakeup

omit [Host] in
/-- One more promise. -/
theorem Promised.update {adapter : FakeAdapter} {promises : CallId → Option AdapterPromise}
    (h : Promised adapter promises) (c : CallId) {new : AdapterPromise}
    (hnew : ∀ wakeup, new.wakeup = some wakeup → Handed adapter wakeup) :
    Promised adapter (Function.update promises c (some new)) := by
  intro c' promise wakeup hpromise hwakeup
  by_cases hc : c' = c
  · subst hc
    rw [Function.update_self, Option.some.injEq] at hpromise
    exact hnew wakeup (hpromise ▸ hwakeup)
  · rw [Function.update_of_ne hc] at hpromise
    exact h c' promise wakeup hpromise hwakeup

/-- The tables are consistent, and every promise and every wakeup so far hands over
    receipts the fake holds. -/
structure Genuine (w : AdapterWorld) : Prop where
  consistent : w.adapter.inner.Consistent
  promised : Promised w.adapter.inner w.promises
  woken : ∀ c wakeup, .woke c wakeup ∈ w.world.trace → Handed w.adapter.inner wakeup

/-- Nothing has happened yet; the registry and the ledger may hold anything. -/
structure Fresh (w : AdapterWorld) : Prop where
  world : w.world.Fresh
  inner : w.adapter.inner = {}
  promises : ∀ c, w.promises c = none

omit [Host] in
theorem Fresh.genuine {w : AdapterWorld} (h : w.Fresh) : w.Genuine where
  consistent := h.inner ▸ FakeAdapter.consistent_empty
  promised c promise wakeup hpromise := by
    rw [h.promises] at hpromise
    cases hpromise
  woken c wakeup hwoke := by
    rw [h.world.trace] at hwoke
    cases hwoke

/-- A step of the gateway's calls that delivers no wakeup of its own. -/
private theorem Genuine.woken_of_step {w : AdapterWorld} (hgenuine : w.Genuine) {e : Event Unit}
    {world : World Unit} (hstep : w.world.step e = some world)
    (hhanded : ∀ c wakeup stamp, e = .wake c wakeup stamp → Handed w.adapter.inner wakeup)
    {c : CallId} {wakeup : Wakeup} (hwoke : .woke c wakeup ∈ world.trace) :
    Handed w.adapter.inner wakeup := by
  rcases (World.step_cases hstep).woke_cases hwoke with hold | ⟨stamp, heq⟩
  · exact hgenuine.woken c wakeup hold
  · exact hhanded c wakeup stamp heq

omit [Host] in
/-- What a call's wait adds to the promises is genuine. -/
private theorem Genuine.invoke {w : AdapterWorld} (hgenuine : w.Genuine) (c : CallId)
    (waiting : Waiting) : (w.invoke c waiting).Genuine where
  consistent := by
    rw [invoke_inner]
    exact hgenuine.consistent
  promised := by
    cases waiting with
    | refused => exact hgenuine.promised
    | executing call => exact hgenuine.promised.update c fun _ h => by cases h
    | lookingUp call =>
      refine hgenuine.promised.update c fun wakeup h => ?_
      obtain rfl := Option.some.inj h
      exact handed_lookup hgenuine.consistent call.prior.operationId
  woken c' wakeup hwoke := by
    rw [invoke_inner]
    rw [invoke_world] at hwoke
    exact hgenuine.woken c' wakeup hwoke

/-- The invariant is kept by every step. -/
theorem Genuine.step {kind : FakeAdapterKind} (hkind : IsFakeAdapter kind) {w w' : AdapterWorld}
    {e : AdapterEvent} (hgenuine : w.Genuine) (h : StepCases kind w e w') : w'.Genuine := by
  cases h with
  | recorded capability world hstep =>
    exact { hgenuine with
      woken := fun c wakeup => hgenuine.woken_of_step hstep (fun _ _ _ heq => by cases heq) }
  | settledAtOnce input reads world hstep hpending =>
    exact { hgenuine with
      woken := fun c wakeup => hgenuine.woken_of_step hstep (fun _ _ _ heq => by cases heq) }
  | invoked input reads world waiting hstep hpending =>
    have hworld : AdapterWorld.Genuine { w with world := world } :=
      { hgenuine with
        woken := fun c wakeup => hgenuine.woken_of_step hstep (fun _ _ _ heq => by cases heq) }
    exact hworld.invoke w.world.nextCall waiting
  | woke e c wakeup stamp world hstep hdelivers =>
    -- what is delivered is what the promise was resolved with
    have hhanded : Handed w.adapter.inner wakeup := by
      cases hdelivers with
      | promised promise wakeup hpromise hwakeup =>
        exact hgenuine.promised c promise wakeup hpromise hwakeup
      | timerFired => exact .timerFired
      | refusalDelivered => exact .refusalDelivered
    exact { hgenuine with
      woken := fun c' wakeup' => hgenuine.woken_of_step hstep (fun _ _ _ heq => by
        obtain ⟨rfl, rfl, rfl⟩ := Event.wake.inj heq
        exact hhanded) }
  | executed c draw operation capability params hpromise =>
    rcases w.adapter.execute_cases hkind operation capability params draw with
      ⟨error, hresult⟩ | ⟨inner, receipt, hresult, -, houtcome⟩
    · rw [hresult]
      refine ⟨hgenuine.consistent, hgenuine.promised.update c fun wakeup h => ?_, hgenuine.woken⟩
      obtain rfl := Option.some.inj h
      exact .error error
    · have hreturns := hgenuine.consistent.execute houtcome
      -- what was handed out before is still held
      have hpromised : Promised inner w.promises := fun c' promise wakeup hpromise' hwakeup =>
        (hgenuine.promised c' promise wakeup hpromise' hwakeup).mono hreturns.kept
      rw [hresult]
      refine ⟨hreturns.consistent, hpromised.update c fun wakeup h => ?_, fun c' wakeup hwoke =>
        (hgenuine.woken c' wakeup hwoke).mono hreturns.kept⟩
      obtain rfl := Option.some.inj h
      exact .receipt receipt ⟨_, hreturns.holds⟩

omit [Host] in
/-- What the adapter returned inside a call is held under some key. -/
theorem Genuine.issued {w : AdapterWorld} (hgenuine : w.Genuine) {c : CallId} {receipt : JsValue}
    (hreturned : w.world.ReturnedBy c () receipt) : Issued w.adapter.inner receipt := by
  cases hreturned with
  | execute operation capability params _ hinvoked hwoke =>
    cases hgenuine.woken c _ hwoke with
    | receipt _ hissued => exact hissued
  | lookup operationId value status hinvoked hwoke hstatus hfound =>
    generalize hwakeup : Wakeup.lookupSettled (.resolved value) = wakeup at hwoke
    cases hgenuine.woken c _ hwoke with
    | found receipt hissued =>
      obtain rfl := LookupAnswer.resolved.inj (Wakeup.lookupSettled.inj hwakeup)
      simpa [JsValue.getProp] using hissued
    | unknown =>
      -- an inconclusive answer is not one that was found
      obtain rfl := LookupAnswer.resolved.inj (Wakeup.lookupSettled.inj hwakeup)
      obtain rfl : status = .string (js "unknown") := by simpa [JsValue.getProp, eq_comm] using hstatus
      simp [JsValue.isString] at hfound
    | receipt | error | timerFired | refusalDelivered => cases hwakeup

end AdapterWorld

end

end ActionHarbor
