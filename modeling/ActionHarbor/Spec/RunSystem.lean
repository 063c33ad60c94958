import ActionHarbor.ForStd.Transition
import ActionHarbor.Spec.Turns

/-!
# The server, one run at a time

A `RunSystem` is what the server holds of one run: its record, the requests on it,
the promises of its adapter and its history. Every step of the server leaves the
system of a run as it is, makes it anew, or takes one step of it, with the registry
as the only thing from outside. Invariants of runs are proved about `RunStep` and
carried over once.

## Key results

- `Server.step_system`: a step of the server, seen from each run
- `Server.run_system_invariant`: an invariant of one run's steps holds of every run
- `Server.Kept.legal`: the answers on the runs are all that can go wrong
-/

namespace ActionHarbor

@[simp] theorem entriesOn_nil (c : RequestId) (ref : RunRef) : entriesOn c ref [] = [] := rfl

/-! ## One run -/

/-- A run and everything that happens on it. -/
structure RunSystem where
  run : RunRecord
  requests : RequestId → Option RequestStage := fun _ => none
  promises : RequestId → Option AdapterPromise := fun _ => none
  history : List RunObservation := []

namespace RunSystem

/-- Write the run and one request back, and add to the history. -/
def change (sys : RunSystem) (run : RunRecord) (c : RequestId) (stage : Option RequestStage)
    (promise : Option AdapterPromise) (observations : List RunObservation) : RunSystem where
  run := run
  requests := Function.update sys.requests c stage
  promises := Function.update sys.promises c promise
  history := sys.history ++ observations

@[simp] theorem change_run (sys : RunSystem) (run : RunRecord) (c : RequestId)
    (stage : Option RequestStage) (promise : Option AdapterPromise)
    (observations : List RunObservation) :
    (sys.change run c stage promise observations).run = run := rfl

@[simp] theorem change_requests (sys : RunSystem) (run : RunRecord) (c : RequestId)
    (stage : Option RequestStage) (promise : Option AdapterPromise)
    (observations : List RunObservation) :
    (sys.change run c stage promise observations).requests =
      Function.update sys.requests c stage := rfl

@[simp] theorem change_promises (sys : RunSystem) (run : RunRecord) (c : RequestId)
    (stage : Option RequestStage) (promise : Option AdapterPromise)
    (observations : List RunObservation) :
    (sys.change run c stage promise observations).promises =
      Function.update sys.promises c promise := rfl

@[simp] theorem change_history (sys : RunSystem) (run : RunRecord) (c : RequestId)
    (stage : Option RequestStage) (promise : Option AdapterPromise)
    (observations : List RunObservation) :
    (sys.change run c stage promise observations).history = sys.history ++ observations := rfl

/-- A request after its turn. -/
def enter (sys : RunSystem) (c : RequestId) (turn : Turn) : RunSystem :=
  sys.change turn.run c turn.stage turn.promise turn.observations

/-- No request has this number yet. -/
structure Unused (sys : RunSystem) (c : RequestId) : Prop where
  requests : sys.requests c = none
  promises : sys.promises c = none

/-- What can end the wait of a request: its promise, a timer, or a refusal. -/
inductive Wakes (sys : RunSystem) (c : RequestId) : Wakeup → Prop
  | delivered (promise : AdapterPromise) (wakeup : Wakeup)
      (hpromise : sys.promises c = some promise) (hwakeup : promise.wakeup = some wakeup) :
      Wakes sys c wakeup
  | timedOut : Wakes sys c .timerFired
  | refused : Wakes sys c .refusalDelivered

end RunSystem

section
variable [Host]

/-- A new run, behind the turn that made it. -/
inductive Born (model : ModelAdapter) : RunSystem → Prop
  | created (scenarioId : JsString) (draw : CreateDraw) (registry : CapabilityRegistry)
      (run : RunRecord) (c : RequestId) (hnew : proposeRun model scenarioId draw = .ok run) :
      Born model (RunSystem.enter { run := run } c (followVerdict registry run draw.authorize))

/-- One step of a run. `C` is what is known of an accepted reconciliation. -/
inductive RunStep (C : RunSystem → CallReads → Prop) (sys : RunSystem) : RunSystem → Prop
  | refused (c : RequestId) (error : RequestError) (hunused : sys.Unused c)
      (hlegal : error.isIllegalTransition = false) :
      RunStep C sys (sys.change sys.run c none none [.responded (.error error)])
  | approved (c : RequestId) (registry : CapabilityRegistry) (draw : ApproveDraw) (turn : Turn)
      (hunused : sys.Unused c) (hturn : approveRun registry sys.run draw = .ok turn) :
      RunStep C sys (sys.enter c turn)
  | replayed (c : RequestId) (registry : CapabilityRegistry) (reads : CallReads) (turn : Turn)
      (hunused : sys.Unused c) (hturn : replayRun registry sys.run reads = .ok turn) :
      RunStep C sys (sys.enter c turn)
  | reconciled (c : RequestId) (registry : CapabilityRegistry) (reads : CallReads) (turn : Turn)
      (hunused : sys.Unused c) (hreads : C sys reads)
      (hturn : reconcileRun registry sys.run reads = .ok turn) :
      RunStep C sys (sys.enter c turn)
  | drifted (c : RequestId) (now : Instant) (run : RunRecord) (hunused : sys.Unused c)
      (hdrift : simulateDrift sys.run now = .ok run) :
      RunStep C sys (sys.change run c none none [.driftSimulated, .responded (.ok ())])
  | checked (c : RequestId) (stamp : Stamp) (run : RunRecord) (result : LedgerIntegrityResult)
      (hunused : sys.Unused c) (hverify : verifyRunLedger sys.run stamp = .ok (run, result)) :
      RunStep C sys (sys.change run c none none [.responded (.ok ())])
  | executed (c : RequestId) (operation : AdapterOperation) (capability : Capability)
      (params : JsValue) (draw : AdapterDraw) (adapter : CountingAdapter)
      (outcome : Except AdapterError JsValue)
      (hpromise : sys.promises c = some (.sleeping operation capability params))
      (hexecute : sys.run.adapter.execute (adapterKind sys.run.scenario) operation capability
        params draw = (adapter, outcome)) :
      RunStep C sys (sys.change { sys.run with adapter := adapter } c (sys.requests c)
        (some (.executed outcome)) [])
  | woke (c : RequestId) (waiting : Waiting) (wakeup : Wakeup) (registry : CapabilityRegistry)
      (stamp : Stamp) (shared : Shared) (settled : Settled)
      (hrequest : sys.requests c = some (.waiting waiting)) (hwakes : sys.Wakes c wakeup)
      (hresume : waiting.resume wakeup ⟨registry, sys.run.operationStore, sys.run.ledger⟩ stamp =
        some (shared, settled)) :
      RunStep C sys (sys.change
        { sys.run with operationStore := shared.operationStore, ledger := shared.ledger } c
        (some (.settled settled)) (sys.promises c) [])
  | resumed (c : RequestId) (settled : Settled) (now : Instant) (run : RunRecord)
      (outcome : Except RequestError Unit)
      (hrequest : sys.requests c = some (.settled settled))
      (hfinish : finishExecution sys.run settled now = (run, outcome)) :
      RunStep C sys (sys.change run c none (sys.promises c) [.responded outcome])

/-- What one step of the server is to one run. -/
inductive SystemStep (model : ModelAdapter) (C : RunSystem → CallReads → Prop) :
    Option RunSystem → Option RunSystem → Prop
  | unchanged (sys : Option RunSystem) : SystemStep model C sys sys
  | born (sys : RunSystem) (h : Born model sys) : SystemStep model C none (some sys)
  | stepped (sys sys' : RunSystem) (h : RunStep C sys sys') :
      SystemStep model C (some sys) (some sys')

end

/-! ## The view of one run -/

/-- What belongs to a run. -/
def ofRun {α : Type} (ref : RunRef) : Option (RunRef × α) → Option α
  | some (owner, a) => if owner = ref then some a else none
  | none => none

@[simp] theorem ofRun_none {α : Type} (ref : RunRef) :
    ofRun ref (none : Option (RunRef × α)) = none := rfl

@[simp] theorem ofRun_self {α : Type} (ref : RunRef) (a : Option α) :
    ofRun ref (a.map fun a => (ref, a)) = a := by
  cases a <;> simp [ofRun]

theorem ofRun_of_ne {α : Type} {ref other : RunRef} (h : other ≠ ref) (a : Option α) :
    ofRun other (a.map fun a => (ref, a)) = none := by
  cases a <;> simp [ofRun, h.symm]

theorem ofRun_eq_some {α : Type} {ref : RunRef} {entry : Option (RunRef × α)} {a : α} :
    ofRun ref entry = some a ↔ entry = some (ref, a) := by
  cases entry with
  | none => simp
  | some entry =>
    obtain ⟨owner, b⟩ := entry
    by_cases h : owner = ref <;> simp [ofRun, h]

namespace Server

/-- What happened on a run, oldest first. -/
def history (s : Server) (ref : RunRef) : List RunObservation :=
  s.trace.filterMap fun entry => if entry.run = some ref then some entry.observation else none

/-- The server seen from a run. -/
def view (s : Server) (ref : RunRef) (run : RunRecord) : RunSystem where
  run := run
  requests c := ofRun ref (s.requests c)
  promises c := ofRun ref (s.promises c)
  history := s.history ref

/-- The system of a run object, once it is there. -/
def system (s : Server) (ref : RunRef) : Option RunSystem :=
  (s.state.records ref).map (s.view ref)

/-- Numbers are handed out in order, and a request keeps its run. -/
structure Fresh (s : Server) : Prop where
  records : ∀ ref, s.state.nextRef ≤ ref → s.state.records ref = none
  requests : ∀ c, s.nextRequest ≤ c → s.requests c = none
  promises : ∀ c, s.nextRequest ≤ c → s.promises c = none
  requestRefs : ∀ c ref stage, s.requests c = some (ref, stage) → ref < s.state.nextRef
  promiseRefs : ∀ c ref promise, s.promises c = some (ref, promise) → ref < s.state.nextRef
  traceRefs : ∀ entry ∈ s.trace, ∀ ref, entry.run = some ref → ref < s.state.nextRef
  owners : ∀ c ref stage ref' promise, s.requests c = some (ref, stage) →
    s.promises c = some (ref', promise) → ref = ref'

theorem fresh_empty : Fresh {} where
  records _ _ := rfl
  requests _ _ := rfl
  promises _ _ := rfl
  requestRefs _ _ _ h := by cases h
  promiseRefs _ _ _ h := by cases h
  traceRefs _ h := by cases h
  owners _ _ _ _ _ h := by cases h

/-- A step that touches one run and one request on it. -/
structure Changes (s s' : Server) (ref : RunRef) (run : RunRecord) (c : RequestId)
    (stage : Option RequestStage) (promise : Option AdapterPromise)
    (observations : List RunObservation) : Prop where
  records : s'.state.records = Function.update s.state.records ref (some run)
  requests : s'.requests = Function.update s.requests c (stage.map fun stage => (ref, stage))
  promises : s'.promises =
    Function.update s.promises c (promise.map fun promise => (ref, promise))
  trace : s'.trace = s.trace ++ entriesOn c ref observations
  requestOwner : ∀ owner stage, s.requests c = some (owner, stage) → owner = ref
  promiseOwner : ∀ owner promise, s.promises c = some (owner, promise) → owner = ref

namespace Changes
variable {s s' : Server} {ref : RunRef} {run : RunRecord} {c : RequestId}
  {stage : Option RequestStage} {promise : Option AdapterPromise}
  {observations : List RunObservation}

/-- The run it touches changes by just that. -/
theorem system_self (h : Changes s s' ref run c stage promise observations) (old : RunRecord) :
    s'.system ref = some ((s.view ref old).change run c stage promise observations) := by
  -- entry by entry: only that of `c` is written
  have hrequests : (fun c' => ofRun ref (s'.requests c')) =
      Function.update (fun c' => ofRun ref (s.requests c')) c stage := by
    funext c'
    rw [h.requests]
    by_cases hc : c' = c
    · subst hc
      simp
    · simp [hc]
  have hpromises : (fun c' => ofRun ref (s'.promises c')) =
      Function.update (fun c' => ofRun ref (s.promises c')) c promise := by
    funext c'
    rw [h.promises]
    by_cases hc : c' = c
    · subst hc
      simp
    · simp [hc]
  have hhistory : s'.history ref = s.history ref ++ observations := by
    rw [history, h.trace, List.filterMap_append, entriesOn, List.filterMap_map]
    simp [history]
  rw [system, h.records, Function.update_self, Option.map_some, view, hrequests, hpromises,
    hhistory]
  rfl

/-- Other runs are as they were. -/
theorem system_of_ne (h : Changes s s' ref run c stage promise observations) {other : RunRef}
    (hne : other ≠ ref) : s'.system other = s.system other := by
  have hrequests : (fun c' => ofRun other (s'.requests c')) =
      fun c' => ofRun other (s.requests c') := by
    funext c'
    rw [h.requests]
    by_cases hc : c' = c
    · subst hc
      rw [Function.update_self, ofRun_of_ne hne]
      -- the request was the acting run's, so it is not this one's
      cases hrequest : s.requests c' with
      | none => rfl
      | some entry =>
        have := h.requestOwner entry.1 entry.2 hrequest
        simp [ofRun, this, hne.symm]
    · rw [Function.update_of_ne hc]
  have hpromises : (fun c' => ofRun other (s'.promises c')) =
      fun c' => ofRun other (s.promises c') := by
    funext c'
    rw [h.promises]
    by_cases hc : c' = c
    · subst hc
      rw [Function.update_self, ofRun_of_ne hne]
      cases hpromise : s.promises c' with
      | none => rfl
      | some entry =>
        have := h.promiseOwner entry.1 entry.2 hpromise
        simp [ofRun, this, hne.symm]
    · rw [Function.update_of_ne hc]
  have hhistory : s'.history other = s.history other := by
    rw [history, h.trace, List.filterMap_append, entriesOn, List.filterMap_map]
    simp [history, hne.symm]
  rw [system, system, h.records, Function.update_of_ne hne]
  congr 1
  funext run
  rw [view, view, hrequests, hpromises, hhistory]

/-- Numbers stay in order. -/
theorem fresh (h : Changes s s' ref run c stage promise observations) (hfresh : s.Fresh)
    (hnextRef : s.state.nextRef ≤ s'.state.nextRef) (href : ref < s'.state.nextRef)
    (hnextRequest : s.nextRequest ≤ s'.nextRequest) (hc : c < s'.nextRequest) : s'.Fresh where
  records other hother := by
    rw [h.records, Function.update_of_ne (Nat.lt_of_lt_of_le href hother).ne']
    exact hfresh.records other (Nat.le_trans hnextRef hother)
  requests c' hc' := by
    rw [h.requests, Function.update_of_ne (Nat.lt_of_lt_of_le hc hc').ne']
    exact hfresh.requests c' (Nat.le_trans hnextRequest hc')
  promises c' hc' := by
    rw [h.promises, Function.update_of_ne (Nat.lt_of_lt_of_le hc hc').ne']
    exact hfresh.promises c' (Nat.le_trans hnextRequest hc')
  requestRefs c' owner stage' howner := by
    rw [h.requests] at howner
    -- the entry of `c` is the run's own, and the others were there
    by_cases hc' : c' = c
    · subst hc'
      rw [Function.update_self] at howner
      cases stage with
      | none => cases howner
      | some _ => cases howner; exact href
    · rw [Function.update_of_ne hc'] at howner
      exact Nat.lt_of_lt_of_le (hfresh.requestRefs c' owner stage' howner) hnextRef
  promiseRefs c' owner promise' howner := by
    rw [h.promises] at howner
    by_cases hc' : c' = c
    · subst hc'
      rw [Function.update_self] at howner
      cases promise with
      | none => cases howner
      | some _ => cases howner; exact href
    · rw [Function.update_of_ne hc'] at howner
      exact Nat.lt_of_lt_of_le (hfresh.promiseRefs c' owner promise' howner) hnextRef
  traceRefs entry hmem owner howner := by
    rw [h.trace, List.mem_append] at hmem
    rcases hmem with hmem | hmem
    · exact Nat.lt_of_lt_of_le (hfresh.traceRefs entry hmem owner howner) hnextRef
    · obtain ⟨_, -, rfl⟩ := List.mem_map.mp hmem
      cases howner
      exact href
  owners c' owner stage' owner' promise' hrequest hpromise := by
    rw [h.requests] at hrequest
    rw [h.promises] at hpromise
    by_cases hc' : c' = c
    · subst hc'
      rw [Function.update_self] at hrequest hpromise
      cases stage <;> cases promise <;> cases hrequest <;> cases hpromise
      rfl
    · rw [Function.update_of_ne hc'] at hrequest hpromise
      exact hfresh.owners c' owner stage' owner' promise' hrequest hpromise

/-- What a step that touches one run is to every run. -/
theorem systemStep [Host] {model : ModelAdapter} {C : RunSystem → CallReads → Prop}
    (h : Changes s s' ref run c stage promise observations)
    (hself : SystemStep model C (s.system ref) (s'.system ref)) (other : RunRef) :
    SystemStep model C (s.system other) (s'.system other) := by
  by_cases hother : other = ref
  · exact hother ▸ hself
  · rw [h.system_of_ne hother]
    exact .unchanged _

end Changes

section
variable [Host] {model : ModelAdapter} {C : RunSystem → CallReads → Prop}

/-- A step of the server keeps its numbers in order and is, to every run, nothing, its
    birth or a step of its own. -/
structure Stepped (model : ModelAdapter) (C : RunSystem → CallReads → Prop) (s s' : Server) :
    Prop where
  fresh : s'.Fresh
  systems : ∀ ref, SystemStep model C (s.system ref) (s'.system ref)
  /-- an answer that is about no run is no illegal transition -/
  answered : ∀ entry ∈ s'.trace, entry ∈ s.trace ∨
    (∃ ref sys, entry.run = some ref ∧ s'.system ref = some sys) ∨
      entry.observation.isIllegalTransition = false

omit [Host] in
/-- What is new after a step that touches one run is about that run. -/
theorem Changes.answered {s s' : Server} {ref : RunRef} {run : RunRecord} {c : RequestId}
    {stage : Option RequestStage} {promise : Option AdapterPromise}
    {observations : List RunObservation}
    (h : Changes s s' ref run c stage promise observations) :
    ∀ entry ∈ s'.trace, entry ∈ s.trace ∨
      (∃ ref sys, entry.run = some ref ∧ s'.system ref = some sys) ∨
        entry.observation.isIllegalTransition = false := by
  intro entry hentry
  rw [h.trace, List.mem_append] at hentry
  rcases hentry with hold | hnew
  · exact .inl hold
  · obtain ⟨observation, -, rfl⟩ := List.mem_map.mp hnew
    exact .inr (.inl ⟨ref, _, rfl, h.system_self run⟩)

/-- A step of one run, at a number in use or the next one. -/
theorem Changes.stepped {s s' : Server} {ref : RunRef} {old run : RunRecord} {c : RequestId}
    {stage : Option RequestStage} {promise : Option AdapterPromise}
    {observations : List RunObservation}
    (h : Changes s s' ref run c stage promise observations) (hfresh : s.Fresh)
    (hrecord : s.state.records ref = some old) (hnextRef : s'.state.nextRef = s.state.nextRef)
    (hnextRequest : s.nextRequest ≤ s'.nextRequest) (hc : c < s'.nextRequest)
    (hstep : RunStep C (s.view ref old)
      ((s.view ref old).change run c stage promise observations)) : Stepped model C s s' := by
  have href : ref < s.state.nextRef := by
    by_contra hge
    rw [hfresh.records ref (Nat.le_of_not_lt hge)] at hrecord
    cases hrecord
  refine ⟨h.fresh hfresh hnextRef.ge (hnextRef ▸ href) hnextRequest hc, h.systemStep ?_,
    h.answered⟩
  rw [h.system_self old, system, hrecord]
  exact .stepped _ _ hstep

omit [Host] in
/-- A request number that is not in use. -/
theorem Fresh.unused {s : Server} (hfresh : s.Fresh) (ref : RunRef) (run : RunRecord) :
    (s.view ref run).Unused s.nextRequest where
  requests := by simp [view, hfresh.requests]
  promises := by simp [view, hfresh.promises]

omit [Host] in
/-- Where every request so far has been answered, none is in flight. -/
theorem Fresh.requests_none {s : Server} (hfresh : s.Fresh)
    (hanswered : ∀ c < s.nextRequest, s.requests c = none) (c : RequestId) :
    s.requests c = none := by
  rcases Nat.lt_or_ge c s.nextRequest with hc | hc
  · exact hanswered c hc
  · exact hfresh.requests c hc

omit [Host] in
/-- A step at the next request number touches nothing that is in use. -/
theorem Fresh.changes {s s' : Server} (hfresh : s.Fresh) {ref : RunRef} {run : RunRecord}
    {stage : Option RequestStage} {promise : Option AdapterPromise}
    {observations : List RunObservation}
    (hrecords : s'.state.records = Function.update s.state.records ref (some run))
    (hrequests : s'.requests =
      Function.update s.requests s.nextRequest (stage.map fun stage => (ref, stage)))
    (hpromises : s'.promises =
      Function.update s.promises s.nextRequest (promise.map fun promise => (ref, promise)))
    (htrace : s'.trace = s.trace ++ entriesOn s.nextRequest ref observations) :
    Changes s s' ref run s.nextRequest stage promise observations where
  records := hrecords
  requests := hrequests
  promises := hpromises
  trace := htrace
  -- the next number belongs to nobody
  requestOwner owner stage h := by
    rw [hfresh.requests _ (Nat.le_refl _)] at h
    cases h
  promiseOwner owner promise h := by
    rw [hfresh.promises _ (Nat.le_refl _)] at h
    cases h

/-! ## Requests -/

omit [Host] in
/-- An answer about no run changes no run. -/
theorem system_refuse_none (s : Server) (error : RequestError) (ref : RunRef) :
    (s.refuse none error).system ref = s.system ref := by
  have hhistory : (s.refuse none error).history ref = s.history ref := by
    simp [history, refuse]
  rw [system, system]
  congr 1
  funext run
  rw [view, hhistory]
  rfl

/-- A refusal that is about no run. -/
private theorem refuse_none_stepped {s : Server} (hfresh : s.Fresh) {error : RequestError}
    (hlegal : error.isIllegalTransition = false) : Stepped model C s (s.refuse none error) where
  fresh := {
    records := hfresh.records
    requests := fun c hc => hfresh.requests c (Nat.le_of_succ_le hc)
    promises := fun c hc => hfresh.promises c (Nat.le_of_succ_le hc)
    requestRefs := hfresh.requestRefs
    promiseRefs := hfresh.promiseRefs
    traceRefs := by
      intro entry hmem ref href
      rcases List.mem_append.mp hmem with hmem | hmem
      · exact hfresh.traceRefs entry hmem ref href
      · obtain rfl := List.mem_singleton.mp hmem
        cases href
    owners := hfresh.owners }
  systems ref := by
    rw [system_refuse_none]
    -- no run has been reached
    exact .unchanged _
  answered entry hentry := by
    rcases List.mem_append.mp hentry with hold | hnew
    · exact .inl hold
    · obtain rfl := List.mem_singleton.mp hnew
      exact .inr (.inr hlegal)

omit [Host] in
/-- A request that is answered at once leaves nothing in flight. -/
private theorem Fresh.changes_answered {s s' : Server} (hfresh : s.Fresh) {ref : RunRef}
    {run : RunRecord} {observations : List RunObservation}
    (hrecords : s'.state.records = Function.update s.state.records ref (some run))
    (hrequests : s'.requests = s.requests) (hpromises : s'.promises = s.promises)
    (htrace : s'.trace = s.trace ++ entriesOn s.nextRequest ref observations) :
    Changes s s' ref run s.nextRequest none none observations := by
  apply hfresh.changes hrecords _ _ htrace
  · rw [hrequests]
    exact Function.eq_update_self_iff.mpr (hfresh.requests _ (Nat.le_refl _))
  · rw [hpromises]
    exact Function.eq_update_self_iff.mpr (hfresh.promises _ (Nat.le_refl _))

/-- A request that is answered at once, with a change to the run. -/
private theorem answered_stepped {s : Server} (hfresh : s.Fresh) {ref : RunRef}
    {run run' : RunRecord} (hrecord : s.state.records ref = some run)
    {observations : List RunObservation}
    (hstep : RunStep C (s.view ref run)
      ((s.view ref run).change run' s.nextRequest none none observations)) :
    Stepped model C s
      { s.setRun ref run' with
        nextRequest := s.nextRequest + 1
        trace := s.trace ++ entriesOn s.nextRequest ref observations } := by
  have hchanges : Changes s
      { s.setRun ref run' with
        nextRequest := s.nextRequest + 1
        trace := s.trace ++ entriesOn s.nextRequest ref observations }
      ref run' s.nextRequest none none observations :=
    hfresh.changes_answered rfl rfl rfl rfl
  exact hchanges.stepped hfresh hrecord rfl (Nat.le_succ _) (Nat.lt_succ_self _) hstep

/-- A refusal on a run. -/
private theorem refuse_stepped {s : Server} (hfresh : s.Fresh) {ref : RunRef} {run : RunRecord}
    (hrecord : s.state.records ref = some run) {error : RequestError}
    (hlegal : error.isIllegalTransition = false) :
    Stepped model C s (s.refuse (some ref) error) := by
  have hchanges : Changes s (s.refuse (some ref) error) ref run s.nextRequest none none
      [.responded (.error error)] :=
    hfresh.changes_answered (Function.eq_update_self_iff.mpr hrecord) rfl rfl rfl
  exact hchanges.stepped hfresh hrecord rfl (Nat.le_succ _) (Nat.lt_succ_self _)
    (.refused _ error (hfresh.unused ref run) hlegal)

/-- A request that takes its turn or is refused. -/
private theorem take_stepped {s : Server} (hfresh : s.Fresh) {ref : RunRef} {run : RunRecord}
    (hrecord : s.state.records ref = some run) {result : Except RequestError Turn}
    (hlegal : ∀ error, result = .error error → error.isIllegalTransition = false)
    (hstep : ∀ turn, result = .ok turn →
      RunStep C (s.view ref run) ((s.view ref run).enter s.nextRequest turn)) :
    Stepped model C s (s.take ref result) := by
  cases result with
  | error error => exact refuse_stepped hfresh hrecord (hlegal error rfl)
  | ok turn =>
    have hchanges : Changes s (s.enter ref turn) ref turn.run s.nextRequest turn.stage
        turn.promise turn.observations := hfresh.changes rfl rfl rfl rfl
    exact hchanges.stepped hfresh hrecord rfl (Nat.le_succ _) (Nat.lt_succ_self _)
      (hstep turn rfl)

/-- A request on a run that may not exist. -/
private theorem onRun_stepped {s : Server} (hfresh : s.Fresh) (runId : JsString)
    {request : RunRef → RunRecord → Server}
    (h : ∀ ref run, s.state.runs runId = some ref → s.state.records ref = some run →
      Stepped model C s (request ref run)) :
    Stepped model C s (s.onRun runId request) := by
  rw [onRun]
  split
  · exact refuse_none_stepped hfresh rfl
  · rename_i ref hruns
    split
    · exact ⟨hfresh, fun _ => .unchanged _, fun _ h => .inl h⟩
    · rename_i run hrecord
      exact h ref run hruns hrecord

omit [Host] in
/-- Nothing is on a run object that does not exist yet. -/
private theorem Fresh.view_nextRef {s : Server} (hfresh : s.Fresh) (run : RunRecord) :
    s.view s.state.nextRef run = { run := run } := by
  have hrequests : (fun c => ofRun s.state.nextRef (s.requests c)) = fun _ => none := by
    funext c
    by_contra hne
    obtain ⟨stage, hstage⟩ := Option.ne_none_iff_exists'.mp hne
    exact Nat.lt_irrefl _ (hfresh.requestRefs c _ stage (ofRun_eq_some.mp hstage))
  have hpromises : (fun c => ofRun s.state.nextRef (s.promises c)) = fun _ => none := by
    funext c
    by_contra hne
    obtain ⟨promise, hpromise⟩ := Option.ne_none_iff_exists'.mp hne
    exact Nat.lt_irrefl _ (hfresh.promiseRefs c _ promise (ofRun_eq_some.mp hpromise))
  have hhistory : s.history s.state.nextRef = [] := by
    rw [history, List.filterMap_eq_nil_iff]
    intro entry hmem
    rw [ite_eq_right_iff]
    intro howner
    exact absurd (hfresh.traceRefs entry hmem _ howner) (Nat.lt_irrefl _)
  rw [view, hrequests, hpromises, hhistory]

omit [Host] in
/-- A run that is registered and takes its first turn touches no other. -/
private theorem Fresh.changes_registered {s : Server} (hfresh : s.Fresh) (turn : Turn) :
    Changes s ((s.register turn.run.runId).enter s.state.nextRef turn) s.state.nextRef turn.run
      s.nextRequest turn.stage turn.promise turn.observations :=
  hfresh.changes rfl rfl rfl rfl

omit [Host] in
/-- The system of a run after its first turn. -/
theorem Fresh.system_registered {s : Server} (hfresh : s.Fresh) (run : RunRecord) (turn : Turn) :
    ((s.register turn.run.runId).enter s.state.nextRef turn).system s.state.nextRef =
      some (RunSystem.enter { run := run } s.nextRequest turn) := by
  rw [(hfresh.changes_registered turn).system_self run, hfresh.view_nextRef]
  rfl

/-- It is a new run. -/
private theorem born_stepped {s : Server} (hfresh : s.Fresh) (scenarioId : JsString)
    (draw : CreateDraw) {run : RunRecord} (hnew : proposeRun model scenarioId draw = .ok run) :
    Stepped model C s
      ((s.register (followVerdict s.state.registry run draw.authorize).run.runId).enter
        s.state.nextRef (followVerdict s.state.registry run draw.authorize)) := by
  have hsystem := hfresh.system_registered run
    (followVerdict s.state.registry run draw.authorize)
  have hborn := Born.created scenarioId draw s.state.registry run s.nextRequest hnew
  generalize followVerdict s.state.registry run draw.authorize = turn at hsystem hborn
  have hchanges := hfresh.changes_registered turn
  refine ⟨hchanges.fresh hfresh (Nat.le_succ _) (Nat.lt_succ_self _) (Nat.le_succ _)
    (Nat.lt_succ_self _), hchanges.systemStep ?_, hchanges.answered⟩
  have hnone : s.system s.state.nextRef = none := by
    rw [system, hfresh.records _ (Nat.le_refl _)]
    rfl
  rw [hsystem, hnone]
  exact .born _ hborn

/-- The synchronous part of a request. -/
private theorem handle_stepped {s : Server} (hfresh : s.Fresh) (request : Request)
    (hC : ∀ runId reads, request = .reconcileRun runId reads → ∀ ref sys,
      s.state.runs runId = some ref → s.system ref = some sys → C sys reads) :
    Stepped model C s (s.handle model request) := by
  cases request with
  | createRun scenarioId draw =>
    simp only [handle, createRun]
    cases hnew : proposeRun model scenarioId draw with
    -- there is no run yet that could be refused
    | error error => exact refuse_none_stepped hfresh (proposeRun_eq_error hnew)
    | ok run => exact born_stepped hfresh scenarioId draw hnew
  | approveRun runId draw =>
    apply onRun_stepped hfresh
    intro ref run _ hrecord
    exact take_stepped hfresh hrecord (fun _ => approveRun_eq_error) fun turn hturn =>
      .approved _ _ draw turn (hfresh.unused ref run) hturn
  | simulateDrift runId now =>
    apply onRun_stepped hfresh
    intro ref run _ hrecord
    cases hdrift : simulateDrift run now with
    | error error => exact refuse_stepped hfresh hrecord (simulateDrift_eq_error hdrift)
    | ok run' =>
      have hstep : RunStep C (s.view ref run) ((s.view ref run).change run' s.nextRequest none none
          [.driftSimulated, .responded (.ok ())]) :=
        .drifted _ now run' (hfresh.unused ref run) hdrift
      exact answered_stepped hfresh hrecord hstep
  | replayRun runId reads =>
    apply onRun_stepped hfresh
    intro ref run _ hrecord
    exact take_stepped hfresh hrecord (fun _ => replayRun_eq_error) fun turn hturn =>
      .replayed _ _ reads turn (hfresh.unused ref run) hturn
  | reconcileRun runId reads =>
    apply onRun_stepped hfresh
    intro ref run hruns hrecord
    -- the condition is asked of the run that is reconciled
    have hsystem : s.system ref = some (s.view ref run) := by rw [system, hrecord]; rfl
    exact take_stepped hfresh hrecord (fun _ => reconcileRun_eq_error) fun turn hturn =>
      .reconciled _ _ reads turn (hfresh.unused ref run) (hC runId reads rfl ref _ hruns hsystem)
        hturn
  | verifyRunLedger runId stamp =>
    apply onRun_stepped hfresh
    intro ref run _ hrecord
    cases hverify : verifyRunLedger run stamp with
    | error error => exact refuse_stepped hfresh hrecord (verifyRunLedger_eq_error hverify)
    | ok result =>
      obtain ⟨run', result⟩ := result
      have hstep : RunStep C (s.view ref run) ((s.view ref run).change run' s.nextRequest none none
          [.responded (.ok ())]) :=
        .checked _ stamp run' result (hfresh.unused ref run) hverify
      exact answered_stepped hfresh hrecord hstep

/-! ## Steps of a call -/

omit [Host] in
/-- What owns a request or promise of a run is that run. -/
theorem Fresh.owned {s : Server} (hfresh : s.Fresh) {ref : RunRef} {c : RequestId}
    {stage : RequestStage} (hrequest : s.requests c = some (ref, stage)) :
    (∀ owner stage, s.requests c = some (owner, stage) → owner = ref) ∧
      ∀ owner promise, s.promises c = some (owner, promise) → owner = ref := by
  constructor
  · intro owner stage' howner
    rw [hrequest] at howner
    cases howner
    rfl
  · intro owner promise howner
    exact (hfresh.owners c ref stage owner promise hrequest howner).symm

omit [Host] in
/-- A promise keeps its place when it is written back. -/
theorem promises_eq_update {s : Server} {ref : RunRef} {c : RequestId}
    (howner : ∀ owner promise, s.promises c = some (owner, promise) → owner = ref) :
    s.promises = Function.update s.promises c
      ((ofRun ref (s.promises c)).map fun promise => (ref, promise)) := by
  apply Function.eq_update_self_iff.mpr
  cases hpromise : s.promises c with
  | none => rfl
  | some entry =>
    obtain ⟨owner, promise⟩ := entry
    obtain rfl := howner owner promise hpromise
    simp [ofRun]

omit [Host] in
/-- So does a request. -/
theorem requests_eq_update {s : Server} {ref : RunRef} {c : RequestId}
    (howner : ∀ owner stage, s.requests c = some (owner, stage) → owner = ref) :
    s.requests = Function.update s.requests c
      ((ofRun ref (s.requests c)).map fun stage => (ref, stage)) := by
  apply Function.eq_update_self_iff.mpr
  cases hrequest : s.requests c with
  | none => rfl
  | some entry =>
    obtain ⟨owner, stage⟩ := entry
    obtain rfl := howner owner stage hrequest
    simp [ofRun]

omit [Host] in
/-- A request number in use has been handed out. -/
theorem Fresh.lt_nextRequest {s : Server} (hfresh : s.Fresh) {c : RequestId}
    (h : s.requests c ≠ none ∨ s.promises c ≠ none) : c < s.nextRequest := by
  by_contra hge
  rcases h with h | h
  · exact h (hfresh.requests c (Nat.le_of_not_lt hge))
  · exact h (hfresh.promises c (Nat.le_of_not_lt hge))

/-- The inner `execute` of a call. -/
private theorem execute_stepped {s s' : Server} (hfresh : s.Fresh) {c : RequestId}
    {draw : AdapterDraw} (hstep : s.execute c draw = some s') : Stepped model C s s' := by
  rw [execute] at hstep
  split at hstep
  · rename_i ref operation capability params hpromise
    obtain ⟨run, hrecord, rfl⟩ := Option.map_eq_some_iff.mp hstep
    rcases hexecute : run.adapter.execute (adapterKind run.scenario) operation capability params
      draw with ⟨adapter, outcome⟩
    -- the promise is the run's, and a request under its number is too
    have hpromiseOwner : ∀ owner promise, s.promises c = some (owner, promise) → owner = ref := by
      intro owner promise howner
      rw [hpromise] at howner
      cases howner
      rfl
    have hrequestOwner : ∀ owner stage, s.requests c = some (owner, stage) → owner = ref :=
      fun owner stage howner => hfresh.owners c owner stage ref _ howner hpromise
    have hchanges : Changes s
        { s.setRun ref { run with adapter := adapter } with
          promises := Function.update s.promises c (some (ref, .executed outcome)) }
        ref { run with adapter := adapter } c (ofRun ref (s.requests c))
        (some (.executed outcome)) [] :=
      { records := rfl
        requests := requests_eq_update hrequestOwner
        promises := rfl
        trace := (List.append_nil _).symm
        requestOwner := hrequestOwner
        promiseOwner := hpromiseOwner }
    refine hchanges.stepped hfresh hrecord rfl (Nat.le_refl _)
      (hfresh.lt_nextRequest (.inr (by simp [hpromise]))) ?_
    exact .executed c operation capability params draw adapter outcome
      (by simp [view, hpromise, ofRun]) hexecute
  · cases hstep

/-- The end of a call's wait. -/
private theorem wake_stepped {s s' : Server} (hfresh : s.Fresh) {c : RequestId} {wakeup : Wakeup}
    {stamp : Stamp}
    (hwakes : ∀ ref run, (∃ stage, s.requests c = some (ref, stage)) →
      (s.view ref run).Wakes c wakeup)
    (hstep : s.wake c wakeup stamp = some s') : Stepped model C s s' := by
  rw [wake] at hstep
  split at hstep
  · rename_i ref waiting hrequest
    obtain ⟨run, hrecord, hstep⟩ := Option.bind_eq_some_iff.mp hstep
    obtain ⟨⟨shared, settled⟩, hresume, rfl⟩ := Option.map_eq_some_iff.mp hstep
    obtain ⟨hrequestOwner, hpromiseOwner⟩ := hfresh.owned hrequest
    -- the promise stays where it is
    have hchanges : Changes s
        { s with
          state := { s.state with
            registry := shared.registry
            records := Function.update s.state.records ref (some { run with
              operationStore := shared.operationStore, ledger := shared.ledger }) }
          requests := Function.update s.requests c (some (ref, .settled settled)) }
        ref { run with operationStore := shared.operationStore, ledger := shared.ledger } c
        (some (.settled settled)) (ofRun ref (s.promises c)) [] :=
      { records := rfl
        requests := rfl
        promises := promises_eq_update hpromiseOwner
        trace := (List.append_nil _).symm
        requestOwner := hrequestOwner
        promiseOwner := hpromiseOwner }
    refine hchanges.stepped hfresh hrecord rfl (Nat.le_refl _)
      (hfresh.lt_nextRequest (.inl (by simp [hrequest]))) ?_
    exact .woke c waiting wakeup s.state.registry stamp shared settled
      (by simp [view, hrequest, ofRun]) (hwakes ref run ⟨_, hrequest⟩) hresume
  · cases hstep

/-- The end of a request. -/
private theorem resume_stepped {s s' : Server} (hfresh : s.Fresh) {c : RequestId} {now : Instant}
    (hstep : s.resume c now = some s') : Stepped model C s s' := by
  rw [resume] at hstep
  split at hstep
  · rename_i ref settled hrequest
    obtain ⟨run, hrecord, rfl⟩ := Option.map_eq_some_iff.mp hstep
    obtain ⟨hrequestOwner, hpromiseOwner⟩ := hfresh.owned hrequest
    rcases hfinish : finishExecution run settled now with ⟨run', outcome⟩
    have hchanges : Changes s
        { s.setRun ref run' with
          requests := Function.update s.requests c none
          trace := s.trace ++ entriesOn c ref [.responded outcome] }
        ref run' c none (ofRun ref (s.promises c)) [.responded outcome] :=
      { records := rfl
        requests := rfl
        promises := promises_eq_update hpromiseOwner
        trace := rfl
        requestOwner := hrequestOwner
        promiseOwner := hpromiseOwner }
    refine hchanges.stepped hfresh hrecord rfl (Nat.le_refl _)
      (hfresh.lt_nextRequest (.inl (by simp [hrequest]))) ?_
    exact .resumed c settled now run' outcome (by simp [view, hrequest, ofRun]) hfinish
  · cases hstep

/-- A step of the server, seen from each run. -/
theorem step_system {s s' : Server} {e : ServerEvent} (hfresh : s.Fresh)
    (hC : ∀ runId reads, e = .request (.reconcileRun runId reads) → ∀ ref sys,
      s.state.runs runId = some ref → s.system ref = some sys → C sys reads)
    (hstep : s.step model e = some s') : Stepped model C s s' := by
  cases e with
  | request request =>
    obtain rfl := Option.some.inj hstep
    exact handle_stepped hfresh request fun runId reads h => hC runId reads (h ▸ rfl)
  | execute c draw => exact execute_stepped hfresh hstep
  | deliver c stamp =>
    obtain ⟨⟨owner, promise⟩, hpromise, hstep⟩ := Option.bind_eq_some_iff.mp hstep
    obtain ⟨wakeup, hwakeup, hstep⟩ := Option.bind_eq_some_iff.mp hstep
    refine wake_stepped hfresh (fun ref run ⟨stage, hrequest⟩ => ?_) hstep
    obtain rfl := hfresh.owners c ref stage owner promise hrequest hpromise
    exact .delivered promise wakeup (by simp [view, hpromise, ofRun]) hwakeup
  | timeout c stamp => exact wake_stepped hfresh (fun _ _ _ => .timedOut) hstep
  | refuse c stamp => exact wake_stepped hfresh (fun _ _ _ => .refused) hstep
  | resume c now => exact resume_stepped hfresh hstep

/-! ## Runs -/

/-- What an accepted reconciliation meets in the system of its run. -/
def ReconcilesIn (C : RunSystem → CallReads → Prop) (s : Server) : ServerEvent → Prop
  | .request (.reconcileRun runId reads) => ∀ ref sys,
      s.state.runs runId = some ref → s.system ref = some sys → C sys reads
  | _ => True

/-- What a run of the server keeps, `P` being an invariant of its runs. -/
structure Kept (P : RunSystem → Prop) (s : Server) : Prop where
  fresh : s.Fresh
  systems : ∀ ref sys, s.system ref = some sys → P sys
  answered : ∀ entry ∈ s.trace, (∃ ref sys, entry.run = some ref ∧ s.system ref = some sys) ∨
    entry.observation.isIllegalTransition = false

/-- One step keeps it. -/
private theorem Kept.step {P : RunSystem → Prop} {s s' : Server} (h : Kept P s)
    (hborn : ∀ sys, Born model sys → P sys)
    (hstep : ∀ sys sys', P sys → RunStep C sys sys' → P sys') (hstepped : Stepped model C s s') :
    Kept P s' where
  fresh := hstepped.fresh
  systems ref sys hsys := by
    have hcases := hstepped.systems ref
    rw [hsys] at hcases
    generalize hold : s.system ref = old at hcases
    -- a run is as it was, has been created, or has taken a step
    cases hcases with
    | unchanged => exact h.systems ref sys hold
    | born _ hnew => exact hborn sys hnew
    | stepped before _ hrun => exact hstep before sys (h.systems ref before hold) hrun
  answered entry hentry := by
    rcases hstepped.answered entry hentry with hold | hnew
    · rcases h.answered entry hold with ⟨ref, sys, hentry, hsys⟩ | hlegal
      · -- a run does not go away
        have hcases := hstepped.systems ref
        rw [hsys] at hcases
        generalize hnext : s'.system ref = next at hcases
        cases hcases with
        | unchanged => exact .inl ⟨ref, sys, hentry, hnext⟩
        | stepped _ after => exact .inl ⟨ref, after, hentry, hnext⟩
      · exact .inr hlegal
    · exact hnew

/-- An invariant of new runs that every step of a run keeps holds of every run the
    server ever has. -/
theorem run_kept {P : RunSystem → Prop} (hborn : ∀ sys, Born model sys → P sys)
    (hstep : ∀ sys sys', P sys → RunStep C sys sys' → P sys') {s : Server}
    {events : List ServerEvent} (hC : Transition.Meets (step model) (ReconcilesIn C) {} events)
    (hrun : Transition.run (step model) {} events = some s) : Kept P s := by
  refine Transition.run_invariant_of_meets (P := Kept P) ?_ ?_ hC hrun
  · intro s e s' hs hmeets hs'
    refine hs.step hborn hstep (step_system hs.fresh ?_ hs')
    intro runId reads he
    subst he
    exact hmeets
  · exact {
      fresh := fresh_empty
      systems := fun _ _ h => by cases h
      answered := fun _ h => by cases h }

/-- No condition is met by every run. -/
theorem meets_true (s : Server) (events : List ServerEvent) :
    Transition.Meets (step model) (ReconcilesIn fun _ _ => True) s events := by
  refine .of_forall_step fun pre e post m _ _ => ?_
  cases e with
  | request request => cases request <;> simp [ReconcilesIn]
  | execute | deliver | timeout | refuse | resume => trivial

/-- Numbers are in order in every reachable state. -/
theorem run_fresh {s : Server} {events : List ServerEvent}
    (hrun : Transition.run (step model) {} events = some s) : s.Fresh :=
  (run_kept (P := fun _ => True) (fun _ _ => trivial) (fun _ _ _ _ => trivial)
    (meets_true {} events) hrun).fresh

/-- The same, for one run. -/
theorem run_system_invariant {P : RunSystem → Prop} (hborn : ∀ sys, Born model sys → P sys)
    (hstep : ∀ sys sys', P sys → RunStep C sys sys' → P sys') {s : Server}
    {events : List ServerEvent} (hC : Transition.Meets (step model) (ReconcilesIn C) {} events)
    (hrun : Transition.run (step model) {} events = some s) {ref : RunRef} {sys : RunSystem}
    (hsystem : s.system ref = some sys) : P sys :=
  (run_kept hborn hstep hC hrun).systems ref sys hsystem

/-- A run that is there stays, with whatever its own steps keep. -/
theorem system_run {P : RunSystem → Prop}
    (hstep : ∀ sys sys', P sys → RunStep (fun _ _ => True) sys sys' → P sys') {s s' : Server}
    {events : List ServerEvent} (hfresh : s.Fresh) {ref : RunRef} {sys : RunSystem}
    (hsystem : s.system ref = some sys) (hsys : P sys)
    (hrun : Transition.run (step model) s events = some s') :
    ∃ sys', s'.system ref = some sys' ∧ P sys' := by
  suffices h : s'.Fresh ∧ ∃ sys', s'.system ref = some sys' ∧ P sys' from h.2
  refine Transition.run_invariant (P := fun s => s.Fresh ∧ ∃ sys, s.system ref = some sys ∧ P sys)
    ?_ ⟨hfresh, sys, hsystem, hsys⟩ hrun
  rintro s e s' ⟨hfresh, sys, hsystem, hsys⟩ he
  have hstepped : Stepped model (fun _ _ => True) s s' :=
    step_system hfresh (fun _ _ _ _ _ _ _ => trivial) he
  refine ⟨hstepped.fresh, ?_⟩
  have hcases := hstepped.systems ref
  rw [hsystem] at hcases
  generalize s'.system ref = next at hcases ⊢
  cases hcases with
  | unchanged => exact ⟨sys, rfl, hsys⟩
  | stepped _ after hstep' => exact ⟨after, rfl, hstep sys after hsys hstep'⟩

omit [Host] in
/-- Every answer of the server is legal when those on its runs are. -/
theorem Kept.legal {P : RunSystem → Prop} {s : Server} (h : Kept P s)
    (hlegal : ∀ sys, P sys → ∀ observation ∈ sys.history,
      observation.isIllegalTransition = false) :
    ∀ entry ∈ s.trace, entry.observation.isIllegalTransition = false := by
  intro entry hentry
  rcases h.answered entry hentry with ⟨ref, sys, howner, hsys⟩ | hanswer
  · refine hlegal sys (h.systems ref sys hsys) entry.observation ?_
    obtain ⟨run, -, rfl⟩ := Option.map_eq_some_iff.mp hsys
    exact List.mem_filterMap.mpr ⟨entry, hentry, by simp [howner]⟩
  · exact hanswer

end

end Server

end ActionHarbor
