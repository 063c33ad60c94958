import ActionHarbor.ForStd.Draining
import ActionHarbor.Spec.Authority
import ActionHarbor.Spec.RunEffects
import Mathlib.Algebra.BigOperators.Group.Finset.Piecewise

/-!
# Every request is answered

A request is answered once, by its own turn or by the step that resumes it. What is in
flight needs no other request to come to its end: the timer ends a race, the refusal is
on its way, and the adapters answer a lookup at once. So the server comes to rest when
no more requests arrive, in whatever order it is scheduled.

## Key results

- `Server.answered_once`: a request is in flight, or has been answered once
- `Server.request_unhindered`: a request in flight ends by steps of its own
- `Server.comes_to_rest`: without new requests every request is answered
-/

namespace ActionHarbor

/-! ## What is left to do -/

/-- The steps a request has before it. -/
def RequestStage.work : RequestStage → ℕ
  | .waiting _ => 2
  | .settled _ => 1

/-- The step that ends a wait: the timer of a race, the refusal, or the answer to the
    lookup. -/
def Waiting.wakeStep (c : RequestId) (stamp : Stamp) : Waiting → ServerEvent
  | .executing _ => .timeout c stamp
  | .refused _ _ => .refuse c stamp
  | .lookingUp _ => .deliver c stamp

/-- The steps that end a request, with the event id and the clock readings they draw. -/
def RequestStage.ownSteps (c : RequestId) (stamp : Stamp) (now : Instant) :
    RequestStage → List ServerEvent
  | .waiting wait => [wait.wakeStep c stamp, .resume c now]
  | .settled _ => [.resume c now]

/-- They are steps of the request, and at most two. -/
theorem RequestStage.ownSteps_own (stage : RequestStage) (c : RequestId) (stamp : Stamp)
    (now : Instant) (nextRequest : RequestId) :
    (stage.ownSteps c stamp now).length ≤ 2 ∧
      ∀ e ∈ stage.ownSteps c stamp now, e.isRequest = false ∧ e.number nextRequest = c := by
  cases stage with
  | settled => simp [RequestStage.ownSteps, ServerEvent.isRequest, ServerEvent.number]
  | waiting waiting =>
    cases waiting <;>
      simp [RequestStage.ownSteps, Waiting.wakeStep, ServerEvent.isRequest, ServerEvent.number]

/-- The steps an adapter has before it. -/
def AdapterPromise.work : AdapterPromise → ℕ
  | .sleeping _ _ _ => 1
  | .executed _ | .lookedUp _ => 0

/-- Whether a request is in flight. -/
def presence (stage : Option RequestStage) (_ : Option AdapterPromise) : ℕ :=
  if stage.isSome then 1 else 0

/-- The steps that can be taken under one number. -/
def stepsLeft (stage : Option RequestStage) (promise : Option AdapterPromise) : ℕ :=
  (stage.map (·.work)).getD 0 + (promise.map (·.work)).getD 0

/-- The answers among what happened. -/
def answers (observations : List RunObservation) : List (Except RequestError Unit) :=
  observations.filterMap (·.answer)

@[simp] theorem answers_append (observations later : List RunObservation) :
    answers (observations ++ later) = answers observations ++ answers later :=
  List.filterMap_append

namespace Server

/-- A quantity of what is under each number, summed up. -/
def total (quantity : Option RequestStage → Option AdapterPromise → ℕ) (s : Server) : ℕ :=
  ∑ c ∈ Finset.range s.nextRequest, quantity ((s.requests c).map (·.2)) ((s.promises c).map (·.2))

/-- The requests in flight. -/
def inFlight (s : Server) : ℕ :=
  s.total presence

/-- The steps that can be taken without a new request. -/
def work (s : Server) : ℕ :=
  s.total stepsLeft

/-- The number of answers given so far. -/
def answered (s : Server) : ℕ :=
  (answers (s.trace.map (·.observation))).length

/-- The answers to one request, in the order they were given. -/
def answersTo (s : Server) (c : RequestId) : List (Except RequestError Unit) :=
  answers ((s.trace.filter fun entry => entry.request = c).map (·.observation))

/-! ## Sums over what is in flight -/

/-- Numbers not handed out yet add nothing. -/
private theorem Fresh.total_eq {s : Server} (hfresh : s.Fresh)
    (quantity : Option RequestStage → Option AdapterPromise → ℕ) (hnone : quantity none none = 0)
    {n : ℕ} (hn : s.nextRequest ≤ n) :
    s.total quantity = ∑ c ∈ Finset.range n,
      quantity ((s.requests c).map (·.2)) ((s.promises c).map (·.2)) := by
  refine Finset.sum_subset (Finset.range_mono hn) fun c _ hc => ?_
  have hle : s.nextRequest ≤ c := Nat.le_of_not_lt (by simpa using hc)
  rw [hfresh.requests c hle, hfresh.promises c hle]
  exact hnone

/-- Writing one summand. -/
private theorem sum_update_add {n c : ℕ} (hc : c < n) (f : ℕ → ℕ) (b : ℕ) :
    ∑ x ∈ Finset.range n, Function.update f c b x + f c = ∑ x ∈ Finset.range n, f x + b := by
  have hmem : c ∈ Finset.range n := Finset.mem_range.mpr hc
  rw [Finset.sum_update_of_mem hmem, ← Finset.sum_sdiff (Finset.singleton_subset_iff.mpr hmem),
    Finset.sum_singleton]
  omega

/-- Writing under one number changes its summand. -/
theorem Fresh.total_apply {s : Server} (hfresh : s.Fresh)
    (quantity : Option RequestStage → Option AdapterPromise → ℕ) (hnone : quantity none none = 0)
    (ref : RunRef) (c : RequestId) (effect : RunEffect) :
    (s.apply ref c effect).total quantity +
        quantity ((s.requests c).map (·.2)) ((s.promises c).map (·.2)) =
      s.total quantity + quantity effect.stage effect.promise := by
  rw [hfresh.total_eq quantity hnone (Nat.le_max_left _ (c + 1)),
    ← sum_update_add (Nat.lt_of_lt_of_le (Nat.lt_succ_self c) (Nat.le_max_right _ _)), total]
  -- what is summed up afterwards is written at `c` only
  have hsummand : (fun c' => quantity (((s.apply ref c effect).requests c').map (·.2))
        (((s.apply ref c effect).promises c').map (·.2))) =
      Function.update (fun c' => quantity ((s.requests c').map (·.2)) ((s.promises c').map (·.2))) c
        (quantity effect.stage effect.promise) := by
    funext c'
    by_cases hc : c' = c
    · subst hc
      simp only [apply, Function.update_self, Option.map_map, Function.comp_def, Option.map_id']
    · simp [apply, hc]
  exact congrArg (fun f => ∑ x ∈ Finset.range _, f x + _) hsummand

/-- The summand of a number, told by the run that owns it. -/
theorem map_snd_eq_ofRun {α : Type} {ref : RunRef} {entry : Option (RunRef × α)}
    (howner : ∀ owner a, entry = some (owner, a) → owner = ref) :
    entry.map (·.2) = ofRun ref entry := by
  cases entry with
  | none => rfl
  | some entry =>
    obtain ⟨owner, a⟩ := entry
    obtain rfl := howner owner a rfl
    simp [ofRun]

end Server

/-! ## What one effect does -/

/-- A turn answers its request or leaves it in flight. -/
theorem Turn.answers_once (turn : Turn) :
    (answers turn.observations).length + presence turn.stage turn.promise = 1 := by
  have hminted : answers (turn.minted.map RunObservation.minted).toList = [] := by
    cases turn.minted <;> rfl
  have hprogress : (answers (Turn.RequestProgress.observations turn.progress)).length +
      presence turn.stage turn.promise = 1 := by
    rw [Turn.stage]
    cases turn.progress with
    | responded => rfl
    | calling progress =>
      cases progress with
      | done => rfl
      | waiting waiting => cases waiting <;> rfl
  rw [Turn.observations, answers_append, hminted, List.nil_append, hprogress]

/-- It leaves at most three steps: the adapter's, the end of the wait, the answer. -/
theorem Turn.stepsLeft_le (turn : Turn) : stepsLeft turn.stage turn.promise ≤ 3 := by
  rw [Turn.stage, Turn.promise]
  cases turn.progress with
  | responded => exact Nat.zero_le 3
  | calling progress =>
    cases progress with
    | done => show 1 + 0 ≤ 3; omega
    | waiting waiting => cases waiting <;> simp [stepsLeft, RequestStage.work, AdapterPromise.work]

/-- A request is answered or in flight, with at most three steps before it. -/
structure RunEffect.Admits (effect : RunEffect) : Prop where
  answers : (answers effect.observations).length + presence effect.stage effect.promise = 1
  steps : stepsLeft effect.stage effect.promise ≤ 3

/-- Any other step takes one of the steps left; only the last one of a request answers it. -/
structure RunEffect.Advances (effect : RunEffect) (stage : Option RequestStage)
    (promise : Option AdapterPromise) : Prop where
  answers : (answers effect.observations).length + presence effect.stage effect.promise =
    presence stage promise
  steps : stepsLeft effect.stage effect.promise + 1 = stepsLeft stage promise

/-- A request answered at once. -/
private theorem RunEffect.admits_answered (registry : CapabilityRegistry) (run : RunRecord)
    {observations : List RunObservation}
    (hanswers : (ActionHarbor.answers observations).length = 1) :
    RunEffect.Admits ⟨registry, run, none, none, observations⟩ where
  answers := hanswers
  steps := Nat.zero_le 3

/-- A request that took its turn. -/
theorem RunEffect.admits_turn (turn : Turn) : (RunEffect.ofTurn turn).Admits where
  answers := turn.answers_once
  steps := turn.stepsLeft_le

section
variable [Host]

/-- Any request on a run. -/
theorem RunRecord.requestEffect_admits {registry : CapabilityRegistry} {run : RunRecord}
    {request : Request} {effect : RunEffect}
    (h : run.requestEffect registry request = some effect) : effect.Admits := by
  have htake : ∀ result : Except RequestError Turn,
      (RunEffect.take registry run result).Admits := by
    intro result
    cases result with
    | error error => exact RunEffect.admits_answered registry run rfl
    | ok turn => exact RunEffect.admits_turn turn
  cases request with
  | createRun => cases h
  | approveRun | replayRun | reconcileRun =>
    obtain rfl := Option.some.inj h
    exact htake _
  | simulateDrift _ now =>
    obtain rfl := Option.some.inj h
    cases simulateDrift run now with
    | error error => exact RunEffect.admits_answered registry run rfl
    | ok drifted => exact RunEffect.admits_answered registry drifted rfl
  | verifyRunLedger _ stamp =>
    obtain rfl := Option.some.inj h
    cases verifyRunLedger run stamp with
    | error error => exact RunEffect.admits_answered registry run rfl
    | ok checked => exact RunEffect.admits_answered registry checked.1 rfl

/-- The end of a wait. -/
private theorem RunRecord.wakeEffect_advances {registry : CapabilityRegistry} {run : RunRecord}
    {stage : Option RequestStage} {promise : Option AdapterPromise} {wakeup : Wakeup}
    {stamp : Stamp} {effect : RunEffect}
    (h : run.wakeEffect registry stage promise wakeup stamp = some effect) :
    effect.Advances stage promise := by
  unfold RunRecord.wakeEffect at h
  split at h
  · rename_i waiting
    obtain ⟨⟨shared, settled⟩, -, rfl⟩ := Option.map_eq_some_iff.mp h
    refine ⟨rfl, ?_⟩
    simp only [stepsLeft, Option.map_some, Option.getD_some, RequestStage.work]
    omega
  · cases h

/-- A step that is no request. -/
theorem RunRecord.effect_advances {registry : CapabilityRegistry} {run : RunRecord}
    {stage : Option RequestStage} {promise : Option AdapterPromise} {e : ServerEvent}
    {effect : RunEffect} (he : e.isRequest = false)
    (h : run.effect registry stage promise e = some effect) : effect.Advances stage promise := by
  cases e with
  | request => cases he
  | execute c draw =>
    simp only [RunRecord.effect] at h
    split at h
    · obtain rfl := Option.some.inj h
      exact ⟨Nat.zero_add _, rfl⟩
    · cases h
  | deliver c stamp =>
    obtain ⟨own, -, h⟩ := Option.bind_eq_some_iff.mp h
    obtain ⟨wakeup, -, h⟩ := Option.bind_eq_some_iff.mp h
    exact RunRecord.wakeEffect_advances h
  | timeout c stamp => exact RunRecord.wakeEffect_advances h
  | refuse c stamp => exact RunRecord.wakeEffect_advances h
  | resume c now =>
    simp only [RunRecord.effect] at h
    split at h
    · obtain rfl := Option.some.inj h
      refine ⟨rfl, ?_⟩
      simp only [stepsLeft, Option.map_none, Option.map_some, Option.getD_none, Option.getD_some,
        RequestStage.work]
      omega
    · cases h

/-! ## One step of the server -/

namespace Server

omit [Host] in
/-- Applying an effect adds its answers. -/
private theorem answered_apply (s : Server) (ref : RunRef) (c : RequestId) (effect : RunEffect) :
    (s.apply ref c effect).answered = s.answered + (answers effect.observations).length := by
  simp [answered, apply, entriesOn, Function.comp_def]

omit [Host] in
/-- Registering a run id hands out one number more. -/
private theorem Fresh.register {s : Server} (hfresh : s.Fresh) (runId : JsString) :
    (s.register runId).Fresh where
  records ref href := hfresh.records ref (Nat.le_of_succ_le href)
  requests := hfresh.requests
  promises := hfresh.promises
  requestRefs c ref stage h := Nat.lt_succ_of_lt (hfresh.requestRefs c ref stage h)
  promiseRefs c ref promise h := Nat.lt_succ_of_lt (hfresh.promiseRefs c ref promise h)
  traceRefs entry h ref href := Nat.lt_succ_of_lt (hfresh.traceRefs entry h ref href)
  owners := hfresh.owners

omit [Host] in
/-- A request that takes its turn under the next number. -/
private theorem Fresh.apply_admits {s : Server} (hfresh : s.Fresh) (ref : RunRef)
    {effect : RunEffect} (h : effect.Admits) :
    (s.apply ref s.nextRequest effect).answered + (s.apply ref s.nextRequest effect).inFlight =
        s.answered + s.inFlight + 1 ∧
      (s.apply ref s.nextRequest effect).work ≤ s.work + 3 := by
  have hflight := hfresh.total_apply presence rfl ref s.nextRequest effect
  have hwork := hfresh.total_apply stepsLeft rfl ref s.nextRequest effect
  -- the number was not in use
  rw [hfresh.requests _ (Nat.le_refl _), hfresh.promises _ (Nat.le_refl _)] at hflight hwork
  have hanswers := h.answers
  have hsteps := h.steps
  rw [answered_apply]
  simp only [inFlight, work, Option.map_none] at hflight hwork ⊢
  have hnone : presence none none = 0 := rfl
  have hidle : stepsLeft none none = 0 := rfl
  constructor <;> omega

/-- A request is answered or in flight. -/
theorem step_request {model : ModelAdapter} {s s' : Server} {e : ServerEvent} (hfresh : s.Fresh)
    (hlinked : s.Linked) (he : e.isRequest = true) (hstep : s.step model e = some s') :
    s'.answered + s'.inFlight = s.answered + s.inFlight + 1 ∧ s'.work ≤ s.work + 3 := by
  cases step_cases hfresh hlinked hstep with
  | idle error =>
    -- an answer, and nothing in flight
    have hflight : (s.refuse none error).inFlight = s.inFlight :=
      (hfresh.total_eq presence rfl (Nat.le_succ _)).symm
    have hwork : (s.refuse none error).work = s.work :=
      (hfresh.total_eq stepsLeft rfl (Nat.le_succ _)).symm
    have hanswered : (s.refuse none error).answered = s.answered + 1 := by
      simp [answered, refuse, answers, RunObservation.answer]
    omega
  | born scenarioId draw run turn =>
    exact Fresh.apply_admits (s := s.register turn.run.runId)
      (hfresh.register _) s.state.nextRef (RunEffect.admits_turn turn)
  | acted ref run effect hactor hrecord heffect =>
    cases e with
    | request request =>
      exact hfresh.apply_admits ref (RunRecord.requestEffect_admits heffect)
    | execute | deliver | timeout | refuse | resume => cases he

/-- Any other step takes one of the steps left. -/
theorem step_advance {model : ModelAdapter} {s s' : Server} {e : ServerEvent} (hfresh : s.Fresh)
    (hlinked : s.Linked) (he : e.isRequest = false) (hstep : s.step model e = some s') :
    s'.answered + s'.inFlight = s.answered + s.inFlight ∧ s'.work + 1 = s.work := by
  cases step_cases hfresh hlinked hstep with
  | idle _ _ hrequest => cases he.symm.trans hrequest
  | born _ _ _ _ hcreate => rw [hcreate] at he; cases he
  | acted ref run effect hactor hrecord heffect =>
    obtain ⟨hrequest, hpromise⟩ := hfresh.number_owner hactor
    have hadvances := RunRecord.effect_advances he heffect
    have hflight := hfresh.total_apply presence rfl ref (e.number s.nextRequest) effect
    have hwork := hfresh.total_apply stepsLeft rfl ref (e.number s.nextRequest) effect
    rw [map_snd_eq_ofRun hrequest, map_snd_eq_ofRun hpromise] at hflight hwork
    have hanswers := hadvances.answers
    have hsteps := hadvances.steps
    rw [answered_apply]
    simp only [inFlight, work] at hflight hwork ⊢
    constructor <;> omega

/-! ## Each request by its number -/

/-- A request that has arrived is in flight or has its one answer; one that has not is
    neither. -/
def Accounted (s : Server) : Prop :=
  ∀ c, (s.answersTo c).length + presence ((s.requests c).map (·.2)) ((s.promises c).map (·.2)) =
    if c < s.nextRequest then 1 else 0

omit [Host] in
/-- Applying an effect adds its answers under its number. -/
private theorem answersTo_apply_self (s : Server) (ref : RunRef) (c : RequestId)
    (effect : RunEffect) :
    (s.apply ref c effect).answersTo c = s.answersTo c ++ answers effect.observations := by
  simp [answersTo, apply, entriesOn, List.filter_map, Function.comp_def]

omit [Host] in
/-- The other requests get none. -/
private theorem answersTo_apply_of_ne (s : Server) (ref : RunRef) {c other : RequestId}
    (effect : RunEffect) (h : other ≠ c) :
    (s.apply ref c effect).answersTo other = s.answersTo other := by
  simp [answersTo, apply, entriesOn, List.filter_map, Function.comp_def, h.symm]

omit [Host] in
/-- An effect whose answer and stage make up for what was under its number. -/
private theorem Accounted.apply {s : Server} (h : s.Accounted) (ref : RunRef) {c : RequestId}
    {effect : RunEffect} (hc : c ≤ s.nextRequest)
    (hself : (answers effect.observations).length + presence effect.stage effect.promise +
        (if c < s.nextRequest then 1 else 0) =
      presence ((s.requests c).map (·.2)) ((s.promises c).map (·.2)) + 1) :
    (s.apply ref c effect).Accounted := by
  intro other
  by_cases hother : other = c
  · subst hother
    have hbefore := h other
    have hstage : (((s.apply ref other effect).requests other).map (·.2)) = effect.stage := by
      simp [Server.apply, Function.comp_def]
    have hpromise : (((s.apply ref other effect).promises other).map (·.2)) = effect.promise := by
      simp [Server.apply, Function.comp_def]
    have harrived : other < (s.apply ref other effect).nextRequest :=
      Nat.lt_of_lt_of_le (Nat.lt_succ_self other) (Nat.le_max_right _ _)
    rw [answersTo_apply_self, List.length_append, hstage, hpromise, if_pos harrived]
    omega
  · -- the number is not written, and it has arrived if it had before
    have harrived : other < (s.apply ref c effect).nextRequest ↔ other < s.nextRequest := by
      refine lt_max_iff.trans (or_iff_left_of_imp fun hle => ?_)
      exact Nat.lt_of_lt_of_le (Nat.lt_of_le_of_ne (Nat.lt_succ_iff.mp hle) hother) hc
    have hstage : (s.apply ref c effect).requests other = s.requests other :=
      Function.update_of_ne hother ..
    have hpromise : (s.apply ref c effect).promises other = s.promises other :=
      Function.update_of_ne hother ..
    simp only [answersTo_apply_of_ne s ref effect hother, hstage, hpromise, harrived]
    exact h other

omit [Host] in
/-- Nothing is under the next number. -/
private theorem Fresh.presence_nextRequest {s : Server} (hfresh : s.Fresh) :
    presence ((s.requests s.nextRequest).map (·.2)) ((s.promises s.nextRequest).map (·.2)) = 0 := by
  rw [hfresh.requests _ (Nat.le_refl _)]
  rfl

omit [Host] in
/-- A request that takes its turn under the next number. -/
private theorem Accounted.admits {s : Server} (h : s.Accounted) (hfresh : s.Fresh) (ref : RunRef)
    {effect : RunEffect} (hadmits : effect.Admits) :
    (s.apply ref s.nextRequest effect).Accounted := by
  apply h.apply ref (Nat.le_refl _)
  rw [hadmits.answers, hfresh.presence_nextRequest, if_neg (Nat.lt_irrefl _)]

omit [Host] in
/-- A request that is refused without a run. -/
private theorem Accounted.refuse {s : Server} (h : s.Accounted) (hfresh : s.Fresh)
    (error : RequestError) : (s.refuse none error).Accounted := by
  intro c
  have hbefore := h c
  by_cases hc : c = s.nextRequest
  · subst hc
    have hanswers : (s.refuse none error).answersTo s.nextRequest =
        s.answersTo s.nextRequest ++ [.error error] := by
      simp [answersTo, Server.refuse, answers, RunObservation.answer]
    have hpresence := hfresh.presence_nextRequest
    have harrived : s.nextRequest < (s.refuse none error).nextRequest := Nat.lt_succ_self _
    rw [if_neg (Nat.lt_irrefl _)] at hbefore
    rw [hanswers, List.length_append, List.length_singleton, if_pos harrived]
    simp only [Server.refuse]
    omega
  · have hanswers : (s.refuse none error).answersTo c = s.answersTo c := by
      simp [answersTo, Server.refuse, Ne.symm hc]
    have harrived : c < (s.refuse none error).nextRequest ↔ c < s.nextRequest :=
      Nat.lt_succ_iff_lt_or_eq.trans (or_iff_left hc)
    simp only [hanswers, harrived]
    exact hbefore

/-- A step of the server accounts for its request. -/
private theorem Accounted.step {model : ModelAdapter} {s s' : Server} {e : ServerEvent}
    (h : s.Accounted) (hfresh : s.Fresh) (hlinked : s.Linked) (hstep : s.step model e = some s') :
    s'.Accounted ∧ s'.nextRequest = s.nextRequest + if e.isRequest then 1 else 0 := by
  cases step_cases hfresh hlinked hstep with
  | idle error _ hrequest =>
    rw [if_pos hrequest]
    exact ⟨h.refuse hfresh error, rfl⟩
  | born scenarioId draw run turn hcreate =>
    rw [hcreate]
    exact ⟨Accounted.admits (s := s.register turn.run.runId) h (hfresh.register _) _
      (RunEffect.admits_turn turn), Nat.max_eq_right (Nat.le_succ _)⟩
  | acted ref run effect hactor hrecord heffect =>
    cases he : e.isRequest with
    | true =>
      cases e with
      | request request =>
        exact ⟨h.admits hfresh ref (RunRecord.requestEffect_admits heffect),
          Nat.max_eq_right (Nat.le_succ _)⟩
      | execute | deliver | timeout | refuse | resume => cases he
    | false =>
      obtain ⟨hrequest, hpromise⟩ := hfresh.number_owner hactor
      have hadvances := RunRecord.effect_advances he heffect
      rw [← map_snd_eq_ofRun hrequest, ← map_snd_eq_ofRun hpromise] at hadvances
      -- there is a step left to take, so the number has been handed out
      have hc : e.number s.nextRequest < s.nextRequest := by
        by_contra hge
        have hsteps := hadvances.steps
        rw [hfresh.requests _ (Nat.le_of_not_lt hge),
          hfresh.promises _ (Nat.le_of_not_lt hge)] at hsteps
        exact absurd hsteps (Nat.succ_ne_zero _)
      refine ⟨h.apply ref hc.le ?_, Nat.max_eq_left hc⟩
      rw [hadvances.answers, if_pos hc]

/-! ## Whole runs -/

/-- The requests among the steps of a run. -/
def arrivals (events : List ServerEvent) : ℕ :=
  events.countP (·.isRequest)

/-- From any state whose numbers are in order. -/
private theorem run_answers {model : ModelAdapter} {s s' : Server} {events : List ServerEvent}
    (hfresh : s.Fresh) (hlinked : s.Linked)
    (hrun : Transition.run (step model) s events = some s') :
    s'.answered + s'.inFlight = s.answered + s.inFlight + arrivals events ∧
      events.length + s'.work ≤ s.work + 4 * arrivals events := by
  induction events generalizing s with
  | nil =>
    obtain rfl := Option.some.inj hrun
    simp [arrivals]
  | cons e events ih =>
    obtain ⟨m, hm, hrest⟩ := Transition.run_cons_eq_some.mp hrun
    have hstepped : Stepped model (fun _ _ => True) s m :=
      step_system hfresh (fun _ _ _ _ _ _ _ => trivial) hm
    obtain ⟨hanswered, hlength⟩ :=
      ih hstepped.fresh ((step_cases hfresh hlinked hm).linked hlinked) hrest
    rw [arrivals, List.countP_cons, List.length_cons]
    rw [arrivals] at hanswered hlength
    cases he : e.isRequest with
    | true =>
      obtain ⟨hone, hwork⟩ := step_request hfresh hlinked he hm
      rw [if_pos rfl]
      omega
    | false =>
      obtain ⟨hone, hwork⟩ := step_advance hfresh hlinked he hm
      rw [if_neg (by simp)]
      omega

/-- The requests that arrived are answered or in flight. -/
private theorem answered_add_inFlight {model : ModelAdapter} {events : List ServerEvent}
    {s : Server} (hrun : Transition.run (step model) {} events = some s) :
    s.answered + s.inFlight = arrivals events := by
  have hanswered := (run_answers fresh_empty linked_empty hrun).1
  have hempty : answered {} + inFlight {} = 0 := rfl
  omega

/-- Each request is accounted for, and the requests are numbered as they arrive. -/
private theorem accounted_run {model : ModelAdapter} {s s' : Server} {events : List ServerEvent}
    (h : s.Accounted) (hfresh : s.Fresh) (hlinked : s.Linked)
    (hrun : Transition.run (step model) s events = some s') :
    s'.Accounted ∧ s'.nextRequest = s.nextRequest + arrivals events := by
  induction events generalizing s with
  | nil =>
    obtain rfl := Option.some.inj hrun
    exact ⟨h, rfl⟩
  | cons e events ih =>
    obtain ⟨m, hm, hrest⟩ := Transition.run_cons_eq_some.mp hrun
    have hstepped : Stepped model (fun _ _ => True) s m :=
      step_system hfresh (fun _ _ _ _ _ _ _ => trivial) hm
    obtain ⟨haccounted, hnext⟩ := h.step hfresh hlinked hm
    obtain ⟨hafter, hlast⟩ :=
      ih haccounted hstepped.fresh ((step_cases hfresh hlinked hm).linked hlinked) hrest
    refine ⟨hafter, ?_⟩
    rw [hlast, hnext, arrivals, arrivals, List.countP_cons, Nat.add_assoc]
    exact congrArg (s.nextRequest + ·) (Nat.add_comm _ _)

/-- So it is in every reachable state. -/
private theorem accounted_of_run {model : ModelAdapter} {events : List ServerEvent} {s : Server}
    (hrun : Transition.run (step model) {} events = some s) :
    s.Accounted ∧ s.nextRequest = arrivals events := by
  have hnone : Accounted {} := fun _ => rfl
  obtain ⟨haccounted, hnext⟩ := accounted_run hnone fresh_empty linked_empty hrun
  exact ⟨haccounted, hnext.trans (Nat.zero_add _)⟩

omit [Host] in
/-- What is accounted for under a number that has been handed out. -/
private theorem Accounted.of_lt {s : Server} (h : s.Accounted) {c : RequestId}
    (hc : c < s.nextRequest) :
    (s.requests c).isSome ∧ s.answersTo c = [] ∨
      s.requests c = none ∧ ∃ outcome, s.answersTo c = [outcome] := by
  have hone := h c
  rw [if_pos hc] at hone
  cases hrequest : s.requests c with
  | some entry =>
    rw [hrequest] at hone
    have hlength : (s.answersTo c).length + 1 = 1 := hone
    exact .inl ⟨rfl, List.eq_nil_of_length_eq_zero (by omega)⟩
  | none =>
    rw [hrequest] at hone
    exact .inr ⟨rfl, List.length_eq_one_iff.mp hone⟩

/-- Requests are numbered in the order they arrive. In every reachable state each of them
    is in flight and has no answer, or is done and has exactly one; no other number has been
    answered, and no run is longer than four steps for each request. -/
theorem answered_once {model : ModelAdapter} {events : List ServerEvent} {s : Server}
    (hrun : Transition.run (step model) {} events = some s) :
    s.nextRequest = arrivals events ∧
      (∀ c < s.nextRequest, (s.requests c).isSome ∧ s.answersTo c = [] ∨
        s.requests c = none ∧ ∃ outcome, s.answersTo c = [outcome]) ∧
      (∀ c, s.nextRequest ≤ c → s.requests c = none ∧ s.answersTo c = []) ∧
      s.answered + s.inFlight = arrivals events ∧
      events.length + s.work ≤ 4 * arrivals events := by
  obtain ⟨haccounted, hnext⟩ := accounted_of_run hrun
  refine ⟨hnext, fun c hc => haccounted.of_lt hc, fun c hc => ?_, answered_add_inFlight hrun, ?_⟩
  · have hfresh := (run_fresh hrun).requests c hc
    have hzero := haccounted c
    rw [hfresh, if_neg (Nat.not_lt_of_le hc)] at hzero
    exact ⟨hfresh, List.eq_nil_of_length_eq_zero hzero⟩
  · have hlength := (run_answers fresh_empty linked_empty hrun).2
    have hidle : work {} = 0 := rfl
    omega

/-! ## What a request in flight waits for -/

omit [Host] in
/-- A lookup that is waited for has been answered. -/
def LookedUp (stage : Option RequestStage) (promise : Option AdapterPromise) : Prop :=
  ∀ call, stage = some (.waiting (.lookingUp call)) → ∃ answer, promise = some (.lookedUp answer)

omit [Host] in
/-- A turn that looks its operation up has the answer. -/
theorem lookedUp_turn (turn : Turn) : LookedUp turn.stage turn.promise := by
  intro call hstage
  rw [Turn.stage] at hstage
  rw [Turn.promise]
  cases hprogress : turn.progress with
  | responded => rw [hprogress] at hstage; cases hstage
  | calling progress =>
    rw [hprogress] at hstage
    cases progress with
    | done => cases hstage
    | waiting waiting =>
      cases hstage
      exact ⟨_, rfl⟩

/-- Every step on a run keeps it so. -/
theorem lookedUp_step {C : RunSystem → CallReads → Prop} {sys sys' : RunSystem}
    (h : ∀ c, LookedUp (sys.requests c) (sys.promises c)) (hstep : RunStep C sys sys') :
    ∀ c, LookedUp (sys'.requests c) (sys'.promises c) := by
  have hchange : ∀ (run : RunRecord) (c : RequestId) (stage : Option RequestStage)
      (promise : Option AdapterPromise) (observations : List RunObservation),
      LookedUp stage promise → ∀ c',
        LookedUp ((sys.change run c stage promise observations).requests c')
          ((sys.change run c stage promise observations).promises c') := by
    intro run c stage promise observations hnew c'
    by_cases hc : c' = c
    · subst hc
      simpa using hnew
    · simpa [hc] using h c'
  cases hstep with
  | refused | drifted | checked => exact hchange _ _ _ _ _ fun _ hstage => by cases hstage
  | approved _ _ _ turn | replayed _ _ _ turn | reconciled _ _ _ turn =>
    exact hchange _ _ _ _ _ (lookedUp_turn turn)
  | executed c operation capability params draw adapter outcome hpromise =>
    -- a promise that still sleeps is not a lookup's
    refine hchange _ _ _ _ _ fun call hstage => ?_
    obtain ⟨answer, hanswer⟩ := h c call hstage
    cases hpromise.symm.trans hanswer
  | woke | resumed => exact hchange _ _ _ _ _ fun _ hstage => by cases hstage

/-- A new run starts so. -/
theorem lookedUp_born {model : ModelAdapter} {sys : RunSystem} (h : Born model sys) :
    ∀ c, LookedUp (sys.requests c) (sys.promises c) := by
  obtain ⟨scenarioId, draw, registry, run, c, hnew⟩ := h
  intro c'
  by_cases hc : c' = c
  · subst hc
    simpa [RunSystem.enter] using lookedUp_turn _
  · simp [RunSystem.enter, hc, LookedUp]

/-- What is known of the requests in flight in every reachable state. -/
structure Attended (s : Server) : Prop where
  fresh : s.Fresh
  linked : s.Linked
  records : ∀ ref < s.state.nextRef, (s.state.records ref).isSome
  lookups : ∀ ref sys, s.system ref = some sys →
    ∀ c, LookedUp (sys.requests c) (sys.promises c)

/-- One step keeps it. -/
private theorem Attended.step {model : ModelAdapter} {s s' : Server} {e : ServerEvent}
    (h : s.Attended) (hstep : s.step model e = some s') : s'.Attended := by
  have hstepped : Stepped model (fun _ _ => True) s s' :=
    step_system h.fresh (fun _ _ _ _ _ _ _ => trivial) hstep
  have hcases := step_cases h.fresh h.linked hstep
  refine ⟨hstepped.fresh, hcases.linked h.linked, fun ref href => ?_, fun ref sys hsys => ?_⟩
  · cases hcases with
    | idle => exact h.records ref href
    | born =>
      by_cases hnew : ref = s.state.nextRef
      · simp [apply, register, hnew]
      · have hold : ref < s.state.nextRef := Nat.lt_of_le_of_ne (Nat.lt_succ_iff.mp href) hnew
        simpa [apply, register, hnew] using h.records ref hold
    | acted actor =>
      by_cases hself : ref = actor
      · simp [apply, hself]
      · simpa [apply, hself] using h.records ref href
  · have hsystem := hstepped.systems ref
    rw [hsys] at hsystem
    generalize hold : s.system ref = old at hsystem
    cases hsystem with
    | unchanged => exact h.lookups ref sys hold
    | born _ hborn => exact lookedUp_born hborn
    | stepped before _ hrun => exact lookedUp_step (h.lookups ref before hold) hrun

/-- Every reachable state is attended. -/
theorem run_attended {model : ModelAdapter} {events : List ServerEvent} {s : Server}
    (hrun : Transition.run (step model) {} events = some s) : s.Attended := by
  refine Transition.run_invariant (P := Attended) (fun _ _ _ h hstep => h.step hstep) ?_ hrun
  exact {
    fresh := fresh_empty
    linked := linked_empty
    records := fun ref href => absurd href (Nat.not_lt_zero ref)
    lookups := fun _ _ h => by cases h }

/-! ## A request in flight goes on by itself -/

/-- A settled request is resumed. -/
theorem resume_enabled {s : Server} {c : RequestId} {ref : RunRef} {settled : Settled}
    {run : RunRecord} (hrequest : s.requests c = some (ref, .settled settled))
    (hrecord : s.state.records ref = some run) (now : Instant) :
    ∃ s' outcome, s.resume c now = some s' ∧ s'.requests = Function.update s.requests c none ∧
      s'.trace = s.trace ++ entriesOn c ref [.responded outcome] := by
  rw [resume, hrequest]
  simp only [hrecord, Option.map_some, Option.some.injEq]
  exact ⟨_, _, rfl, rfl, rfl⟩

/-- A wait that has what it waits for ends. -/
private theorem wake_enabled {s : Server} {c : RequestId} {ref : RunRef} {waiting : Waiting}
    {run : RunRecord} (wakeup : Wakeup) (stamp : Stamp)
    (hrequest : s.requests c = some (ref, .waiting waiting))
    (hrecord : s.state.records ref = some run)
    (hresume : (waiting.resume wakeup ⟨s.state.registry, run.operationStore, run.ledger⟩
      stamp).isSome) :
    ∃ s' settled record, s.wake c wakeup stamp = some s' ∧
      s'.requests = Function.update s.requests c (some (ref, .settled settled)) ∧
      s'.state.records ref = some record ∧ s'.trace = s.trace := by
  obtain ⟨⟨shared, settled⟩, hresume⟩ := Option.isSome_iff_exists.mp hresume
  rw [wake, hrequest]
  simp only [hrecord, Option.bind_some, hresume, Option.map_some, Option.some.injEq]
  exact ⟨_, settled, _, rfl, rfl, Function.update_self .., rfl⟩

/-- Every wait has something that ends it, whatever event id and clock reading it draws. -/
theorem wakeStep_enabled (model : ModelAdapter) {s : Server} (h : s.Attended) {c : RequestId}
    {ref : RunRef} {waiting : Waiting} (hrequest : s.requests c = some (ref, .waiting waiting))
    (stamp : Stamp) :
    ∃ s' settled record, s.step model (waiting.wakeStep c stamp) = some s' ∧
      s'.requests = Function.update s.requests c (some (ref, .settled settled)) ∧
      s'.state.records ref = some record ∧ s'.trace = s.trace := by
  obtain ⟨run, hrecord⟩ := Option.isSome_iff_exists.mp
    (h.records ref (h.fresh.requestRefs c ref _ hrequest))
  cases waiting with
  | executing call => exact wake_enabled .timerFired stamp hrequest hrecord rfl
  | refused call reasonCode => exact wake_enabled .refusalDelivered stamp hrequest hrecord rfl
  | lookingUp call =>
    have hsystem : s.system ref = some (s.view ref run) := by rw [system, hrecord]; rfl
    obtain ⟨answer, hanswer⟩ := h.lookups ref _ hsystem c call (ofRun_eq_some.mpr hrequest)
    have hpromise : s.promises c = some (ref, .lookedUp answer) := ofRun_eq_some.mp hanswer
    obtain ⟨s', settled, record, hwake, hwoken⟩ :=
      wake_enabled (.lookupSettled (.resolved answer)) stamp hrequest hrecord rfl
    refine ⟨s', settled, record, ?_, hwoken⟩
    rw [Waiting.wakeStep, step, hpromise]
    exact hwake

/-- A request in flight is answered by its own steps, at most two, whatever event id and
    clock readings they draw; nothing else happens, and the other requests stay where they
    are. -/
theorem request_unhindered {model : ModelAdapter} {events : List ServerEvent} {s : Server}
    (hrun : Transition.run (step model) {} events = some s) {c : RequestId} {ref : RunRef}
    {stage : RequestStage} (hrequest : s.requests c = some (ref, stage)) (stamp : Stamp)
    (now : Instant) :
    (stage.ownSteps c stamp now).length ≤ 2 ∧
      (∀ e ∈ stage.ownSteps c stamp now, e.isRequest = false ∧ e.number s.nextRequest = c) ∧
      ∃ s' outcome, Transition.run (step model) s (stage.ownSteps c stamp now) = some s' ∧
        s'.requests = Function.update s.requests c none ∧
        s'.trace = s.trace ++ entriesOn c ref [.responded outcome] ∧
        s'.answersTo c = [outcome] := by
  obtain ⟨hlength, hown⟩ := stage.ownSteps_own c stamp now s.nextRequest
  refine ⟨hlength, hown, ?_⟩
  have hattended := run_attended hrun
  -- what is in flight has no answer yet
  have hanswer : ∀ {s' : Server} {outcome : Except RequestError Unit},
      s'.trace = s.trace ++ entriesOn c ref [.responded outcome] →
        s'.answersTo c = [outcome] := by
    intro s' outcome htrace
    have hnone : s.answersTo c = [] := by
      have hc : c < s.nextRequest := hattended.fresh.lt_nextRequest (.inl (by simp [hrequest]))
      rcases (accounted_of_run hrun).1.of_lt hc with ⟨-, hnone⟩ | ⟨hdone, -⟩
      · exact hnone
      · cases hrequest.symm.trans hdone
    rw [answersTo] at hnone ⊢
    rw [htrace, List.filter_append, List.map_append, answers_append, hnone]
    simp [entriesOn, answers, RunObservation.answer]
  cases stage with
  | settled settled =>
    obtain ⟨run, hrecord⟩ := Option.isSome_iff_exists.mp
      (hattended.records ref (hattended.fresh.requestRefs c ref _ hrequest))
    obtain ⟨s', outcome, hresume, hrequests, htrace⟩ := resume_enabled hrequest hrecord now
    exact ⟨s', outcome, Transition.run_cons_eq_some.mpr ⟨s', hresume, rfl⟩, hrequests, htrace,
      hanswer htrace⟩
  | waiting waiting =>
    obtain ⟨m, settled, record, hwake, hwoken, hrecord, hquiet⟩ :=
      wakeStep_enabled model hattended hrequest stamp
    have hsettled : m.requests c = some (ref, .settled settled) := by
      rw [hwoken, Function.update_self]
    obtain ⟨s', outcome, hresume, hrequests, htrace⟩ := resume_enabled hsettled hrecord now
    rw [hquiet] at htrace
    refine ⟨s', outcome, ?_, ?_, htrace, hanswer htrace⟩
    · exact Transition.run_cons_eq_some.mpr
        ⟨m, hwake, Transition.run_cons_eq_some.mpr ⟨s', hresume, rfl⟩⟩
    · rw [hrequests, hwoken, Function.update_idem]

/-! ## Coming to rest -/

/-- Nothing is in flight. -/
def Idle (s : Server) : Prop :=
  ∀ c, s.requests c = none

/-- Without new requests the server drains: each step takes one of those left. -/
private theorem drains (model : ModelAdapter) :
    Transition.Drains (step model) Attended (·.isRequest = false) work Idle where
  keeps _ _ _ hs _ hstep := hs.step hstep
  lowers s e s' hs he hstep := (step_advance hs.fresh hs.linked he hstep).2
  progress s hs hidle := by
    simp only [Idle, not_forall] at hidle
    obtain ⟨c, hflight⟩ := hidle
    obtain ⟨⟨ref, stage⟩, hrequest⟩ := Option.ne_none_iff_exists'.mp hflight
    cases stage with
    | settled settled =>
      obtain ⟨run, hrecord⟩ := Option.isSome_iff_exists.mp
        (hs.records ref (hs.fresh.requestRefs c ref _ hrequest))
      obtain ⟨s', -, hresume, -⟩ := resume_enabled hrequest hrecord 0
      exact ⟨.resume c 0, s', rfl, hresume⟩
    | waiting waiting =>
      obtain ⟨s', -, -, hwake, -⟩ := wakeStep_enabled model hs hrequest ⟨[], 0⟩
      have hown := (RequestStage.waiting waiting).ownSteps_own c ⟨[], 0⟩ 0 s.nextRequest |>.2
      exact ⟨_, s', (hown _ (List.mem_cons_self ..)).1, hwake⟩

omit [Host] in
/-- Then no request is counted. -/
private theorem Idle.inFlight_eq_zero {s : Server} (h : s.Idle) : s.inFlight = 0 := by
  rw [inFlight, total]
  refine Finset.sum_eq_zero fun c _ => ?_
  rw [h c]
  rfl

/-- Every request that has arrived has exactly one answer. -/
def AllAnswered (s : Server) : Prop :=
  ∀ c < s.nextRequest, ∃ outcome, s.answersTo c = [outcome]

/-- Once no more requests arrive, the server comes to rest with every request answered:
    it cannot take more steps than are left, it can always get there, and where it cannot
    go on it has got there. -/
theorem comes_to_rest {model : ModelAdapter} {events : List ServerEvent} {s : Server}
    (hrun : Transition.run (step model) {} events = some s) :
    (∀ later s', (∀ e ∈ later, e.isRequest = false) →
      Transition.run (step model) s later = some s' →
        later.length + s'.work = s.work ∧
        ((∀ e, e.isRequest = false → s'.step model e = none) →
          s'.Idle ∧ s'.AllAnswered ∧ s'.nextRequest = arrivals events ∧
            s'.answered = arrivals events)) ∧
      ∃ later s', (∀ e ∈ later, e.isRequest = false) ∧
        Transition.run (step model) s later = some s' ∧ s'.Idle ∧ s'.AllAnswered ∧
        s'.nextRequest = arrivals events ∧ s'.answered = arrivals events := by
  have hattended := run_attended hrun
  have hdrains := drains model
  -- no request is forgotten: the ones that arrived are answered or in flight
  have hanswered : ∀ later s', (∀ e ∈ later, e.isRequest = false) →
      Transition.run (step model) s later = some s' → s'.Idle →
      s'.AllAnswered ∧ s'.nextRequest = arrivals events ∧ s'.answered = arrivals events := by
    intro later s' hlater hrest hidle
    have hwhole := Transition.run_append_eq_some.mpr ⟨s, hrun, hrest⟩
    obtain ⟨haccounted, hnext⟩ := accounted_of_run hwhole
    have hall := answered_add_inFlight hwhole
    have hnone : arrivals later = 0 := by
      rw [arrivals, List.countP_eq_zero]
      exact fun e he => by rw [hlater e he]; exact Bool.false_ne_true
    have hsplit : arrivals (events ++ later) = arrivals events := by
      rw [arrivals, List.countP_append]
      exact congrArg (arrivals events + ·) hnone
    rw [hsplit] at hnext hall
    rw [hidle.inFlight_eq_zero] at hall
    refine ⟨fun c hc => ?_, hnext, hall⟩
    rcases haccounted.of_lt hc with ⟨hflight, -⟩ | ⟨-, hanswer⟩
    · rw [hidle c] at hflight
      cases hflight
    · exact hanswer
  constructor
  · intro later s' hlater hrest
    refine ⟨hdrains.length_add hattended hlater hrest, fun hstuck => ?_⟩
    have hidle := hdrains.rest_of_stuck hattended hlater hrest hstuck
    exact ⟨hidle, hanswered later s' hlater hrest hidle⟩
  · obtain ⟨later, s', hlater, hrest, hidle⟩ := hdrains.exists_rest hattended
    exact ⟨later, s', hlater, hrest, hidle, hanswered later s' hlater hrest hidle⟩

end Server

end

namespace Sample

section
attribute [local instance] node

/-- A ticket whose call waits for its adapter. -/
def openTicket : List ServerEvent :=
  [.request (.createRun (js "unknown_outcome") createDraw)]

private theorem openTicket_waits :
    ∃ s ∈ Transition.run (Server.step FakeModelAdapter.propose) {} openTicket,
      (s.requests 0).isSome := by
  decide +kernel

theorem openTicket_answered_once :
    ∃ s, Transition.run (Server.step FakeModelAdapter.propose) {} openTicket = some s ∧
      s.nextRequest = Server.arrivals openTicket ∧
      (∀ c < s.nextRequest, (s.requests c).isSome ∧ s.answersTo c = [] ∨
        s.requests c = none ∧ ∃ outcome, s.answersTo c = [outcome]) ∧
      (∀ c, s.nextRequest ≤ c → s.requests c = none ∧ s.answersTo c = []) ∧
      s.answered + s.inFlight = Server.arrivals openTicket ∧
      openTicket.length + s.work ≤ 4 * Server.arrivals openTicket := by
  obtain ⟨s, hs, -⟩ := openTicket_waits
  exact ⟨s, hs, Server.answered_once hs⟩

theorem openTicket_unhindered :
    ∃ s ref stage s' outcome,
      Transition.run (Server.step FakeModelAdapter.propose) {} openTicket = some s ∧
      s.requests 0 = some (ref, stage) ∧
      Transition.run (Server.step FakeModelAdapter.propose) s
        (RequestStage.ownSteps 0 (stamp "evt_unknown") now stage) = some s' ∧
      s'.requests = Function.update s.requests 0 none ∧
      s'.trace = s.trace ++ entriesOn 0 ref [.responded outcome] ∧
      s'.answersTo 0 = [outcome] := by
  obtain ⟨s, hs, hflight⟩ := openTicket_waits
  obtain ⟨⟨ref, stage⟩, hrequest⟩ := Option.isSome_iff_exists.mp hflight
  obtain ⟨-, -, s', outcome, hended⟩ :=
    Server.request_unhindered hs hrequest (stamp "evt_unknown") now
  exact ⟨s, ref, stage, s', outcome, hs, hrequest, hended⟩

theorem openTicket_comes_to_rest :
    ∃ s, Transition.run (Server.step FakeModelAdapter.propose) {} openTicket = some s ∧
      ∃ later s', (∀ e ∈ later, e.isRequest = false) ∧
        Transition.run (Server.step FakeModelAdapter.propose) s later = some s' ∧ s'.Idle ∧
        s'.AllAnswered ∧ s'.nextRequest = 1 ∧ s'.answered = 1 := by
  obtain ⟨s, hs, -⟩ := openTicket_waits
  exact ⟨s, hs, (Server.comes_to_rest hs).2⟩

end

end Sample

end ActionHarbor
