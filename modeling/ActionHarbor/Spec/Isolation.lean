import ActionHarbor.Spec.LegalTransitions
import ActionHarbor.Spec.RegistryReads

/-!
# Isolation of runs

Runs share the registry and the numbering of requests, and their steps interleave. As
long as a minted capability has an id of its own, a step leaves every run it does not
belong to as it is, and what becomes of a run can be replayed from its own steps alone,
on a server that has no other.

## Key results

- `Server.StepCases.untouched`: the frame of one step
- `Server.Isolated.step`: one step, and the same step on the server of one run
- `Server.runs_isolated`: what a run comes to depends on its own steps only
-/

namespace ActionHarbor

/-! ## The steps of one run -/

/-- The requests a step opens. -/
def ServerEvent.opened (next : RequestId) (e : ServerEvent) : List RequestId :=
  if e.isRequest then [next] else []

/-- A step on the requests in the order its run got them. -/
def ServerEvent.renumber (mine : List RequestId) : ServerEvent → ServerEvent
  | .request arrived => .request arrived
  | .execute c draw => .execute (mine.idxOf c) draw
  | .deliver c stamp => .deliver (mine.idxOf c) stamp
  | .timeout c stamp => .timeout (mine.idxOf c) stamp
  | .refuse c stamp => .refuse (mine.idxOf c) stamp
  | .resume c now => .resume (mine.idxOf c) now

namespace Server

section
variable [Host] (model : ModelAdapter)

/-- The steps that belong to a run, `mine` being the requests it has got so far. -/
def project (ref : RunRef) : Server → List RequestId → List ServerEvent → List ServerEvent
  | _, _, [] => []
  | s, mine, e :: events =>
    match s.step model e with
    | none => []
    | some s' =>
      if s.actor model e = some ref then
        e.renumber mine :: project ref s' (mine ++ e.opened s.nextRequest) events
      else project ref s' mine events

/-- The capabilities a step mints. -/
def minted (s : Server) (e : ServerEvent) : List Capability :=
  match s.step model e with
  | none => []
  | some s' => mintedCapabilities ((s'.trace.drop s.trace.length).map (·.observation))

/-- What the step mints has an id that the registry does not know. -/
def MintsFresh (s : Server) (e : ServerEvent) : Prop :=
  ∀ capability ∈ s.minted model e, s.state.registry.byId capability.id = none

end

/-- A run that a step leaves as it is: its record with its ledger, store and adapter, its
    requests and promises, and the entry of its capability. -/
structure Untouched (s s' : Server) (ref : RunRef) : Prop where
  system : s'.system ref = s.system ref
  capability : ∀ run capability, s.state.records ref = some run →
    run.capability = some capability →
    s'.state.registry.byId capability.id = s.state.registry.byId capability.id

/-- The same state of a run on two servers. -/
structure SameRun (s s' : Server) (ref ref' : RunRef) : Prop where
  record : s'.state.records ref' = s.state.records ref
  history : s'.history ref' = s.history ref
  capability : ∀ run capability, s.state.records ref = some run →
    run.capability = some capability →
    s'.state.registry.byId capability.id = s.state.registry.byId capability.id

/-! ## Distinct capabilities -/

/-- Every run's capability is registered, under an id of its own. -/
structure Distinct (s : Server) : Prop where
  registered : ∀ ref run capability, s.state.records ref = some run →
    run.capability = some capability → s.state.registry.byId capability.id ≠ none
  distinct : ∀ ref ref' run run' capability capability', ref ≠ ref' →
    s.state.records ref = some run → run.capability = some capability →
    s.state.records ref' = some run' → run'.capability = some capability' →
    capability.id ≠ capability'.id

/-- In the server before its first request no capability is shared. -/
theorem distinct_empty : Distinct {} where
  registered _ _ _ h := by cases h
  distinct _ _ _ _ _ _ _ h := by cases h

section
variable [Host] {model : ModelAdapter} {s s' : Server} {e : ServerEvent}

omit [Host] in
/-- What is minted in a step is in its observations. -/
theorem drop_trace_apply (s : Server) (ref : RunRef) (c : RequestId) (effect : RunEffect) :
    ((s.apply ref c effect).trace.drop s.trace.length).map (·.observation) =
      effect.observations := by
  simp [apply, entriesOn, Function.comp_def]

/-- What a step on a run does, seen from the registry and the records. -/
structure Touches (s s' : Server) (ref : RunRef) (held : Option Capability)
    (effect : RunEffect) : Prop where
  records : s'.state.records = Function.update s.state.records ref (some effect.run)
  registry : s'.state.registry = effect.registry
  writes : RegistryEffect s.state.registry held effect
  fresh : ∀ capability ∈ mintedCapabilities effect.observations,
    s.state.registry.byId capability.id = none
  held : ∀ capability, held = some capability →
    ∃ run, s.state.records ref = some run ∧ run.capability = some capability

omit [Host] in
/-- The capability of the run it touches is another than that of any other run. -/
private theorem Touches.ne_of_other {ref other : RunRef} {held : Option Capability}
    {effect : RunEffect} (h : Touches s s' ref held effect) (hdistinct : s.Distinct)
    {own : Capability} (hown : effect.run.capability = some own) (hne : other ≠ ref)
    {run : RunRecord} {capability : Capability} (hrun : s.state.records other = some run)
    (hcapability : run.capability = some capability) : capability.id ≠ own.id := by
  rcases h.writes.capability with hheld | ⟨fresh, hmem, hfresh⟩
  · obtain ⟨run', hrun', hcapability'⟩ := h.held own (hheld.symm.trans hown)
    exact hdistinct.distinct other ref run run' capability own hne hrun hcapability hrun'
      hcapability'
  · obtain rfl := Option.some.inj (hfresh.symm.trans hown)
    intro heq
    exact hdistinct.registered other run capability hrun hcapability (heq ▸ h.fresh fresh hmem)

omit [Host] in
/-- Another run's capability keeps its entry. -/
private theorem Touches.entry {ref other : RunRef} {held : Option Capability} {effect : RunEffect}
    (h : Touches s s' ref held effect) (hdistinct : s.Distinct) (hne : other ≠ ref)
    {run : RunRecord} {capability : Capability} (hrun : s.state.records other = some run)
    (hcapability : run.capability = some capability) :
    s'.state.registry.byId capability.id = s.state.registry.byId capability.id := by
  rw [h.registry]
  exact h.writes.others capability.id fun own hown =>
    h.ne_of_other hdistinct hown hne hrun hcapability

omit [Host] in
/-- Capabilities stay distinct. -/
private theorem Touches.distinct {ref : RunRef} {held : Option Capability} {effect : RunEffect}
    (h : Touches s s' ref held effect) (hdistinct : s.Distinct) : s'.Distinct where
  registered other run capability hrun hcapability := by
    rw [h.records] at hrun
    rw [h.registry]
    by_cases hother : other = ref
    · subst hother
      obtain rfl := Option.some.inj ((Function.update_self other _ _).symm.trans hrun)
      -- the run's capability is the one it held or one just recorded
      rcases h.writes.recorded capability hcapability with hheld | hrecorded
      · obtain ⟨run', hrun', hcapability'⟩ := h.held capability hheld
        exact h.writes.kept _ (hdistinct.registered other run' capability hrun' hcapability')
      · exact hrecorded
    · rw [Function.update_of_ne hother] at hrun
      exact h.writes.kept _ (hdistinct.registered other run capability hrun hcapability)
  distinct first second run run' capability capability' hne hrun hcapability hrun'
      hcapability' := by
    rw [h.records] at hrun hrun'
    by_cases hfirst : first = ref
    · subst hfirst
      obtain rfl := Option.some.inj ((Function.update_self first _ _).symm.trans hrun)
      rw [Function.update_of_ne hne.symm] at hrun'
      exact (h.ne_of_other hdistinct hcapability hne.symm hrun' hcapability').symm
    · rw [Function.update_of_ne hfirst] at hrun
      by_cases hsecond : second = ref
      · subst hsecond
        obtain rfl := Option.some.inj ((Function.update_self second _ _).symm.trans hrun')
        exact h.ne_of_other hdistinct hcapability' hfirst hrun hcapability
      · rw [Function.update_of_ne hsecond] at hrun'
        exact hdistinct.distinct first second run run' capability capability' hne hrun hcapability
          hrun' hcapability'

/-- Every step that belongs to no other run than `ref` touches `ref` at most. -/
private theorem StepCases.touches (h : StepCases model s e s') (hmints : s.MintsFresh model e)
    (hstep : s.step model e = some s') :
    (s.actor model e = none ∧ s'.state.registry = s.state.registry ∧
      s'.state.records = s.state.records) ∨
    ∃ ref held effect, s.actor model e = some ref ∧ Touches s s' ref held effect := by
  cases h with
  | idle error hactor => exact .inl ⟨hactor, rfl, rfl⟩
  | born scenarioId draw run turn he hnew hturn hactor =>
    refine .inr ⟨_, none, .ofTurn turn, hactor, rfl, rfl, ?_, ?_, ?_⟩
    -- what the step mints is what the turn has observed
    · have hwrites := followVerdict_writes s.state.registry run draw.authorize
      rwa [proposeRun_capability hnew, ← hturn] at hwrites
    · intro capability hmem
      apply hmints
      rw [minted, hstep]
      dsimp only
      rwa [← drop_trace_apply (s.register turn.run.runId) s.state.nextRef s.nextRequest] at hmem
    · intro capability hheld
      cases hheld
  | acted ref run effect hactor hrecord heffect =>
    refine .inr ⟨ref, run.capability, effect, hactor, rfl, rfl, ?_, ?_, ?_⟩
    · exact RunRecord.effect_registry heffect
    · intro capability hmem
      apply hmints
      rw [minted, hstep]
      dsimp only
      rwa [← drop_trace_apply s ref (e.number s.nextRequest)] at hmem
    · intro capability hheld
      exact ⟨run, hrecord, hheld⟩

/-- The frame of a step: the runs it does not belong to. -/
theorem StepCases.untouched (h : StepCases model s e s') (hfresh : s.Fresh)
    (hdistinct : s.Distinct) (hmints : s.MintsFresh model e) (hstep : s.step model e = some s')
    {other : RunRef} (hother : s.actor model e ≠ some other) : Untouched s s' other where
  system := h.system_eq hfresh hother
  capability run capability hrun hcapability := by
    rcases h.touches hmints hstep with ⟨-, hregistry, -⟩ | ⟨ref, held, effect, hactor, htouches⟩
    · rw [hregistry]
    · have hne : other ≠ ref := fun heq => hother (heq ▸ hactor)
      exact htouches.entry hdistinct hne hrun hcapability

/-- Capabilities stay distinct. -/
theorem StepCases.distinct (h : StepCases model s e s') (hdistinct : s.Distinct)
    (hmints : s.MintsFresh model e) (hstep : s.step model e = some s') : s'.Distinct := by
  rcases h.touches hmints hstep with ⟨-, hregistry, hrecords⟩ | ⟨ref, held, effect, -, htouches⟩
  · constructor
    · rw [hregistry, hrecords]
      exact hdistinct.registered
    · rw [hrecords]
      exact hdistinct.distinct
  · exact htouches.distinct hdistinct

end

/-! ## A server with one run -/

/-- The requests of a run, and the same requests on a server that has no other: the
    number of a request there is its place among the run's own. -/
structure SameRequests (ref : RunRef) (mine : List RequestId) (s s₁ : Server) : Prop where
  requests : ∀ c ∈ mine, ofRun 0 (s₁.requests (mine.idxOf c)) = ofRun ref (s.requests c)
  promises : ∀ c ∈ mine, ofRun 0 (s₁.promises (mine.idxOf c)) = ofRun ref (s.promises c)
  otherRequests : ∀ c, c ∉ mine → ofRun ref (s.requests c) = none
  otherPromises : ∀ c, c ∉ mine → ofRun ref (s.promises c) = none
  history : s₁.history 0 = s.history ref

/-- All of them have been handed out, and on the other server there are no more. -/
structure Counted (mine : List RequestId) (s s₁ : Server) : Prop where
  handed : ∀ c ∈ mine, c < s.nextRequest
  counted : s₁.nextRequest = mine.length

section
variable {ref : RunRef} {mine : List RequestId} {s s₁ : Server}

/-- The next request is not among the counted ones. -/
theorem Counted.fresh (h : Counted mine s s₁) : s.nextRequest ∉ mine := fun hmem =>
  Nat.lt_irrefl _ (h.handed _ hmem)

/-- The place of a request does not change when another one arrives. -/
theorem idxOf_concat_of_mem {c next : RequestId} (hc : c ∈ mine) :
    (mine ++ [next]).idxOf c = mine.idxOf c :=
  List.idxOf_append_of_mem hc

/-- The next request of the run gets the next number in the server that has the run alone. -/
theorem Counted.idxOf_next (h : Counted mine s s₁) :
    (mine ++ [s.nextRequest]).idxOf s.nextRequest = s₁.nextRequest := by
  rw [List.idxOf_append_of_notMem h.fresh, h.counted]
  simp

/-- A request arrives. -/
theorem SameRequests.arrive (h : SameRequests ref mine s s₁) (hcounted : Counted mine s s₁)
    (hfresh : s.Fresh) (hfresh₁ : s₁.Fresh) :
    SameRequests ref (mine ++ [s.nextRequest]) s s₁ where
  requests c hc := by
    rcases List.mem_append.mp hc with hmem | hnext
    · rw [idxOf_concat_of_mem hmem]
      exact h.requests c hmem
    -- neither server knows the new number
    · obtain rfl := List.mem_singleton.mp hnext
      rw [hcounted.idxOf_next, hfresh.requests _ (Nat.le_refl _),
        hfresh₁.requests _ (Nat.le_refl _)]
      rfl
  promises c hc := by
    rcases List.mem_append.mp hc with hmem | hnext
    · rw [idxOf_concat_of_mem hmem]
      exact h.promises c hmem
    · obtain rfl := List.mem_singleton.mp hnext
      rw [hcounted.idxOf_next, hfresh.promises _ (Nat.le_refl _),
        hfresh₁.promises _ (Nat.le_refl _)]
      rfl
  otherRequests c hc := h.otherRequests c fun hmem => hc (List.mem_append_left _ hmem)
  otherPromises c hc := h.otherPromises c fun hmem => hc (List.mem_append_left _ hmem)
  history := h.history

/-- What an effect leaves of a run's requests. -/
private theorem ofRun_update {α : Type} (ref : RunRef) (table : RequestId → Option (RunRef × α))
    (c c' : RequestId) (a : Option α) :
    ofRun ref (Function.update table c (a.map fun a => (ref, a)) c') =
      Function.update (fun c' => ofRun ref (table c')) c a c' := by
  by_cases hc : c' = c
  · subst hc
    simp
  · simp [hc]

/-- An effect on a run adds its observations to the history of that run. -/
private theorem history_apply (s : Server) (ref : RunRef) (c : RequestId) (effect : RunEffect) :
    (s.apply ref c effect).history ref = s.history ref ++ effect.observations := by
  rw [history, apply, List.filterMap_append, entriesOn, List.filterMap_map]
  simp [history]

/-- The same effect on both servers. -/
theorem SameRequests.apply (h : SameRequests ref mine s s₁) {c : RequestId} (hc : c ∈ mine)
    {effect effect₁ : RunEffect} (hsame : SameEffect effect effect₁) :
    SameRequests ref mine (s.apply ref c effect) (s₁.apply 0 (mine.idxOf c) effect₁) where
  requests c' hc' := by
    simp only [Server.apply, ofRun_update, hsame.stage]
    by_cases hne : c' = c
    · subst hne
      simp
    -- distinct requests stay distinct under the new numbers
    · have hidx : mine.idxOf c' ≠ mine.idxOf c := fun heq => hne (List.idxOf_inj hc' |>.mp heq)
      rw [Function.update_of_ne hidx, Function.update_of_ne hne]
      exact h.requests c' hc'
  promises c' hc' := by
    simp only [Server.apply, ofRun_update, hsame.promise]
    by_cases hne : c' = c
    · subst hne
      simp
    · have hidx : mine.idxOf c' ≠ mine.idxOf c := fun heq => hne (List.idxOf_inj hc' |>.mp heq)
      rw [Function.update_of_ne hidx, Function.update_of_ne hne]
      exact h.promises c' hc'
  otherRequests c' hc' := by
    have hne : c' ≠ c := fun heq => hc' (heq ▸ hc)
    simp only [Server.apply, Function.update_of_ne hne]
    exact h.otherRequests c' hc'
  otherPromises c' hc' := by
    have hne : c' ≠ c := fun heq => hc' (heq ▸ hc)
    simp only [Server.apply, Function.update_of_ne hne]
    exact h.otherPromises c' hc'
  history := by rw [history_apply, history_apply, h.history, hsame.observations]

/-- The requests of a run after a step that is about `c`. -/
inductive Opens (mine : List RequestId) (s : Server) (c : RequestId) : List RequestId → Prop
  | old (hc : c ∈ mine) : Opens mine s c mine
  | new (hc : c = s.nextRequest) : Opens mine s c (mine ++ [s.nextRequest])

/-- A request that is opened or was open is among the run's requests after the step. -/
theorem Opens.mem {c : RequestId} {mine' : List RequestId} (h : Opens mine s c mine') :
    c ∈ mine' := by
  cases h with
  | old hc => exact hc
  | new hc => simp [hc]

/-- The count goes on through an effect on the run in both servers. -/
theorem Counted.apply (h : Counted mine s s₁) (ref : RunRef) {c : RequestId}
    {mine' : List RequestId} (hopens : Opens mine s c mine') (effect effect₁ : RunEffect) :
    Counted mine' (s.apply ref c effect) (s₁.apply 0 (mine'.idxOf c) effect₁) where
  handed c' hc' := by
    show c' < max s.nextRequest (c + 1)
    cases hopens with
    | old hc => exact Nat.lt_of_lt_of_le (h.handed c' hc') (Nat.le_max_left ..)
    | new hc =>
      rcases List.mem_append.mp hc' with hmem | hnext
      · exact Nat.lt_of_lt_of_le (h.handed c' hmem) (Nat.le_max_left ..)
      · rw [List.mem_singleton.mp hnext, hc]
        exact Nat.lt_of_lt_of_le (Nat.lt_succ_self _) (Nat.le_max_right ..)
  counted := by
    -- the own server counts the run's requests, and only those
    show max s₁.nextRequest (mine'.idxOf c + 1) = mine'.length
    cases hopens with
    | old hc =>
      rw [h.counted]
      exact Nat.max_eq_left (List.idxOf_lt_length_of_mem hc)
    | new hc =>
      rw [hc, h.idxOf_next, Nat.max_eq_right (Nat.le_succ _), h.counted]
      simp

/-- A request that is opened is new in both servers, so the open ones stay the same. -/
theorem SameRequests.opens (h : SameRequests ref mine s s₁) (hcounted : Counted mine s s₁)
    (hfresh : s.Fresh) (hfresh₁ : s₁.Fresh) {c : RequestId} {mine' : List RequestId}
    (hopens : Opens mine s c mine') : SameRequests ref mine' s s₁ := by
  cases hopens with
  | old hc => exact h
  | new hc => exact h.arrive hcounted hfresh hfresh₁

/-- A server, and one that has only the run `ref`, as its first. -/
structure Isolated (ref : RunRef) (mine : List RequestId) (s s₁ : Server) : Prop where
  requests : SameRequests ref mine s s₁
  counted : Counted mine s s₁
  fresh : s₁.Fresh
  record : s₁.state.records 0 = s.state.records ref
  runs : ∀ runId, s.state.runs runId = some ref → s₁.state.runs runId = some 0
  registry : ∀ run, s.state.records ref = some run →
    run.Agree s.state.registry s₁.state.registry
  /-- before the run is there, the other server has not started -/
  unborn : s.state.records ref = none → s.state.nextRef ≤ ref ∧ mine = [] ∧ s₁ = {}

/-- What belongs to no run that has been made. -/
private theorem ofRun_eq_none {α : Type} {entry : Option (RunRef × α)}
    (h : ∀ owner a, entry = some (owner, a) → owner < s.state.nextRef)
    (href : s.state.nextRef ≤ ref) : ofRun ref entry = none := by
  rw [Option.eq_none_iff_forall_not_mem]
  intro a ha
  exact Nat.not_lt_of_le href (h ref a (ofRun_eq_some.mp ha))

/-- A run that has not been made yet. -/
theorem isolated_unborn (hfresh : s.Fresh) (hlinked : s.Linked) (href : s.state.nextRef ≤ ref) :
    Isolated ref [] s {} where
  requests := {
    requests := fun _ h => absurd h List.not_mem_nil
    promises := fun _ h => absurd h List.not_mem_nil
    otherRequests := fun c _ => ofRun_eq_none (hfresh.requestRefs c) href
    otherPromises := fun c _ => ofRun_eq_none (hfresh.promiseRefs c) href
    history := by
      -- the trace names only runs that exist
      refine (List.filterMap_eq_nil_iff.mpr ?_).symm
      intro entry hentry
      refine if_neg fun howner => ?_
      exact Nat.not_lt_of_le href (hfresh.traceRefs entry hentry ref howner) }
  counted := ⟨fun _ h => absurd h List.not_mem_nil, rfl⟩
  fresh := fresh_empty
  record := (hfresh.records ref href).symm
  runs runId hruns := by
    have hsome := hlinked.registered runId ref hruns
    rw [hfresh.records ref href] at hsome
    cases hsome
  registry run hrun := by cases (hfresh.records ref href).symm.trans hrun
  unborn _ := ⟨href, rfl, rfl⟩

end

section
variable [Host] {model : ModelAdapter} {ref : RunRef} {mine : List RequestId} {s s' s₁ : Server}
  {e : ServerEvent}

omit [Host] in
/-- A run on the server has been made. -/
private theorem Isolated.record_or_unborn (h : Isolated ref mine s s₁) :
    (∃ run, s.state.records ref = some run) ∨
      s.state.records ref = none ∧ s.state.nextRef ≤ ref ∧ mine = [] ∧ s₁ = {} := by
  cases hrecord : s.state.records ref with
  | some run => exact .inl ⟨run, rfl⟩
  | none => exact .inr ⟨rfl, h.unborn hrecord⟩

/-- A step that does not make this run makes no run here. -/
private theorem StepCases.nextRef_le (h : StepCases model s e s')
    (hactor : s.actor model e ≠ some ref) (href : s.state.nextRef ≤ ref) :
    s'.state.nextRef ≤ ref := by
  cases h with
  | idle | acted => exact href
  | born scenarioId draw run turn he hnew hturn hborn =>
    exact Nat.lt_of_le_of_ne href fun heq => hactor (heq ▸ hborn)

/-- No run id comes to lead to a run in a step that does not belong to it. -/
private theorem StepCases.runs_of_other (h : StepCases model s e s')
    (hactor : s.actor model e ≠ some ref) {runId : JsString}
    (hruns : s'.state.runs runId = some ref) : s.state.runs runId = some ref := by
  cases h with
  | idle | acted => exact hruns
  | born scenarioId draw run turn he hnew hturn hborn =>
    by_cases hrunId : runId = turn.run.runId
    · subst hrunId
      cases (Function.update_self turn.run.runId _ _).symm.trans hruns
      exact absurd hborn hactor
    · exact (Function.update_of_ne hrunId _ _).symm.trans hruns

/-- A step of another run is nothing to the server that has only this one. -/
theorem Isolated.other (h : Isolated ref mine s s₁) (hcases : StepCases model s e s')
    (huntouched : Untouched s s' ref) (hactor : s.actor model e ≠ some ref) (hfresh' : s'.Fresh)
    (hlinked' : s'.Linked) : Isolated ref mine s' s₁ := by
  rcases h.record_or_unborn with ⟨run, hrecord⟩ | ⟨-, href, rfl, rfl⟩
  · have hsystem : s'.system ref = some (s.view ref run) := by
      rw [huntouched.system, system, hrecord]
      rfl
    obtain ⟨run', hrecord', hview⟩ := Option.map_eq_some_iff.mp hsystem
    obtain rfl : run' = run := congrArg RunSystem.run hview
    -- the run's own view of the server is the same, and so are its fields
    have hrequests : ∀ c, ofRun ref (s'.requests c) = ofRun ref (s.requests c) :=
      fun c => congrFun (congrArg RunSystem.requests hview) c
    have hpromises : ∀ c, ofRun ref (s'.promises c) = ofRun ref (s.promises c) :=
      fun c => congrFun (congrArg RunSystem.promises hview) c
    exact {
      requests := {
        requests := fun c hc => (h.requests.requests c hc).trans (hrequests c).symm
        promises := fun c hc => (h.requests.promises c hc).trans (hpromises c).symm
        otherRequests := fun c hc => (hrequests c).trans (h.requests.otherRequests c hc)
        otherPromises := fun c hc => (hpromises c).trans (h.requests.otherPromises c hc)
        history := h.requests.history.trans (congrArg RunSystem.history hview).symm }
      counted := {
        handed := fun c hc => Nat.lt_of_lt_of_le (h.counted.handed c hc) hcases.nextRequest_le
        counted := h.counted.counted }
      fresh := h.fresh
      record := h.record.trans (hrecord.trans hrecord'.symm)
      runs := fun runId hruns => h.runs runId (hcases.runs_of_other hactor hruns)
      registry := fun own hown capability hcapability => by
        obtain rfl := Option.some.inj (hrecord'.symm.trans hown)
        rw [huntouched.capability run' capability hrecord hcapability]
        exact h.registry run' hrecord capability hcapability
      unborn := fun hnone => by cases hrecord'.symm.trans hnone }
  · exact isolated_unborn hfresh' hlinked' (hcases.nextRef_le hactor href)

/-- A step under its new number does the same to its run. -/
private theorem RunRecord.effect_renumber (registry : CapabilityRegistry) (run : RunRecord)
    (stage : Option RequestStage) (promise : Option AdapterPromise) (mine : List RequestId)
    (e : ServerEvent) :
    run.effect registry stage promise (e.renumber mine) =
      run.effect registry stage promise e := by
  cases e <;> rfl

/-- What a step of this run is about. -/
private theorem SameRequests.opens_actor (h : SameRequests ref mine s s₁)
    (hactor : s.actor model e = some ref) :
    Opens mine s (e.number s.nextRequest) (mine ++ e.opened s.nextRequest) := by
  have hrequest : ∀ c, (s.requests c).map (·.1) = some ref → c ∈ mine := by
    -- an entry of the run is one of those listed
    intro c hc
    obtain ⟨⟨owner, stage⟩, hrequest, rfl⟩ := Option.map_eq_some_iff.mp hc
    by_contra hmem
    have hnone := h.otherRequests c hmem
    rw [hrequest] at hnone
    simp [ofRun] at hnone
  have hold : ∀ c, c ∈ mine → Opens mine s c (mine ++ []) := by
    intro c hc
    rw [List.append_nil]
    exact .old hc
  cases e with
  | request => exact .new rfl
  | execute c draw =>
    apply hold
    obtain ⟨⟨owner, promise⟩, hpromise, rfl⟩ := Option.map_eq_some_iff.mp hactor
    by_contra hmem
    have hnone : ofRun owner (s.promises c) = none := h.otherPromises c hmem
    rw [hpromise] at hnone
    simp [ofRun] at hnone
  | deliver c _ | timeout c _ | refuse c _ | resume c _ => exact hold c (hrequest c hactor)

omit [Host] in
/-- It is about the same request on the other server. -/
private theorem Isolated.number_renumber (h : Isolated ref mine s s₁) (e : ServerEvent) :
    (e.renumber mine).number s₁.nextRequest =
      (mine ++ e.opened s.nextRequest).idxOf (e.number s.nextRequest) := by
  cases e with
  | request => exact h.counted.idxOf_next.symm
  | execute | deliver | timeout | refuse | resume =>
    show _ = (mine ++ []).idxOf _
    rw [List.append_nil]
    rfl

omit [Host] in
/-- What is in flight under that number. -/
private theorem SameRequests.owner {α : Type} {entry entry₁ : Option (RunRef × α)}
    (h : ofRun 0 entry₁ = ofRun ref entry) (hentry : entry.map (·.1) = some ref) :
    entry₁.map (·.1) = some 0 := by
  obtain ⟨⟨owner, a⟩, rfl, rfl⟩ := Option.map_eq_some_iff.mp hentry
  have hsome : ofRun owner (some (owner, a)) = some a := by simp [ofRun]
  rw [ofRun_eq_some.mp (h.trans hsome)]
  rfl

/-- The renumbered event is one of the only run of the second server. -/
private theorem Isolated.actor_renumber (h : Isolated ref mine s s₁)
    (hactor : s.actor model e = some ref)
    (hcreate : ∀ scenarioId draw, e ≠ .request (.createRun scenarioId draw)) :
    s₁.actor model (e.renumber mine) = some 0 := by
  have hopens := h.requests.opens_actor hactor
  cases e with
  | request request =>
    have hruns : request.runId.bind s.state.runs = some ref := by
      cases request with
      | createRun scenarioId draw => exact absurd rfl (hcreate scenarioId draw)
      | _ => exact hactor
    obtain ⟨runId, hrunId, hruns⟩ := Option.bind_eq_some_iff.mp hruns
    have hruns₁ : request.runId.bind s₁.state.runs = some 0 := by
      -- the id is the same, the run is the first of its own server
      rw [hrunId]
      exact h.runs runId hruns
    cases request with
    | createRun scenarioId draw => exact absurd rfl (hcreate scenarioId draw)
    | _ => exact hruns₁
  | execute c draw =>
    have hmem : c ∈ mine := by
      simpa [ServerEvent.opened, ServerEvent.isRequest, ServerEvent.number] using hopens.mem
    exact SameRequests.owner (h.requests.promises c hmem) hactor
  | deliver c _ | timeout c _ | refuse c _ | resume c _ =>
    have hmem : c ∈ mine := by
      simpa [ServerEvent.opened, ServerEvent.isRequest, ServerEvent.number] using hopens.mem
    exact SameRequests.owner (h.requests.requests c hmem) hactor

omit [Host] in
/-- The run's record is there after an effect on it. -/
private theorem Isolated.apply_fields {c c₁ : RequestId} {effect effect₁ : RunEffect}
    {mine' : List RequestId} (hsame : SameEffect effect effect₁)
    (hrequests : SameRequests ref mine' (s.apply ref c effect) (s₁.apply 0 c₁ effect₁))
    (hcounted : Counted mine' (s.apply ref c effect) (s₁.apply 0 c₁ effect₁))
    (hfresh : (s₁.apply 0 c₁ effect₁).Fresh)
    (hruns : ∀ runId, s.state.runs runId = some ref → s₁.state.runs runId = some 0) :
    Isolated ref mine' (s.apply ref c effect) (s₁.apply 0 c₁ effect₁) where
  requests := hrequests
  counted := hcounted
  fresh := hfresh
  record := (apply_record s₁ 0 c₁ effect₁).trans
    ((congrArg some hsame.run).trans (apply_record s ref c effect).symm)
  runs := hruns
  registry run hrun := by
    obtain rfl := Option.some.inj ((apply_record s ref c effect).symm.trans hrun)
    exact hsame.registry
  unborn hnone := by cases (apply_record s ref c effect).symm.trans hnone

/-- The run is made: the other server starts. -/
private theorem Isolated.born (h : Isolated s.state.nextRef mine s s₁) (hfresh : s.Fresh)
    (hlinked : s.Linked) {scenarioId : JsString} {draw : CreateDraw} {run : RunRecord}
    (hnew : proposeRun model scenarioId draw = .ok run) :
    ∃ s₁', s₁.step model (.request (.createRun scenarioId draw)) = some s₁' ∧
      Isolated s.state.nextRef (mine ++ [s.nextRequest])
        ((s.register (followVerdict s.state.registry run draw.authorize).run.runId).apply
          s.state.nextRef s.nextRequest
          (.ofTurn (followVerdict s.state.registry run draw.authorize))) s₁' := by
  have hnone : s.state.records s.state.nextRef = none := hfresh.records _ (Nat.le_refl _)
  -- the run is not there yet, so its own server has not taken a step
  obtain ⟨-, rfl, rfl⟩ := h.unborn hnone
  have hagree : run.Agree s.state.registry {} := by
    intro capability hcapability
    cases (proposeRun_capability hnew).symm.trans hcapability
  have hturns := followVerdict_congr hagree draw.authorize
  have hstep : ({} : Server).step model (.request (.createRun scenarioId draw)) =
      some ((({} : Server).register (followVerdict {} run draw.authorize).run.runId).enter 0
        (followVerdict {} run draw.authorize)) := by
    simp [step, handle, createRun, hnew, bind, Except.bind]
  refine ⟨_, hstep, ?_⟩
  -- the two first turns are equal up to the registry
  have hfresh₁ := (step_system (C := fun _ _ => True) fresh_empty
    (fun _ _ _ _ _ _ _ => trivial) hstep).fresh
  rw [enter_eq_apply] at hfresh₁ ⊢
  generalize followVerdict s.state.registry run draw.authorize = turn at hturns ⊢
  generalize followVerdict {} run draw.authorize = turn₁ at hturns hfresh₁ ⊢
  have hregistered : SameRequests s.state.nextRef [s.nextRequest]
      (s.register turn.run.runId) (({} : Server).register turn₁.run.runId) :=
    have hold := h.requests.opens h.counted hfresh fresh_empty (.new rfl)
    ⟨hold.requests, hold.promises, hold.otherRequests, hold.otherPromises, hold.history⟩
  have hcounted : Counted [] (s.register turn.run.runId)
      (({} : Server).register turn₁.run.runId) := ⟨h.counted.handed, h.counted.counted⟩
  have hidx : ([s.nextRequest] : List RequestId).idxOf s.nextRequest = 0 := by simp
  have hrequests := hregistered.apply (List.mem_singleton.mpr rfl) hturns.effect
  have hcounts := hcounted.apply s.state.nextRef (.new rfl) (.ofTurn turn) (.ofTurn turn₁)
  have hnumber : ([s.nextRequest] : List RequestId).idxOf s.nextRequest =
      ({} : Server).nextRequest := by simp
  rw [hnumber] at hrequests
  have hnumber' : (([] : List RequestId) ++ [s.nextRequest]).idxOf s.nextRequest =
      ({} : Server).nextRequest := by simp
  have hcounts' : Counted [s.nextRequest] ((s.register turn.run.runId).apply s.state.nextRef
      s.nextRequest (.ofTurn turn)) ((({} : Server).register turn₁.run.runId).apply 0
      ({} : Server).nextRequest (.ofTurn turn₁)) := hnumber' ▸ hcounts
  refine Isolated.apply_fields hturns.effect hrequests hcounts' hfresh₁ fun runId hruns => ?_
  rw [hturns.run]
  by_cases hrunId : runId = turn.run.runId
  · rw [hrunId]
    exact Function.update_self turn.run.runId _ _
  · have hold : s.state.runs runId = some s.state.nextRef :=
      (Function.update_of_ne hrunId _ _).symm.trans hruns
    have hsome := hlinked.registered runId _ hold
    rw [hnone] at hsome
    cases hsome

/-- A step on the run as it is there. -/
private theorem Isolated.acted (h : Isolated ref mine s s₁) (hfresh : s.Fresh) {run : RunRecord}
    {effect : RunEffect} (hactor : s.actor model e = some ref)
    (hrecord : s.state.records ref = some run)
    (heffect : run.effect s.state.registry (ofRun ref (s.requests (e.number s.nextRequest)))
      (ofRun ref (s.promises (e.number s.nextRequest))) e = some effect) :
    ∃ s₁', s₁.step model (e.renumber mine) = some s₁' ∧
      Isolated ref (mine ++ e.opened s.nextRequest)
        (s.apply ref (e.number s.nextRequest) effect) s₁' := by
  have hcreate : ∀ scenarioId draw, e ≠ .request (.createRun scenarioId draw) := by
    rintro scenarioId draw rfl
    cases heffect
  have hcreate₁ : ∀ scenarioId draw, e.renumber mine ≠ .request (.createRun scenarioId draw) := by
    intro scenarioId draw heq
    cases e with
    | request => exact hcreate scenarioId draw heq
    | _ => cases heq
  have hopens := h.requests.opens_actor hactor
  have hrequests := h.requests.opens h.counted hfresh h.fresh hopens
  have hstep := step_eq_apply h.fresh (h.actor_renumber hactor hcreate) (h.record.trans hrecord)
    hcreate₁
  -- the run, what it has in flight and its capability are the same on both servers
  have hcongr := RunRecord.effect_congr (h.registry run hrecord)
    (ofRun ref (s.requests (e.number s.nextRequest)))
    (ofRun ref (s.promises (e.number s.nextRequest))) e
  rw [h.number_renumber e, hrequests.requests _ hopens.mem, hrequests.promises _ hopens.mem,
    RunRecord.effect_renumber] at hstep
  rw [heffect] at hcongr
  generalize run.effect s₁.state.registry _ _ e = outcome at hstep hcongr
  cases hcongr with
  | some hsame =>
    refine ⟨_, hstep, ?_⟩
    have hfresh₁ := (step_system (C := fun _ _ => True) h.fresh (fun _ _ _ _ _ _ _ => trivial)
      hstep).fresh
    exact .apply_fields hsame (hrequests.apply hopens.mem hsame)
      (h.counted.apply ref hopens effect _) hfresh₁ h.runs

/-- A step of the run, and the same step on the server that has only this run. -/
theorem Isolated.step (h : Isolated ref mine s s₁) (hfresh : s.Fresh) (hlinked : s.Linked)
    (hcases : StepCases model s e s') (hactor : s.actor model e = some ref) :
    ∃ s₁', s₁.step model (e.renumber mine) = some s₁' ∧
      Isolated ref (mine ++ e.opened s.nextRequest) s' s₁' := by
  cases hcases with
  | idle error hidle => cases hidle.symm.trans hactor
  | born scenarioId draw run turn he hnew hturn hborn =>
    subst he hturn
    obtain rfl := Option.some.inj (hborn.symm.trans hactor)
    exact h.born hfresh hlinked hnew
  | acted actor run effect hacts hrecord heffect =>
    obtain rfl := Option.some.inj (hacts.symm.trans hactor)
    exact h.acted hfresh hactor hrecord heffect

/-! ## Runs -/

/-- What every step keeps of the numbering and the capabilities. -/
structure Separate (s : Server) : Prop where
  fresh : s.Fresh
  linked : s.Linked
  distinct : s.Distinct

omit [Host] in
/-- The server before its first request keeps its runs apart. -/
theorem separate_empty : Separate {} := ⟨fresh_empty, linked_empty, distinct_empty⟩

/-- A step that draws new capability ids keeps the runs of the server apart. -/
theorem Separate.step (h : s.Separate) (hmints : s.MintsFresh model e)
    (hstep : s.step model e = some s') : s'.Separate := by
  have hcases := step_cases h.fresh h.linked hstep
  have hstepped : Stepped model (fun _ _ => True) s s' :=
    step_system h.fresh (fun _ _ _ _ _ _ _ => trivial) hstep
  exact ⟨hstepped.fresh, hcases.linked h.linked, hcases.distinct h.distinct hmints hstep⟩

/-- The steps of a run, on a server that has no other, come to the same state of the run. -/
theorem Isolated.run {events : List ServerEvent} (h : Isolated ref mine s s₁) (hs : s.Separate)
    (hids : Transition.Meets (Server.step model) (MintsFresh model) s events)
    (hrun : Transition.run (Server.step model) s events = some s') :
    ∃ mine' s₁', Transition.run (Server.step model) s₁ (s.project model ref mine events) = some s₁' ∧
      Isolated ref mine' s' s₁' := by
  induction events generalizing s mine s₁ with
  | nil =>
    obtain rfl := Option.some.inj hrun
    exact ⟨mine, s₁, rfl, h⟩
  | cons e events ih =>
    obtain ⟨next, hstep, hrest⟩ := Transition.run_cons_eq_some.mp hrun
    have hnext := hs.step hids.1 hstep
    have hcases := step_cases hs.fresh hs.linked hstep
    rw [project, hstep]
    dsimp only
    by_cases hactor : s.actor model e = some ref
    -- the projection keeps the step iff the run takes it
    · obtain ⟨s₁', hstep₁, h'⟩ := h.step hs.fresh hs.linked hcases hactor
      obtain ⟨mine', t₁, hrun₁, h''⟩ := ih h' hnext (hids.2 next hstep) hrest
      rw [if_pos hactor]
      exact ⟨mine', t₁, Transition.run_cons_eq_some.mpr ⟨s₁', hstep₁, hrun₁⟩, h''⟩
    · rw [if_neg hactor]
      have huntouched := hcases.untouched hs.fresh hs.distinct hids.1 hstep hactor
      exact ih (h.other hcases huntouched hactor hnext.fresh hnext.linked) hnext
        (hids.2 next hstep) hrest

omit [Host] in
/-- An isolated run is the same run in both servers. -/
theorem Isolated.sameRun (h : Isolated ref mine s s₁) : SameRun s s₁ ref 0 where
  record := h.record
  history := h.requests.history
  capability run capability hrun hcapability := h.registry run hrun capability hcapability

omit [Host] in
/-- Two servers that agree with a third on a run. -/
theorem SameRun.of_common {t : Server} {ref₁ ref₂ : RunRef} {s₂ : Server}
    (h : SameRun s t ref₁ ref) (h' : SameRun s₂ t ref₂ ref) : SameRun s s₂ ref₁ ref₂ where
  record := h'.record.symm.trans h.record
  history := h'.history.symm.trans h.history
  capability run capability hrun hcapability := by
    have hrun₂ : s₂.state.records ref₂ = some run := h'.record.symm.trans (h.record.trans hrun)
    rw [← h'.capability run capability hrun₂ hcapability]
    exact h.capability run capability hrun hcapability

/-- Runs are isolated. With capability ids that are new when they are minted, a step in a
    reachable state leaves every run it does not belong to as it is, and two histories
    with the same steps of a run lead to the same state of it. -/
theorem runs_isolated {events : List ServerEvent}
    (hrun : Transition.run (Server.step model) {} events = some s)
    (hids : Transition.Meets (Server.step model) (MintsFresh model) {} events) :
    (∀ e s', s.MintsFresh model e → s.step model e = some s' →
      ∀ other, s.actor model e ≠ some other → Untouched s s' other) ∧
    ∀ ref ref' events' t, Transition.run (Server.step model) {} events' = some t →
      Transition.Meets (Server.step model) (MintsFresh model) {} events' →
      project model ref' {} [] events' = project model ref {} [] events →
      SameRun s t ref ref' := by
  have hseparate : s.Separate := Transition.run_invariant_of_meets (P := Separate)
    (fun _ _ _ h hmints hstep => h.step hmints hstep) separate_empty hids hrun
  constructor
  · intro e s' hmints hstep other hother
    have hcases := step_cases hseparate.fresh hseparate.linked hstep
    exact hcases.untouched hseparate.fresh hseparate.distinct hmints hstep hother
  · intro ref ref' events' t hrun' hids' hproject
    -- both runs are mirrored by one run of one server
    have hstart : ∀ ref, Isolated ref [] {} {} := fun ref =>
      isolated_unborn fresh_empty linked_empty (Nat.zero_le ref)
    obtain ⟨mine, s₁, hrun₁, hsolo⟩ := (hstart ref).run separate_empty hids hrun
    obtain ⟨mine', s₁', hrun₁', hsolo'⟩ := (hstart ref').run separate_empty hids' hrun'
    rw [hproject] at hrun₁'
    obtain rfl := Option.some.inj (hrun₁.symm.trans hrun₁')
    exact hsolo.sameRun.of_common hsolo'.sameRun

instance (s : Server) (e : ServerEvent) : Decidable (s.MintsFresh model e) :=
  inferInstanceAs (Decidable (∀ capability ∈ s.minted model e,
    s.state.registry.byId capability.id = none))

end

end Server

/-! ## Two runs -/

namespace Sample

section
attribute [local instance] node

deriving instance DecidableEq for MintDraw, AuthorizeDraw, CreateDraw, ApproveDraw, AdapterDraw,
  Request, ServerEvent

/-- What another new run draws. -/
def otherDraw : CreateDraw :=
  { createDraw with
    runId := js "run_000002"
    operationId := js "op_000002"
    idempotencyKey := js "idem_000002"
    authorize := { authorizeDraw with mint := ⟨js "cap_000002", js "nonce_000002", now⟩ } }

/-- The ticket of `unknownTicket`, created after another. -/
def ticketSecond : List ServerEvent :=
  [.request (.createRun (js "unknown_outcome") otherDraw),
    .request (.createRun (js "unknown_outcome") createDraw),
    .timeout 1 (stamp "evt_unknown"),
    .resume 1 now]

/-- The ticket run goes alike as the first run of one server and the second of another. -/
theorem ticket_isolated :
    ∃ s t, Transition.run (Server.step FakeModelAdapter.propose) {} unknownTicket = some s ∧
      Transition.run (Server.step FakeModelAdapter.propose) {} ticketSecond = some t ∧
      Server.SameRun s t 0 1 := by
  have hhistories : (Transition.Meets (Server.step FakeModelAdapter.propose)
        (Server.MintsFresh FakeModelAdapter.propose) {} unknownTicket ∧
      Transition.Meets (Server.step FakeModelAdapter.propose)
        (Server.MintsFresh FakeModelAdapter.propose) {} ticketSecond) ∧
      ((Transition.run (Server.step FakeModelAdapter.propose) {} unknownTicket).isSome ∧
        (Transition.run (Server.step FakeModelAdapter.propose) {} ticketSecond).isSome) ∧
      Server.project FakeModelAdapter.propose 1 {} [] ticketSecond =
        Server.project FakeModelAdapter.propose 0 {} [] unknownTicket := by
    decide +kernel
  obtain ⟨⟨hids, hids'⟩, ⟨hrun, hrun'⟩, hproject⟩ := hhistories
  obtain ⟨s, hs⟩ := Option.isSome_iff_exists.mp hrun
  obtain ⟨t, ht⟩ := Option.isSome_iff_exists.mp hrun'
  exact ⟨s, t, hs, ht, (Server.runs_isolated hs hids).2 0 1 ticketSecond t ht hids' hproject⟩

end

end Sample

end ActionHarbor
