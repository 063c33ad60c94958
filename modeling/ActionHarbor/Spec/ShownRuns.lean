import ActionHarbor.Spec.RunLife
import ActionHarbor.Spec.Sessions
import ActionHarbor.Spec.ShownSuccess

/-!
# What the page shows of a run

A view is made when the handler on the server goes on, and is shown when the answer arrives;
both may be long after the request, and the run may have gone on meanwhile. What the page
shows is still never made up and never taken back: it is the view of a moment the server was
really in, and the views of one run follow each other in the order the run went through.

## Key results

- `Server.record_precedes`: a run goes on from where it is
- `Session.shows_the_server`: what is shown was the server's view at an earlier moment
- `Session.shown_grows`: what is shown of a run only goes on
-/

namespace ActionHarbor

/-! ## Runs go on -/

/-- A run at an earlier moment. -/
structure RunRecord.Precedes (run now : RunRecord) : Prop where
  plan : now.toRunPlan = run.toRunPlan
  ledger : run.ledger.entries <+: now.ledger.entries
  state : run.state.Leads now.state

theorem RunRecord.Precedes.refl (run : RunRecord) : run.Precedes run :=
  ⟨rfl, List.prefix_rfl, .refl _⟩

theorem RunRecord.Precedes.trans {run run' run'' : RunRecord} (h : run.Precedes run')
    (h' : run'.Precedes run'') : run.Precedes run'' :=
  ⟨h'.plan.trans h.plan, h.ledger.trans h'.ledger, h.state.trans h'.state⟩

/-- What the page shows of a run, and what it showed before. -/
structure RunView.Precedes (view view' : RunView) : Prop where
  runId : view'.runId = view.runId
  proposal : view'.proposal = view.proposal
  policy : view'.policy = view.policy
  ledger : view.ledger <+: view'.ledger
  state : view.state.Leads view'.state

theorem RunView.Precedes.refl (view : RunView) : view.Precedes view :=
  ⟨rfl, rfl, rfl, List.prefix_rfl, .refl _⟩

theorem RunView.Precedes.trans {view view' view'' : RunView} (h : view.Precedes view')
    (h' : view'.Precedes view'') : view.Precedes view'' :=
  ⟨h'.runId.trans h.runId, h'.proposal.trans h.proposal, h'.policy.trans h.policy,
    h.ledger.trans h'.ledger, h.state.trans h'.state⟩

section
variable [Host]

omit [Host] in
/-- The views of a run are in its order. -/
theorem RunRecord.Precedes.view {run now : RunRecord} (h : run.Precedes now) :
    (toRunView run).Precedes (toRunView now) where
  runId := congrArg RunPlan.runId h.plan
  proposal := congrArg (fun plan : RunPlan => ProposalView.mk plan.actionType plan.parameters
    plan.evidenceRefs plan.modelProposalRaw plan.proposalHash) h.plan
  policy := congrArg RunPlan.policyVerdict h.plan
  ledger := h.ledger
  state := h.state

/-- A step of a run keeps its plan. -/
theorem RunStep.plan {C : RunSystem → CallReads → Prop} {sys sys' : RunSystem}
    (hsound : sys.Sound) (h : RunStep C sys sys') :
    sys'.run.toRunPlan = sys.run.toRunPlan := by
  have hagain : ∀ (c : RequestId) (registry : CapabilityRegistry) (capability : Capability)
      (reads : CallReads), (sys.enter c (executeForRun registry sys.run capability
        reads)).run.toRunPlan = sys.run.toRunPlan :=
    fun c registry capability reads =>
      (executeForRun_facts registry sys.run capability reads).same.plan
  cases h with
  | refused | executed | woke => rfl
  | approved c registry draw turn hunused hturn =>
    cases approveRun_cases hsound.pinned hturn with
    | approved consumed row hstate => exact (authorizeAndExecute_facts _ _ _ _).same.plan
  | replayed c registry reads turn hunused hturn =>
    obtain ⟨-, capability, -, rfl⟩ := replayRun_eq_ok hturn
    exact hagain c registry capability reads
  | reconciled c registry reads turn hunused hreads hturn =>
    obtain ⟨-, capability, -, rfl⟩ := reconcileRun_eq_ok hturn
    exact hagain c registry capability reads
  | drifted c now run hunused hdrift =>
    obtain ⟨-, rfl⟩ := simulateDrift_eq_ok hdrift
    rfl
  | checked c stamp run result hunused hverify =>
    obtain ⟨row, -, rfl⟩ := verifyRunLedger_eq_ok hverify
    rfl
  | resumed c settled now run outcome hrequest hfinish =>
    cases finishExecution_cases hfinish <;> rfl

namespace Server

/-- A run goes on from where it is. -/
theorem record_precedes {model : ModelAdapter} {events later : List ServerEvent} {s s' : Server}
    (hrun : Transition.run (step model) {} events = some s)
    (hlater : Transition.run (step model) s later = some s') {ref : RunRef} {run : RunRecord}
    (hrecord : s.state.records ref = some run) :
    ∃ now, s'.state.records ref = some now ∧ run.Precedes now := by
  have hsystem : s.system ref = some (s.view ref run) := by rw [system, hrecord]; rfl
  obtain ⟨sys', hsystem', -, hprecedes⟩ := system_run
    (P := fun sys => sys.Wellkept ∧ run.Precedes sys.run)
    (fun _ _ h hstep => ⟨h.1.step hstep, h.2.trans
      ⟨hstep.plan h.1.sound, (RunSystem.builds_step hstep).isPrefix, hstep.leads h.1.sound⟩⟩)
    (run_fresh hrun) hsystem ⟨run_wellkept hrun hsystem, .refl run⟩ hlater
  obtain ⟨now, hrecord', rfl⟩ := Option.map_eq_some_iff.mp hsystem'
  exact ⟨now, hrecord', hprecedes⟩

omit [Host] in
/-- The view of a run of the server. -/
def Views (s : Server) (view : RunView) : Prop :=
  ∃ ref run, s.state.records ref = some run ∧ toRunView run = view

end Server

/-! ## Nothing is made up -/

namespace Session

omit [Host] in
/-- A view the page shows, or that is on its way to it. -/
def Holds (s : Session) (view : RunView) : Prop :=
  (∃ runId, s.page.runs runId = some view) ∨
    ∃ handler, s.fetch = some (handler, .replied (.run view))

omit [Host] in
/-- What the server works on is not an answer yet. -/
theorem progress_ne_replied (c : RequestId) (server : Server) (reply : Reply) :
    Delivery.progress c server ≠ .replied reply := by
  unfold Delivery.progress
  split <;> exact Delivery.noConfusion

omit [Host] in
/-- A step of the server makes no answer. -/
private theorem replied_of_after {server : Server} {delivery : Delivery} {reply : Reply}
    (h : delivery.after server = .replied reply) : delivery = .replied reply := by
  cases delivery with
  | handling c => exact absurd h (progress_ne_replied c server reply)
  | sent | settled | replied => exact h

/-- Checking a ledger is not answered with a view. -/
private theorem verifyReply_ne_run (server : Server) (runId : JsString) (stamp : Stamp)
    (text : JsString) (view : RunView) : server.verifyReply runId stamp text ≠ .run view := by
  unfold Server.verifyReply
  split
  · exact Reply.noConfusion
  split <;> exact Reply.noConfusion

omit [Host] in
/-- The run `getRun` finds is one of the server's. -/
private theorem views_of_runReply {server : Server} {runId : JsString} {view : RunView}
    (h : server.runReply runId = .run view) : server.Views view := by
  unfold Server.runReply at h
  split at h
  · cases h
  · rename_i run hfound
    obtain ⟨ref, -, hrecord⟩ := Option.bind_eq_some_iff.mp hfound
    exact ⟨ref, run, hrecord, Reply.run.inj h⟩

/-- A view on its way was so before, or is one of this moment. -/
theorem StepCases.replied {model : ModelAdapter} {s s' : Session} {e : SessionEvent}
    (h : StepCases model s e s') {handler : Handler} {view : RunView}
    (hfetch' : s'.fetch = some (handler, .replied (.run view))) :
    s'.page.runs = s.page.runs ∧
      (s.fetch = some (handler, .replied (.run view)) ∨ s'.server.Views view) := by
  cases h with
  | served e server hstep =>
    obtain ⟨⟨handler', delivery⟩, hfetch, heq⟩ := Option.map_eq_some_iff.mp hfetch'
    obtain ⟨rfl, hafter⟩ := Prod.mk.inj heq
    exact ⟨rfl, .inl (replied_of_after hafter ▸ hfetch)⟩
  | touched e page hpage => exact ⟨hpage.runs, .inl hfetch'⟩
  | clicked => cases hfetch'
  | read draws text handler' runId hfetch =>
    obtain ⟨-, hreply⟩ := Prod.mk.inj (Option.some.inj hfetch')
    exact ⟨rfl, .inr (views_of_runReply (Delivery.replied.inj hreply))⟩
  | checked draws text handler' runId hfetch =>
    obtain ⟨-, hreply⟩ := Prod.mk.inj (Option.some.inj hfetch')
    exact absurd (Delivery.replied.inj hreply) (verifyReply_ne_run _ _ _ _ _)
  | arrived draws text handler' call request hfetch =>
    obtain ⟨-, hreply⟩ := Prod.mk.inj (Option.some.inj hfetch')
    exact absurd hreply (progress_ne_replied _ _ _)
  | refused => cases hfetch'
  | shown text handler' ref run hfetch hrecord =>
    obtain ⟨-, hreply⟩ := Prod.mk.inj (Option.some.inj hfetch')
    exact ⟨rfl, .inr ⟨ref, run, hrecord, Reply.run.inj (Delivery.replied.inj hreply)⟩⟩
  | received handler' reply page next =>
    obtain ⟨_, -, heq⟩ := Option.map_eq_some_iff.mp hfetch'
    cases heq
  | lost => cases hfetch'

/-- What is shown changes where an answer arrives, and nowhere else. -/
theorem StepCases.runs {model : ModelAdapter} {s s' : Session} {e : SessionEvent}
    (h : StepCases model s e s') :
    s'.page.runs = s.page.runs ∨
      ∃ handler view, s.fetch = some (handler, .replied (.run view)) ∧ s'.fetch = none ∧
        s'.page.runs = Function.update s.page.runs view.runId (some view) := by
  cases h with
  | received handler reply page next hfetch hreceives =>
    cases hreceives with
    | failed | verified => exact .inl rfl
    | started run | acted run | refreshed _ _ run => exact .inr ⟨_, run, hfetch, rfl, rfl⟩
  | touched e page hpage => exact .inl hpage.runs
  | served | clicked | read | checked | arrived | refused | shown | lost => exact .inl rfl

/-- A view is made of what the server has at that moment. -/
theorem StepCases.holds {model : ModelAdapter} {s s' : Session} {e : SessionEvent}
    (h : StepCases model s e s') {view : RunView} (hholds : s'.Holds view) :
    s.Holds view ∨ s'.server.Views view := by
  rcases hholds with ⟨runId, hshown⟩ | ⟨handler, hfetch⟩
  · rcases h.runs with hsame | ⟨handler, arrived, hfetch, -, hruns⟩
    · exact .inl (.inl ⟨runId, hsame ▸ hshown⟩)
    · rw [hruns] at hshown
      by_cases hself : runId = arrived.runId
      · subst hself
        rw [Function.update_self] at hshown
        obtain rfl := Option.some.inj hshown
        exact .inl (.inr ⟨handler, hfetch⟩)
      · rw [Function.update_of_ne hself] at hshown
        exact .inl (.inl ⟨runId, hshown⟩)
  · exact (h.replied hfetch).2.imp_left fun hfetch => .inr ⟨handler, hfetch⟩

/-- The steps of a session, seen from the server. -/
theorem run_server {model : ModelAdapter} {events : List SessionEvent} {s s' : Session}
    (hrun : Transition.run (step model) s events = some s') :
    ∃ served, Transition.run (Server.step model) s.server served = some s'.server := by
  refine Transition.run_invariant
    (P := fun m => ∃ served, Transition.run (Server.step model) s.server served = some m.server) ?_
    ⟨[], rfl⟩ hrun
  rintro m e m' ⟨served, hserved⟩ hstep
  rcases (step_cases hstep).server with hsame | ⟨e', he'⟩
  · exact ⟨served, hsame ▸ hserved⟩
  · exact ⟨served ++ [e'], Transition.run_concat_eq_some.mpr ⟨m.server, hserved, he'⟩⟩

/-- Every view of a session was one of the server's. -/
private theorem views_of_holds {model : ModelAdapter} {events : List SessionEvent} {s : Session}
    (hrun : Transition.run (step model) {} events = some s) {view : RunView}
    (hholds : s.Holds view) :
    ∃ earlier later t, events = earlier ++ later ∧
      Transition.run (step model) {} earlier = some t ∧
      Transition.run (step model) t later = some s ∧ t.server.Views view := by
  induction events using List.reverseRecOn generalizing s with
  | nil =>
    obtain rfl := Option.some.inj hrun
    rcases hholds with ⟨_, h⟩ | ⟨_, h⟩ <;> cases h
  | append_singleton events e ih =>
    obtain ⟨m, hm, hstep⟩ := Transition.run_concat_eq_some.mp hrun
    rcases (step_cases hstep).holds hholds with hold | hviews
    · obtain ⟨earlier, later, t, rfl, ht, hlater, hviews⟩ := ih hm hold
      exact ⟨earlier, later ++ [e], t, List.append_assoc .., ht,
        Transition.run_concat_eq_some.mpr ⟨m, hlater, hstep⟩, hviews⟩
    · exact ⟨events ++ [e], [], s, (List.append_nil _).symm, hrun, rfl, hviews⟩

/-- What the page shows of a run is the view the server had of it at an earlier moment, and
    the run has only gone on from there. -/
theorem shows_the_server {model : ModelAdapter} {events : List SessionEvent} {s : Session}
    (hrun : Transition.run (step model) {} events = some s) {runId : JsString} {view : RunView}
    (hshown : s.page.runs runId = some view) :
    ∃ earlier later t ref run now, events = earlier ++ later ∧
      Transition.run (step model) {} earlier = some t ∧
      t.server.state.records ref = some run ∧ run.runId = runId ∧ toRunView run = view ∧
      s.server.state.records ref = some now ∧ run.Precedes now := by
  obtain ⟨earlier, later, t, rfl, ht, hlater, ref, run, hrecord, rfl⟩ :=
    views_of_holds hrun (.inl ⟨runId, hshown⟩)
  obtain ⟨served, hserved⟩ := run_server ht
  obtain ⟨after, hafter⟩ := run_server hlater
  obtain ⟨now, hnow, hprecedes⟩ := Server.record_precedes hserved hafter hrecord
  exact ⟨earlier, later, t, ref, run, now, rfl, ht, hrecord,
    (run_coherent hrun).listed.keyed runId _ hshown, rfl, hnow, hprecedes⟩

end Session

/-! ## Run ids -/

namespace Server

omit [Host] in
/-- The id a step draws for a new run. -/
def drawnRunId : ServerEvent → Option JsString
  | .request (.createRun _ draw) => some draw.runId
  | _ => none

omit [Host] in
/-- Every run is found under its own id. -/
def Registered (s : Server) : Prop :=
  ∀ ref run, s.state.records ref = some run → s.state.runs run.runId = some ref

/-- With new ids for new runs a step leads every id where it led before. -/
private theorem StepCases.runs {model : ModelAdapter} {s s' : Server} {e : ServerEvent}
    (h : StepCases model s e s') (hnew : ∀ runId ∈ drawnRunId e, s.state.runs runId = none)
    {runId : JsString} {ref : RunRef} (hruns : s.state.runs runId = some ref) :
    s'.state.runs runId = some ref := by
  cases h with
  | idle | acted => exact hruns
  | born scenarioId draw run turn he hpropose hturn =>
    have hrunId : turn.run.runId = draw.runId := by
      rw [hturn, followVerdict_plan s.state.registry draw.authorize (proposeRun_eq_ok hpropose).state]
      obtain ⟨flow, action, more, -, -, hproposed⟩ := proposeRun_record hpropose
      exact hproposed.runId
    have hnone : s.state.runs turn.run.runId = none := by
      subst he
      rw [hrunId]
      exact hnew draw.runId rfl
    have hne : runId ≠ turn.run.runId := fun heq => by
      rw [heq, hnone] at hruns
      cases hruns
    exact (Function.update_of_ne hne ..).trans hruns

/-- A step keeps every run under its own id. -/
private theorem Registered.step {model : ModelAdapter} {events : List ServerEvent}
    {s s' : Server} {e : ServerEvent} (h : s.Registered)
    (hrun : Transition.run (Server.step model) {} events = some s)
    (hnew : ∀ runId ∈ drawnRunId e, s.state.runs runId = none)
    (hstep : s.step model e = some s') : s'.Registered := by
  obtain ⟨hfresh, hlinked⟩ := run_ordered hrun
  have hcases := step_cases hfresh hlinked hstep
  have hlater : Transition.run (Server.step model) s [e] = some s' :=
    Transition.run_cons_eq_some.mpr ⟨s', hstep, rfl⟩
  intro ref now hnow
  cases hrecord : s.state.records ref with
  | some run =>
    obtain ⟨now', hnow', hprecedes⟩ := record_precedes hrun hlater hrecord
    obtain rfl := Option.some.inj (hnow.symm.trans hnow')
    have hrunId : now.runId = run.runId := congrArg RunPlan.runId hprecedes.plan
    rw [hrunId]
    exact hcases.runs hnew (h ref run hrecord)
  | none =>
    -- only the run that is born was not there before
    cases hcases with
    | idle => cases hrecord.symm.trans hnow
    | born scenarioId draw run turn =>
      by_cases hself : ref = s.state.nextRef
      · subst hself
        rw [apply_record] at hnow
        obtain rfl := Option.some.inj hnow
        exact Function.update_self ..
      · have hsame : s.state.records ref = some now := (Function.update_of_ne hself ..).symm.trans hnow
        cases hrecord.symm.trans hsame
    | acted actor run effect hactor hrecord' =>
      have hne : ref ≠ actor := fun heq => by
        rw [heq, hrecord'] at hrecord
        cases hrecord
      have hsame : s.state.records ref = some now := (Function.update_of_ne hne ..).symm.trans hnow
      cases hrecord.symm.trans hsame

/-- What an id leads to goes on. -/
private theorem findRun_precedes {model : ModelAdapter} {events : List ServerEvent}
    {s s' : Server} {e : ServerEvent}
    (hrun : Transition.run (Server.step model) {} events = some s)
    (hnew : ∀ runId ∈ drawnRunId e, s.state.runs runId = none)
    (hstep : s.step model e = some s') {runId : JsString} {run : RunRecord}
    (hfound : s.findRun runId = some run) :
    ∃ now, s'.findRun runId = some now ∧ run.Precedes now := by
  obtain ⟨hfresh, hlinked⟩ := run_ordered hrun
  obtain ⟨ref, hruns, hrecord⟩ := Option.bind_eq_some_iff.mp hfound
  have hlater : Transition.run (Server.step model) s [e] = some s' :=
    Transition.run_cons_eq_some.mpr ⟨s', hstep, rfl⟩
  obtain ⟨now, hnow, hprecedes⟩ := record_precedes hrun hlater hrecord
  refine ⟨now, Option.bind_eq_some_iff.mpr ⟨ref, ?_, hnow⟩, hprecedes⟩
  exact (step_cases hfresh hlinked hstep).runs hnew hruns

end Server

/-! ## Nothing is taken back -/

namespace Session

omit [Host] in
/-- The id a step draws for a new run. -/
def drawnRunId (s : Session) : SessionEvent → Option JsString
  | .server e => Server.drawnRunId e
  | .arrive draws _ =>
    match s.fetch with
    | some (_, .sent (.createRun _)) => some draws.create.runId
    | _ => none
  | _ => none

omit [Host] in
/-- No id is drawn twice. -/
def NewRunId (s : Session) (e : SessionEvent) : Prop :=
  ∀ runId ∈ s.drawnRunId e, s.server.state.runs runId = none

omit [Host] in
instance (s : Session) (e : SessionEvent) : Decidable (s.NewRunId e) :=
  inferInstanceAs (Decidable (∀ runId ∈ s.drawnRunId e, s.server.state.runs runId = none))

/-- What a step does to the server, with new ids for new runs. -/
private theorem StepCases.server_new {model : ModelAdapter} {s s' : Session} {e : SessionEvent}
    (h : StepCases model s e s') (hnew : s.NewRunId e) :
    s'.server = s.server ∨ ∃ e', s.server.step model e' = some s'.server ∧
      ∀ runId ∈ Server.drawnRunId e', s.server.state.runs runId = none := by
  cases h with
  | served e server hstep => exact .inr ⟨e, hstep, hnew⟩
  | checked draws text handler runId =>
    exact .inr ⟨.request (.verifyRunLedger runId draws.stamp), rfl, fun _ h => by cases h⟩
  | arrived draws text handler call request hfetch hverify hrequest =>
    refine .inr ⟨.request request, rfl, fun runId hdrawn => hnew runId ?_⟩
    -- the id is drawn by a call that creates a run
    cases call with
    | createRun scenario =>
      obtain rfl := Option.some.inj hrequest
      obtain rfl := Option.some.inj hdrawn
      simp [drawnRunId, hfetch]
    | approveRun | simulateDrift | replayRun | reconcileRun | verifyRunLedger =>
      obtain rfl := Option.some.inj hrequest
      cases hdrawn
    | listScenarios | listRuns | getRun | verifyLedgerPreview => cases hrequest
  | touched | clicked | read | refused | shown | received | lost => exact .inl rfl

omit [Host] in
/-- The view is of a run that its id leads to. -/
def Follows (server : Server) (view : RunView) : Prop :=
  ∃ run, server.findRun view.runId = some run ∧ view.Precedes (toRunView run)

omit [Host] in
/-- The views of a run are in its order: what is shown, what is on its way, what the server
    has. -/
structure Ordered (s : Session) : Prop where
  registered : s.server.Registered
  shown : ∀ runId view, s.page.runs runId = some view → Follows s.server view
  coming : ∀ handler view, s.fetch = some (handler, .replied (.run view)) →
    Follows s.server view ∧
      ∀ old, s.page.runs view.runId = some old → old.Precedes view

/-- One step keeps the order. -/
private theorem Ordered.step {model : ModelAdapter} {s s' : Session} {e : SessionEvent}
    (h : s.Ordered) (hcoherent : s.Coherent model) (hnew : s.NewRunId e)
    (hstep : s.step model e = some s') : s'.Ordered := by
  obtain ⟨served, hserved⟩ := hcoherent.reached
  have hcases := step_cases hstep
  have hserver := hcases.server_new hnew
  have hregistered : s'.server.Registered := by
    rcases hserver with hsame | ⟨e', hstep', hnew'⟩
    · exact hsame ▸ h.registered
    · exact h.registered.step hserved hnew' hstep'
  -- what a run has followed it still follows after a step
  have hfollows : ∀ view, Follows s.server view → Follows s'.server view := by
    rintro view ⟨run, hfound, hprecedes⟩
    rcases hserver with hsame | ⟨e', hstep', hnew'⟩
    · exact ⟨run, hsame ▸ hfound, hprecedes⟩
    · obtain ⟨now, hnow, hgone⟩ := Server.findRun_precedes hserved hnew' hstep' hfound
      exact ⟨now, hnow, hprecedes.trans hgone.view⟩
  refine ⟨hregistered, fun runId view hshown => ?_, fun handler view hfetch' => ?_⟩
  · rcases hcases.runs with hsame | ⟨handler, arrived, hfetch, -, hruns⟩
    · exact hfollows view (h.shown runId view (hsame ▸ hshown))
    · rw [hruns] at hshown
      by_cases hself : runId = arrived.runId
      · subst hself
        rw [Function.update_self] at hshown
        obtain rfl := Option.some.inj hshown
        exact hfollows _ (h.coming handler _ hfetch).1
      · rw [Function.update_of_ne hself] at hshown
        exact hfollows view (h.shown runId view hshown)
  · obtain ⟨hsame, hreply⟩ := hcases.replied hfetch'
    rw [hsame]
    rcases hreply with hfetch | ⟨ref, run, hrecord, rfl⟩
    · obtain ⟨hcoming, hold⟩ := h.coming handler view hfetch
      exact ⟨hfollows view hcoming, hold⟩
    · -- the view is of this moment, and what is shown is of the same run
      have hfound : s'.server.findRun run.runId = some run :=
        Option.bind_eq_some_iff.mpr ⟨ref, hregistered ref run hrecord, hrecord⟩
      refine ⟨⟨run, hfound, .refl _⟩, fun old hold => ?_⟩
      obtain ⟨now, hnow, hprecedes⟩ := hfollows old (h.shown _ old hold)
      rw [hcoherent.listed.keyed _ old hold] at hnow
      obtain rfl := Option.some.inj (hfound.symm.trans hnow)
      exact hprecedes

/-- What is shown of a run goes on. -/
private theorem Ordered.grows {model : ModelAdapter} {s s' : Session} {e : SessionEvent}
    (h : s.Ordered) (hstep : s.step model e = some s') {runId : JsString} {view : RunView}
    (hshown : s.page.runs runId = some view) :
    ∃ view', s'.page.runs runId = some view' ∧ view.Precedes view' := by
  rcases (step_cases hstep).runs with hsame | ⟨handler, arrived, hfetch, -, hruns⟩
  · exact ⟨view, hsame ▸ hshown, .refl view⟩
  · rw [hruns]
    by_cases hself : runId = arrived.runId
    · subst hself
      exact ⟨arrived, Function.update_self .., (h.coming handler arrived hfetch).2 view hshown⟩
    · exact ⟨view, (Function.update_of_ne hself ..).trans hshown, .refl view⟩

/-- What the page shows of a run is never taken back: whatever happens later, and in whatever
    order answers arrive, it shows the run as it is then or was in between, with every row of
    its ledger it has shown. -/
theorem shown_grows {model : ModelAdapter} {events later : List SessionEvent} {s s' : Session}
    (hrun : Transition.run (step model) {} events = some s)
    (hlater : Transition.run (step model) s later = some s')
    (hnew : Transition.Meets (step model) NewRunId {} (events ++ later)) {runId : JsString}
    {view : RunView} (hshown : s.page.runs runId = some view) :
    ∃ view', s'.page.runs runId = some view' ∧ view.Precedes view' := by
  have hordered : s.Coherent model ∧ s.Ordered := by
    refine ⟨run_coherent hrun, ?_⟩
    refine (Transition.run_invariant_of_meets (C := NewRunId)
      (P := fun m => m.Coherent model ∧ m.Ordered) ?_ ⟨coherent_empty model, ?_⟩ hnew.left hrun).2
    · rintro m e m' ⟨hcoherent, hordered⟩ hfresh hstep
      exact ⟨hcoherent.step hstep, hordered.step hcoherent hfresh hstep⟩
    · exact ⟨fun _ _ h => (by cases h), fun _ _ h => (by cases h), fun _ _ h => by cases h⟩
  refine (Transition.run_invariant_of_meets (C := NewRunId)
    (P := fun m => (m.Coherent model ∧ m.Ordered) ∧
      ∃ view', m.page.runs runId = some view' ∧ view.Precedes view') ?_
    ⟨hordered, view, hshown, .refl view⟩ (hnew.right hrun) hlater).2
  rintro m e m' ⟨⟨hcoherent, hordered⟩, view', hview', hprecedes⟩ hfresh hstep
  obtain ⟨next, hnext, hgrown⟩ := hordered.grows hstep hview'
  exact ⟨⟨hcoherent.step hstep, hordered.step hcoherent hfresh hstep⟩, next, hnext,
    hprecedes.trans hgrown⟩

end Session

end

namespace Sample

section
attribute [local instance] node

private theorem shownScenario_shown :
    ∃ s ∈ Transition.run (Session.step FakeModelAdapter.propose) {} shownScenario,
      (s.page.runs (js "run_000001")).isSome := by
  decide +kernel

theorem shownScenario_shows :
    ∃ s view ref run, Transition.run (Session.step FakeModelAdapter.propose) {} shownScenario =
        some s ∧ s.page.runs (js "run_000001") = some view ∧
      s.server.state.records ref = some run ∧
      view.ledger <+: run.ledger.entries ∧ run.runId = js "run_000001" := by
  obtain ⟨s, hs, hshown⟩ := shownScenario_shown
  obtain ⟨view, hview⟩ := Option.isSome_iff_exists.mp hshown
  obtain ⟨-, -, -, ref, run, now, -, -, -, hrunId, rfl, hnow, hprecedes⟩ :=
    Session.shows_the_server hs hview
  exact ⟨s, _, ref, now, hs, hview, hnow, hprecedes.ledger,
    (congrArg RunPlan.runId hprecedes.plan).trans hrunId⟩

/-- Its resource drifts. -/
def driftedScenario : List SessionEvent :=
  [.act (js "simulate_drift"), .arrive pageDraws [], .reply [], .receive]

theorem driftedScenario_grows :
    ∃ s s' view view', Transition.run (Session.step FakeModelAdapter.propose) {} shownScenario =
        some s ∧
      Transition.run (Session.step FakeModelAdapter.propose) s driftedScenario = some s' ∧
      s.page.runs (js "run_000001") = some view ∧ s'.page.runs (js "run_000001") = some view' ∧
      view.Precedes view' := by
  obtain ⟨s, hs, hshown⟩ := shownScenario_shown
  obtain ⟨view, hview⟩ := Option.isSome_iff_exists.mp hshown
  have hnew : Transition.Meets (Session.step FakeModelAdapter.propose) Session.NewRunId {}
      (shownScenario ++ driftedScenario) := by
    decide +kernel
  have hlater : (Transition.run (Session.step FakeModelAdapter.propose) {}
      (shownScenario ++ driftedScenario)).isSome := by
    decide +kernel
  obtain ⟨s', hs'⟩ := Option.isSome_iff_exists.mp hlater
  obtain ⟨m, hm, hrest⟩ := Transition.run_append_eq_some.mp hs'
  obtain rfl := Option.some.inj (hs.symm.trans hm)
  obtain ⟨view', hview', hprecedes⟩ := Session.shown_grows hs hrest hnew hview
  exact ⟨s, s', view, view', hs, hrest, hview, hview', hprecedes⟩

end

end Sample

end ActionHarbor
