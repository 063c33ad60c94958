import ActionHarbor.Model.Page
import ActionHarbor.Spec.Answers
import ActionHarbor.Spec.RunLedgers

/-!
# The page and the server together

The page waits for one answer at a time: its buttons are disabled while it is busy, and it is
busy for as long as a handler waits. Whatever the server does in between, for this page or for
others, the answer is of the kind the handler expects, and it comes without anyone's help.

## Key results

- `Session.run_coherent`: what holds in every reachable session
- `Session.orderly`: one handler at a time, and a list that shows every run once
- `Session.never_stuck`: a busy page is idle again after a few steps of its own request
-/

namespace ActionHarbor

/-! ## Requests that end -/

/-- An effect that leaves nothing in flight ends with an answer. -/
def RunEffect.Concludes (effect : RunEffect) : Prop :=
  effect.stage = none → ∃ outcome, effect.observations.getLast? = some (.responded outcome)

/-- A turn answers, or awaits the gateway. -/
theorem RunEffect.concludes_turn (turn : Turn) : (RunEffect.ofTurn turn).Concludes := by
  intro hstage
  have hstage : turn.stage = none := hstage
  show ∃ outcome, turn.observations.getLast? = some (.responded outcome)
  rw [Turn.stage] at hstage
  rw [Turn.observations]
  cases hprogress : turn.progress with
  | responded outcome => exact ⟨outcome, by simp [Turn.RequestProgress.observations]⟩
  | calling progress =>
    rw [hprogress] at hstage
    cases progress <;> cases hstage

section
variable [Host]

/-- So does any request on a run. -/
theorem RunRecord.requestEffect_concludes {registry : CapabilityRegistry} {run : RunRecord}
    {request : Request} {effect : RunEffect}
    (h : run.requestEffect registry request = some effect) : effect.Concludes := by
  have htake : ∀ result : Except RequestError Turn,
      (RunEffect.take registry run result).Concludes := by
    intro result
    cases result with
    | error error => exact fun _ => ⟨_, rfl⟩
    | ok turn => exact RunEffect.concludes_turn turn
  cases request with
  | createRun => cases h
  | approveRun | replayRun | reconcileRun =>
    obtain rfl := Option.some.inj h
    exact htake _
  | simulateDrift _ now =>
    obtain rfl := Option.some.inj h
    cases simulateDrift run now <;> exact fun _ => ⟨_, rfl⟩
  | verifyRunLedger _ stamp =>
    obtain rfl := Option.some.inj h
    cases verifyRunLedger run stamp <;> exact fun _ => ⟨_, rfl⟩

namespace Server

omit [Host] in
/-- What an orchestrator's function has returned: a run that is there, or an error. -/
def Returned (s : Server) (ref : Option RunRef) (outcome : Except RequestError Unit) : Prop :=
  outcome = .ok () → ∃ owner, ref = some owner ∧ (s.state.records owner).isSome

omit [Host] in
/-- The last thing that happened is an answer. -/
def JustAnswered (s : Server) : Prop :=
  ∃ ref outcome, s.lastAnswer = some (ref, outcome) ∧ s.Returned ref outcome

omit [Host] in
/-- An effect that ends with an answer. -/
private theorem justAnswered_apply (s : Server) (ref : RunRef) (c : RequestId)
    {effect : RunEffect} {outcome : Except RequestError Unit}
    (h : effect.observations.getLast? = some (.responded outcome)) :
    (s.apply ref c effect).JustAnswered := by
  refine ⟨some ref, outcome, ?_, fun _ => ⟨ref, rfl, by rw [apply_record]; rfl⟩⟩
  have hlast : (s.apply ref c effect).trace.getLast? = some ⟨c, some ref, .responded outcome⟩ := by
    simp [apply, entriesOn, List.getLast?_append, h]
  rw [lastAnswer, hlast]

omit [Host] in
/-- An effect that leaves nothing in flight under its number. -/
private theorem justAnswered_of_concludes (s : Server) (ref : RunRef) (c : RequestId)
    {effect : RunEffect} (h : effect.Concludes)
    (hnone : (s.apply ref c effect).requests c = none) :
    (s.apply ref c effect).JustAnswered := by
  have hstage : effect.stage = none := by simpa [apply] using hnone
  obtain ⟨outcome, hlast⟩ := h hstage
  exact justAnswered_apply s ref c hlast

omit [Host] in
/-- The number of an effect. -/
private theorem apply_requests_self (s : Server) (ref : RunRef) (c : RequestId)
    (effect : RunEffect) :
    (s.apply ref c effect).requests c = effect.stage.map fun stage => (ref, stage) :=
  Function.update_self ..

omit [Host] in
/-- Every other number. -/
private theorem apply_requests_of_ne (s : Server) (ref : RunRef) {c other : RequestId}
    (effect : RunEffect) (h : other ≠ c) :
    (s.apply ref c effect).requests other = s.requests other :=
  Function.update_of_ne h ..

/-- A request that arrives is in flight behind its turn, or answered by it. -/
theorem StepCases.request_ends {model : ModelAdapter} {s s' : Server} {e : ServerEvent}
    (h : StepCases model s e s') (he : e.isRequest = true) :
    (s'.requests s.nextRequest).isSome ∨ s'.JustAnswered := by
  rw [← Option.ne_none_iff_isSome]
  refine or_iff_not_imp_left.mpr fun hnone => ?_
  rw [ne_eq, not_not] at hnone
  cases h with
  | idle error => exact ⟨none, .error error, by simp [lastAnswer, refuse], fun h => by cases h⟩
  | born scenarioId draw run turn =>
    exact justAnswered_of_concludes _ _ _ (RunEffect.concludes_turn turn) hnone
  | acted ref run effect hactor hrecord heffect =>
    cases e with
    | request request =>
      exact justAnswered_of_concludes _ _ _ (RunRecord.requestEffect_concludes heffect) hnone
    | execute | deliver | timeout | refuse | resume => cases he

/-- The end of a wait leaves its request in flight. -/
private theorem isSome_stage_of_wakeEffect {registry : CapabilityRegistry} {run : RunRecord}
    {stage : Option RequestStage} {promise : Option AdapterPromise} {wakeup : Wakeup}
    {stamp : Stamp} {effect : RunEffect}
    (h : run.wakeEffect registry stage promise wakeup stamp = some effect) :
    effect.stage.isSome := by
  unfold RunRecord.wakeEffect at h
  split at h
  · obtain ⟨_, -, rfl⟩ := Option.map_eq_some_iff.mp h
    rfl
  · cases h

/-- A request stays in flight until it is answered. -/
theorem StepCases.request_stays {model : ModelAdapter} {s s' : Server} {e : ServerEvent}
    (h : StepCases model s e s') (hfresh : s.Fresh) {c : RequestId}
    (hc : (s.requests c).isSome) : (s'.requests c).isSome ∨ s'.JustAnswered := by
  have hlt : c < s.nextRequest := hfresh.lt_nextRequest (.inl (Option.ne_none_iff_isSome.mpr hc))
  cases h with
  | idle => exact .inl hc
  | born scenarioId draw run turn =>
    rw [apply_requests_of_ne _ _ _ (Nat.ne_of_lt hlt)]
    exact .inl hc
  | acted ref run effect hactor hrecord heffect =>
    -- a step about another request leaves this one alone
    by_cases hnumber : c = e.number s.nextRequest
    · obtain ⟨⟨owner, stage⟩, hrequest⟩ := Option.isSome_iff_exists.mp hc
      obtain rfl : owner = ref :=
        (hfresh.number_owner hactor).1 owner stage (hnumber ▸ hrequest)
      have hstage : ofRun owner (s.requests (e.number s.nextRequest)) = some stage := by
        simp [← hnumber, hrequest, ofRun]
      have hflight : effect.stage.isSome →
          ((s.apply owner (e.number s.nextRequest) effect).requests c).isSome := by
        intro hsome
        rw [hnumber, apply_requests_self, Option.isSome_map]
        exact hsome
      cases e with
      -- a new request has a number no request in flight has
      | request => exact absurd hlt (by rw [hnumber]; exact Nat.lt_irrefl _)
      | execute _ draw =>
        simp only [RunRecord.effect] at heffect
        split at heffect
        · obtain rfl := Option.some.inj heffect
          exact .inl (hflight (Option.isSome_of_eq_some hstage))
        · cases heffect
      | deliver _ stamp =>
        obtain ⟨own, -, heffect⟩ := Option.bind_eq_some_iff.mp heffect
        obtain ⟨wakeup, -, heffect⟩ := Option.bind_eq_some_iff.mp heffect
        exact .inl (hflight (isSome_stage_of_wakeEffect heffect))
      | timeout | refuse => exact .inl (hflight (isSome_stage_of_wakeEffect heffect))
      | resume _ now =>
        simp only [RunRecord.effect] at heffect
        split at heffect
        · obtain rfl := Option.some.inj heffect
          exact .inr (justAnswered_apply _ _ _ rfl)
        · cases heffect
    · rw [apply_requests_of_ne _ _ _ hnumber]
      exact .inl hc

/-- A run object that is there stays. -/
theorem StepCases.record_stays {model : ModelAdapter} {s s' : Server} {e : ServerEvent}
    (h : StepCases model s e s') {ref : RunRef} (hrecord : (s.state.records ref).isSome) :
    (s'.state.records ref).isSome := by
  have hupdate : ∀ (other : RunRef) (run : RunRecord),
      (Function.update s.state.records other (some run) ref).isSome := by
    intro other run
    by_cases hself : ref = other
    · rw [hself, Function.update_self]
      rfl
    · rwa [Function.update_of_ne hself]
  cases h with
  | idle => exact hrecord
  | born | acted => exact hupdate _ _

end Server

/-! ## One step of a session -/

omit [Host] in
/-- A page that differs in nothing the server answers: in its scenarios, its error, or the
    run that is selected, which is one of those shown. -/
structure Page.Touched (page page' : Page) : Prop where
  runs : page'.runs = page.runs
  runOrder : page'.runOrder = page.runOrder
  busy : page'.busy = page.busy
  warning : page'.ledgerIntegrityFailedFor = page.ledgerIntegrityFailedFor
  selected : page'.selectedRunId = page.selectedRunId ∨
    ∃ run ∈ page.orderedRuns, page'.selectedRunId = some run.runId

omit [Host] in
/-- What a handler does with an answer. -/
inductive Page.Receives (page : Page) :
    Handler → Reply → Page → Option (Handler × ClientCall) → Prop
  | failed (handler : Handler) (error : ClientError) :
      Receives page handler (.failed error) (page.fail error) none
  | started (run : RunView) :
      Receives page .start (.run run) { page.leaveBusy.upsertRun run with
        selectedRunId := some run.runId
        ledgerIntegrityFailedFor := none } none
  | acted (run : RunView) : Receives page .action (.run run) (page.leaveBusy.upsertRun run) none
  | verified (runId : JsString) (result : LedgerIntegrityResult) (ledger : List AuditLedgerEntry) :
      Receives page (.verify runId) (.verified result ledger) page
        (some (.refresh runId result, .getRun runId))
  | refreshed (runId : JsString) (result : LedgerIntegrityResult) (run : RunView) :
      Receives page (.refresh runId result) (.run run) { page.leaveBusy.upsertRun run with
        ledgerIntegrityFailedFor := if result matches .ok _ then none else some runId } none

omit [Host] in
theorem Page.receives_of_eq {page page' : Page} {handler : Handler} {reply : Reply}
    {next : Option (Handler × ClientCall)} (h : page.receive handler reply = some (page', next)) :
    page.Receives handler reply page' next := by
  unfold Page.receive at h
  split at h
  · cases h; exact .failed _ _
  · cases h; exact .started _
  · cases h; exact .acted _
  · cases h; exact .verified _ _ _
  · cases h; exact .refreshed _ _ _
  · cases h

omit [Host] in
/-- What a handler calls. -/
inductive Handler.Calls : Handler → ClientCall → Prop
  | start (scenarioId : JsString) : Calls .start (.createRun scenarioId)
  | approve (runId : JsString) : Calls .action (.approveRun runId)
  | drift (runId : JsString) : Calls .action (.simulateDrift runId)
  | replay (runId : JsString) : Calls .action (.replayRun runId)
  | reconcile (runId : JsString) : Calls .action (.reconcileRun runId)
  | verify (runId : JsString) : Calls (.verify runId) (.verifyRunLedger runId)
  | refresh (runId : JsString) (result : LedgerIntegrityResult) :
      Calls (.refresh runId result) (.getRun runId)

namespace Session

/-- What a step can do. -/
inductive StepCases (model : ModelAdapter) (s : Session) : SessionEvent → Session → Prop
  | served (e : ServerEvent) (server : Server) (hstep : s.server.step model e = some server) :
      StepCases model s (.server e) { s with
        server := server
        fetch := s.fetch.map fun (handler, delivery) => (handler, delivery.after server) }
  | touched (e : SessionEvent) (page : Page) (hpage : s.page.Touched page) :
      StepCases model s e { s with page := page }
  | clicked (e : SessionEvent) (handler : Handler) (call : ClientCall)
      (hidle : s.page.busy = false) (hcalls : handler.Calls call)
      (hfirst : ∀ runId result, handler ≠ .refresh runId result) :
      StepCases model s e (s.send s.page.enterBusy handler call)
  | read (draws : Draws) (text : JsString) (handler : Handler) (runId : JsString)
      (hfetch : s.fetch = some (handler, .sent (.getRun runId))) :
      StepCases model s (.arrive draws text)
        { s with fetch := some (handler, .replied (s.server.runReply runId)) }
  | checked (draws : Draws) (text : JsString) (handler : Handler) (runId : JsString)
      (hfetch : s.fetch = some (handler, .sent (.verifyRunLedger runId))) :
      StepCases model s (.arrive draws text) { s with
        server := s.server.handle model (.verifyRunLedger runId draws.stamp)
        fetch := some (handler, .replied (s.server.verifyReply runId draws.stamp text)) }
  | arrived (draws : Draws) (text : JsString) (handler : Handler) (call : ClientCall)
      (request : Request) (hfetch : s.fetch = some (handler, .sent call))
      (hverify : ∀ runId, call ≠ .verifyRunLedger runId)
      (hrequest : call.toRequest draws = some request) :
      StepCases model s (.arrive draws text) { s with
        server := s.server.handle model request
        fetch := some (handler,
          .progress s.server.nextRequest (s.server.handle model request)) }
  | refused (text : JsString) (handler : Handler) (ref : Option RunRef) (error : RequestError)
      (hfetch : s.fetch = some (handler, .settled ref (.error error))) :
      StepCases model s (.reply text)
        { s with fetch := some (handler, .replied (errorReply text error)) }
  | shown (text : JsString) (handler : Handler) (ref : RunRef) (run : RunRecord)
      (hfetch : s.fetch = some (handler, .settled (some ref) (.ok ())))
      (hrecord : s.server.state.records ref = some run) :
      StepCases model s (.reply text)
        { s with fetch := some (handler, .replied (.run (toRunView run))) }
  | received (handler : Handler) (reply : Reply) (page : Page)
      (next : Option (Handler × ClientCall)) (hfetch : s.fetch = some (handler, .replied reply))
      (hreceives : s.page.Receives handler reply page next) :
      StepCases model s .receive { s with
        page := page
        fetch := next.map fun (handler, call) => (handler, .sent call) }
  | lost (message : JsString) (hfetch : s.fetch.isSome) :
      StepCases model s (.lose message)
        { s with page := s.page.fail (.other message), fetch := none }

omit [Host] in
/-- The calls of the table. -/
private theorem calls_of_dispatch {action runId : JsString} {call : ClientCall}
    (h : Page.dispatch action runId = some call) : Handler.Calls .action call := by
  unfold Page.dispatch at h
  split at h
  · cases h; exact .approve runId
  split at h
  · cases h; exact .drift runId
  split at h
  · cases h; exact .replay runId
  split at h
  · cases h; exact .reconcile runId
  · cases h

/-- A click on an action. -/
private theorem act_cases {model : ModelAdapter} {s s' : Session} {action : JsString}
    (h : s.act action = some s') : StepCases model s (.act action) s' := by
  unfold act at h
  split at h
  · cases h
  split at h
  · rename_i run hrun hclick
    split at h
    · obtain rfl := Option.some.inj h
      exact .touched _ s.page ⟨rfl, rfl, rfl, rfl, .inl rfl⟩
    · rename_i page handler call hhandle
      obtain rfl := Option.some.inj h
      unfold Page.handleAction at hhandle
      split at hhandle
      · cases hhandle
      · rename_i runId hselected
        split at hhandle
        · cases hhandle
          exact .clicked _ _ _ hclick.1 (.verify runId) (fun _ _ h => by cases h)
        · obtain ⟨call', hdispatch, heq⟩ := Option.map_eq_some_iff.mp hhandle
          cases heq
          exact .clicked _ _ _ hclick.1 (calls_of_dispatch hdispatch) (fun _ _ h => by cases h)
  · cases h

/-- A step is one of these. -/
theorem step_cases {model : ModelAdapter} {s s' : Session} {e : SessionEvent}
    (h : s.step model e = some s') : StepCases model s e s' := by
  cases e with
  | server e =>
    obtain ⟨server, hstep, rfl⟩ := Option.map_eq_some_iff.mp h
    exact .served e server hstep
  | scenariosLoaded =>
    obtain rfl := Option.some.inj h
    exact .touched _ _ ⟨rfl, rfl, rfl, rfl, .inl rfl⟩
  | scenariosFailed error =>
    obtain rfl := Option.some.inj h
    exact .touched _ _ ⟨rfl, rfl, rfl, rfl, .inl rfl⟩
  | select runId =>
    simp only [step] at h
    split at h
    · rename_i hmem
      obtain rfl := Option.some.inj h
      obtain ⟨run, hrun, rfl⟩ := List.mem_map.mp (List.contains_iff_mem.mp hmem)
      exact .touched _ _ ⟨rfl, rfl, rfl, rfl, .inr ⟨run, hrun, rfl⟩⟩
    · cases h
  | start scenarioId =>
    simp only [step, start] at h
    split at h
    · rename_i hclick
      obtain rfl := Option.some.inj h
      exact .clicked _ _ _ hclick.1 (.start scenarioId) (fun _ _ h => by cases h)
    · cases h
  | act action => exact act_cases h
  | arrive draws text =>
    simp only [step, arrive] at h
    split at h
    -- reading a run and checking its ledger are answered in the step itself
    · rename_i handler runId hfetch
      obtain rfl := Option.some.inj h
      exact .read draws text handler runId hfetch
    · rename_i handler runId hfetch
      obtain rfl := Option.some.inj h
      exact .checked draws text handler runId hfetch
    · rename_i handler call hread hverify hfetch
      obtain ⟨request, hrequest, rfl⟩ := Option.map_eq_some_iff.mp h
      exact .arrived draws text handler call request hfetch (fun runId hcall => hverify runId hcall)
        hrequest
    · cases h
  | reply text =>
    simp only [step, reply] at h
    split at h
    · rename_i handler ref error hfetch
      obtain rfl := Option.some.inj h
      exact .refused text handler ref error hfetch
    · rename_i handler ref hfetch
      obtain ⟨run, hrun, rfl⟩ := Option.map_eq_some_iff.mp h
      obtain ⟨owner, rfl, hrecord⟩ := Option.bind_eq_some_iff.mp hrun
      exact .shown text handler owner run hfetch hrecord
    · cases h
  | receive =>
    simp only [step, receive] at h
    split at h
    · rename_i handler reply hfetch
      obtain ⟨⟨page, next⟩, hreceive, rfl⟩ := Option.map_eq_some_iff.mp h
      exact .received handler reply page next hfetch (Page.receives_of_eq hreceive)
    · cases h
  | lose message =>
    obtain ⟨_, hfetch, rfl⟩ := Option.map_eq_some_iff.mp h
    exact .lost message (Option.isSome_of_eq_some hfetch)

/-! ## The server of a session -/

/-- What a step does to the server: nothing, or a step of the server's own. -/
theorem StepCases.server {model : ModelAdapter} {s s' : Session} {e : SessionEvent}
    (h : StepCases model s e s') :
    s'.server = s.server ∨ ∃ e', s.server.step model e' = some s'.server := by
  cases h with
  | served e server hstep => exact .inr ⟨e, hstep⟩
  | checked draws text handler runId =>
    exact .inr ⟨.request (.verifyRunLedger runId draws.stamp), rfl⟩
  | arrived draws text handler call request => exact .inr ⟨.request request, rfl⟩
  | touched | clicked | read | refused | shown | received | lost => exact .inl rfl

end Session

/-! ## One handler at a time -/

omit [Host] in
/-- The list shows every run the page has, once, and the selected run is one of them. -/
structure Page.Listed (page : Page) : Prop where
  nodup : page.runOrder.Nodup
  shown : ∀ runId, runId ∈ page.runOrder ↔ (page.runs runId).isSome
  keyed : ∀ runId run, page.runs runId = some run → run.runId = runId
  selected : ∀ runId, page.selectedRunId = some runId → (page.runs runId).isSome

omit [Host] in
@[simp] theorem Page.upsertRun_runs (page : Page) (run : RunView) :
    (page.upsertRun run).runs = Function.update page.runs run.runId (some run) := rfl

omit [Host] in
@[simp] theorem Page.upsertRun_selectedRunId (page : Page) (run : RunView) :
    (page.upsertRun run).selectedRunId = page.selectedRunId := rfl

omit [Host] in
/-- An answer is put where the list finds it. -/
theorem Page.Listed.upsertRun {page : Page} (h : page.Listed) (run : RunView) :
    (page.upsertRun run).Listed where
  nodup := by
    show (if _ then _ else _ : List JsString).Nodup
    split
    · exact h.nodup
    · rename_i hnew
      exact List.nodup_cons.mpr ⟨fun hold => hnew (List.contains_iff_mem.mpr hold), h.nodup⟩
  shown runId := by
    -- a new run comes to the front, another one stays where it is
    have hmem : runId ∈ (page.upsertRun run).runOrder ↔
        runId = run.runId ∨ runId ∈ page.runOrder := by
      show runId ∈ (if _ then _ else _ : List JsString) ↔ _
      split
      · rename_i hold
        exact ⟨.inr, fun h => h.elim (fun h => h ▸ List.contains_iff_mem.mp hold) id⟩
      · exact List.mem_cons
    rw [hmem]
    by_cases hself : runId = run.runId
    · simp [hself]
    · simp [hself, h.shown]
  keyed runId view hview := by
    by_cases hself : runId = run.runId
    · subst hself
      rw [Page.upsertRun_runs, Function.update_self] at hview
      exact congrArg RunView.runId (Option.some.inj hview).symm
    · rw [Page.upsertRun_runs, Function.update_of_ne hself] at hview
      exact h.keyed runId view hview
  selected runId hselected := by
    by_cases hself : runId = run.runId
    · simp [hself]
    · simpa [hself] using h.selected runId hselected

omit [Host] in
/-- Only the list and the selection count. -/
theorem Page.Listed.congr {page page' : Page} (h : page.Listed) (hruns : page'.runs = page.runs)
    (horder : page'.runOrder = page.runOrder)
    (hselected : ∀ runId, page'.selectedRunId = some runId → (page.runs runId).isSome) :
    page'.Listed where
  nodup := horder ▸ h.nodup
  shown runId := by rw [horder, hruns, h.shown]
  keyed runId run hrun := h.keyed runId run (hruns ▸ hrun)
  selected runId hrunId := by rw [hruns]; exact hselected runId hrunId

omit [Host] in
/-- A run of the list can be selected. -/
theorem Page.Listed.of_orderedRuns {page : Page} (h : page.Listed) {run : RunView}
    (hrun : run ∈ page.orderedRuns) : (page.runs run.runId).isSome := by
  obtain ⟨runId, -, hfound⟩ := List.mem_filterMap.mp hrun
  rw [h.keyed runId run hfound, hfound]
  rfl

omit [Host] in
/-- No entry of the list is missing. -/
theorem Page.Listed.map_orderedRuns {page : Page} (h : page.Listed) :
    page.orderedRuns.map (·.runId) = page.runOrder := by
  have hfound : ∀ runId ∈ page.runOrder,
      (page.runs runId).map (·.runId) = some runId := by
    intro runId hmem
    obtain ⟨run, hrun⟩ := Option.isSome_iff_exists.mp ((h.shown runId).mp hmem)
    rw [hrun, Option.map_some, h.keyed runId run hrun]
  rw [Page.orderedRuns, List.map_filterMap, List.filterMap_congr hfound, List.filterMap_some]

omit [Host] in
/-- The two handlers that wait for the orchestrator. -/
def Handler.Awaits (handler : Handler) : Prop := handler = .start ∨ handler = .action

omit [Host] in
/-- The answers a handler can go on with. The ledgers of the server are intact. -/
inductive Handler.Takes : Handler → Reply → Prop
  | failed (handler : Handler) (error : ClientError) : Takes handler (.failed error)
  | awaited (handler : Handler) (run : RunView) (h : handler.Awaits) : Takes handler (.run run)
  | verified (runId : JsString) (rows : Nat) (ledger : List AuditLedgerEntry) :
      Takes (.verify runId) (.verified (.ok rows) ledger)
  | refreshed (runId : JsString) (rows : Nat) (run : RunView) :
      Takes (.refresh runId (.ok rows)) (.run run)

omit [Host] in
/-- Where a handler's request can be. -/
inductive Delivery.Fits (server : Server) (handler : Handler) : Delivery → Prop
  | sent (call : ClientCall) (hcalls : handler.Calls call)
      (hintact : ∀ runId result, handler = .refresh runId result → ∃ rows, result = .ok rows) :
      Fits server handler (.sent call)
  | handling (c : RequestId) (hawaits : handler.Awaits)
      (hflight : (server.requests c).isSome) : Fits server handler (.handling c)
  | settled (ref : Option RunRef) (outcome : Except RequestError Unit)
      (hawaits : handler.Awaits) (hreturned : server.Returned ref outcome) :
      Fits server handler (.settled ref outcome)
  | replied (reply : Reply) (htakes : handler.Takes reply) :
      Fits server handler (.replied reply)

omit [Host] in
/-- The orchestrator has worked on a request. -/
theorem Delivery.fits_progress {server : Server} {handler : Handler} {c : RequestId}
    (hawaits : handler.Awaits) (h : (server.requests c).isSome ∨ server.JustAnswered) :
    (Delivery.progress c server).Fits server handler := by
  unfold Delivery.progress
  split
  · rename_i ref outcome hnone hlast
    rcases h with hflight | ⟨ref', outcome', hlast', hreturned⟩
    · rw [hnone] at hflight
      cases hflight
    · cases hlast.symm.trans hlast'
      exact .settled ref outcome hawaits hreturned
  · rename_i hpending
    refine .handling c hawaits (h.elim id fun ⟨ref, outcome, hlast, _⟩ => ?_)
    exact Option.ne_none_iff_isSome.mp fun hnone => hpending ref outcome hnone hlast

namespace Session

/-- What is known of a session in every reachable state. -/
structure Coherent (model : ModelAdapter) (s : Session) : Prop where
  reached : ∃ served, Transition.run (Server.step model) {} served = some s.server
  locked : s.page.busy = s.fetch.isSome
  fits : ∀ handler delivery, s.fetch = some (handler, delivery) → delivery.Fits s.server handler
  unwarned : s.page.ledgerIntegrityFailedFor = none
  listed : s.page.Listed

/-- The handler of the page takes an answer: it is done, or reads the run once more. -/
theorem Coherent.receives {model : ModelAdapter} {s : Session} (h : s.Coherent model)
    {handler : Handler} {reply : Reply} {page : Page} {next : Option (Handler × ClientCall)}
    (htakes : handler.Takes reply) (hbusy : s.page.busy = true)
    (hreceives : s.page.Receives handler reply page next) :
    page.Listed ∧ page.ledgerIntegrityFailedFor = none ∧ page.busy = next.isSome ∧
      ∀ handler call, next = some (handler, call) → handler.Calls call ∧
        ∀ runId result, handler = .refresh runId result → ∃ rows, result = .ok rows := by
  -- the lock is no part of what is listed
  have hidle : s.page.leaveBusy.Listed := h.listed.congr rfl rfl h.listed.selected
  cases hreceives with
  | failed handler error =>
    exact ⟨h.listed.congr rfl rfl h.listed.selected, h.unwarned, rfl, fun _ _ h => by cases h⟩
  | started run =>
    refine ⟨(hidle.upsertRun run).congr rfl rfl ?_, rfl, rfl, fun _ _ h => by cases h⟩
    rintro runId hselected
    obtain rfl := Option.some.inj hselected
    simp
  | acted run => exact ⟨hidle.upsertRun run, h.unwarned, rfl, fun _ _ h => by cases h⟩
  | verified runId result ledger =>
    refine ⟨h.listed, h.unwarned, hbusy, ?_⟩
    rintro handler call heq
    cases heq
    cases htakes with
    | verified _ rows =>
      exact ⟨.refresh runId _, fun _ _ heq => by cases heq; exact ⟨rows, rfl⟩⟩
  | refreshed runId result run =>
    have hlisted := hidle.upsertRun run
    cases htakes with
    | awaited _ _ hawaits => rcases hawaits with h | h <;> cases h
    | refreshed _ rows =>
      exact ⟨hlisted.congr rfl rfl hlisted.selected, rfl, rfl, fun _ _ h => by cases h⟩

/-- A step of the server leaves the page's request where its handler looks for it. -/
private theorem fits_after {model : ModelAdapter} {server server' : Server} {e : ServerEvent}
    {handler : Handler} {delivery : Delivery} (hfresh : server.Fresh) (hlinked : server.Linked)
    (hstep : server.step model e = some server') (h : delivery.Fits server handler) :
    (delivery.after server').Fits server' handler := by
  have hcases := Server.step_cases hfresh hlinked hstep
  cases h with
  | sent call hcalls hintact => exact .sent call hcalls hintact
  | handling c hawaits hflight =>
    exact Delivery.fits_progress hawaits (hcases.request_stays hfresh hflight)
  | settled ref outcome hawaits hreturned =>
    refine .settled ref outcome hawaits fun houtcome => ?_
    obtain ⟨owner, howner, hrecord⟩ := hreturned houtcome
    exact ⟨owner, howner, hcases.record_stays hrecord⟩
  | replied reply htakes => exact .replied reply htakes

/-- Checking a ledger is answered with the number of its rows. -/
private theorem takes_verifyReply {model : ModelAdapter} {served : List ServerEvent}
    {server : Server} (hrun : Transition.run (Server.step model) {} served = some server)
    (runId : JsString) (stamp : Stamp) (text : JsString) :
    Handler.Takes (.verify runId) (server.verifyReply runId stamp text) := by
  unfold Server.verifyReply
  split
  · exact .failed _ _
  · rename_i run hfound
    obtain ⟨ref, -, hrecord⟩ := Option.bind_eq_some_iff.mp hfound
    have hintact : run.ledger.Intact :=
      (Server.builds_record hrun hrecord).intact AuditLedger.intact_empty
    obtain ⟨entry, -, hverify⟩ := verifyRunLedger_intact hintact stamp
    rw [hverify]
    exact .verified runId _ _

omit [Host] in
/-- What a handler that awaits the orchestrator calls, and no other. -/
private theorem awaits_of_calls {handler : Handler} {call : ClientCall} {request : Request}
    {draws : Draws} (hcalls : handler.Calls call) (hverify : ∀ runId, call ≠ .verifyRunLedger runId)
    (hrequest : call.toRequest draws = some request) : handler.Awaits := by
  cases hcalls with
  | start => exact .inl rfl
  | approve | drift | replay | reconcile => exact .inr rfl
  | verify runId => exact absurd rfl (hverify runId)
  | refresh => cases hrequest

/-- One step keeps it. -/
theorem Coherent.step {model : ModelAdapter} {s s' : Session} {e : SessionEvent}
    (h : s.Coherent model) (hstep : s.step model e = some s') : s'.Coherent model := by
  obtain ⟨served, hserved⟩ := h.reached
  obtain ⟨hfresh, hlinked⟩ := Server.run_ordered hserved
  have hcases := step_cases hstep
  have hreached : ∃ served, Transition.run (Server.step model) {} served = some s'.server := by
    rcases hcases.server with hsame | ⟨e', he'⟩
    · exact ⟨served, hsame ▸ hserved⟩
    · exact ⟨served ++ [e'], Transition.run_concat_eq_some.mpr ⟨s.server, hserved, he'⟩⟩
  -- the page is as it was, and still waits
  have hwaits : ∀ handler delivery, s.fetch = some (handler, delivery) → s.page.busy = true :=
    fun handler delivery hfetch => h.locked.trans (Option.isSome_of_eq_some hfetch)
  have hwaiting : ∀ (server : Server) (handler : Handler) (delivery delivery' : Delivery),
      s.fetch = some (handler, delivery) → s'.server = server →
      delivery'.Fits server handler →
      s' = { s with server := server, fetch := some (handler, delivery') } →
      s'.Coherent model := by
    rintro server handler delivery delivery' hfetch rfl hfits hs'
    rw [hs'] at hreached ⊢
    exact ⟨hreached, hwaits handler delivery hfetch,
      fun _ _ heq => by cases heq; exact hfits, h.unwarned, h.listed⟩
  cases hcases with
  | served e server hserve =>
    refine ⟨hreached, ?_, fun handler delivery hfetch => ?_, h.unwarned, h.listed⟩
    · simpa using h.locked
    · obtain ⟨⟨handler', delivery'⟩, hfetch', heq⟩ := Option.map_eq_some_iff.mp hfetch
      cases heq
      exact fits_after hfresh hlinked hserve (h.fits _ _ hfetch')
  | touched e page hpage =>
    refine ⟨hreached, hpage.busy.trans h.locked, h.fits, hpage.warning.trans h.unwarned, ?_⟩
    refine h.listed.congr hpage.runs hpage.runOrder fun runId hselected => ?_
    rcases hpage.selected with hsame | ⟨run, hrun, hnew⟩
    · exact h.listed.selected runId (hsame ▸ hselected)
    · obtain rfl := Option.some.inj (hnew.symm.trans hselected)
      exact h.listed.of_orderedRuns hrun
  | clicked e handler call hidle hcalls hfirst =>
    refine ⟨hreached, rfl, fun handler' delivery heq => ?_, h.unwarned,
      h.listed.congr rfl rfl h.listed.selected⟩
    cases heq
    exact .sent call hcalls fun runId result heq => absurd heq (hfirst runId result)
  | read draws text handler runId hfetch =>
    refine hwaiting s.server handler _ (.replied (s.server.runReply runId)) hfetch rfl ?_ rfl
    cases h.fits _ _ hfetch with
    | sent _ hcalls hintact =>
      cases hcalls with
      | refresh _ result =>
        obtain ⟨rows, rfl⟩ := hintact runId result rfl
        refine .replied _ ?_
        unfold Server.runReply
        split
        · exact .failed _ _
        · exact .refreshed runId rows _
  | checked draws text handler runId hfetch =>
    refine hwaiting _ handler _ (.replied (s.server.verifyReply runId draws.stamp text)) hfetch rfl
      ?_ rfl
    cases h.fits _ _ hfetch with
    | sent _ hcalls =>
      cases hcalls
      exact .replied _ (takes_verifyReply hserved runId draws.stamp text)
  | arrived draws text handler call request hfetch hverify hrequest =>
    refine hwaiting _ handler _ _ hfetch rfl ?_ rfl
    cases h.fits _ _ hfetch with
    | sent _ hcalls =>
      have hhandled : Server.StepCases model s.server (.request request)
          (s.server.handle model request) := Server.step_cases hfresh hlinked rfl
      exact Delivery.fits_progress (awaits_of_calls hcalls hverify hrequest)
        (hhandled.request_ends rfl)
  | refused text handler ref error hfetch =>
    exact hwaiting s.server handler _ _ hfetch rfl (.replied _ (.failed _ _)) rfl
  | shown text handler ref run hfetch hrecord =>
    refine hwaiting s.server handler _ _ hfetch rfl (.replied _ ?_) rfl
    cases h.fits _ _ hfetch with
    | settled _ _ hawaits => exact .awaited handler _ hawaits
  | received handler reply page next hfetch hreceives =>
    cases h.fits _ _ hfetch with
    | replied _ htakes =>
      obtain ⟨hlisted, hunwarned, hbusy, hnext⟩ :=
        h.receives htakes (hwaits _ _ hfetch) hreceives
      refine ⟨hreached, by simpa using hbusy, fun handler' delivery heq => ?_, hunwarned, hlisted⟩
      obtain ⟨⟨again, call⟩, hagain, heq⟩ := Option.map_eq_some_iff.mp heq
      cases heq
      obtain ⟨hcalls, hintact⟩ := hnext handler' call hagain
      exact .sent call hcalls hintact
  | lost message hfetch =>
    exact ⟨hreached, rfl, fun _ _ h => (by cases h), h.unwarned,
      h.listed.congr rfl rfl h.listed.selected⟩

theorem coherent_empty (model : ModelAdapter) : Coherent model {} where
  reached := ⟨[], rfl⟩
  locked := rfl
  fits _ _ h := by cases h
  unwarned := rfl
  listed := ⟨List.nodup_nil, fun _ => by simp, fun _ _ h => (by cases h), fun _ h => by cases h⟩

/-- Every reachable session is coherent. -/
theorem run_coherent {model : ModelAdapter} {events : List SessionEvent} {s : Session}
    (hrun : Transition.run (step model) {} events = some s) : s.Coherent model :=
  Transition.run_invariant (P := Coherent model) (fun _ _ _ h hstep => h.step hstep)
    (coherent_empty model) hrun

/-- One handler of the page waits at a time, and the page is busy for as long as it does. The
    list shows every run once, under its own id, and the selected run is one of them. No
    ledger of the server is ever said to have been tampered with. -/
theorem orderly {model : ModelAdapter} {events : List SessionEvent} {s : Session}
    (hrun : Transition.run (step model) {} events = some s) :
    s.page.busy = s.fetch.isSome ∧
      s.page.orderedRuns.map (·.runId) = s.page.runOrder ∧ s.page.runOrder.Nodup ∧
      (∀ runId run, s.page.runs runId = some run → run.runId = runId ∧ run ∈ s.page.orderedRuns) ∧
      (∀ runId, s.page.selectedRunId = some runId → s.page.selectedRun.isSome) ∧
      s.page.ledgerIntegrityFailedFor = none := by
  have h := run_coherent hrun
  refine ⟨h.locked, ?_, h.listed.nodup, fun runId run hfound => ?_, fun runId hselected => ?_,
    h.unwarned⟩
  · exact h.listed.map_orderedRuns
  · refine ⟨h.listed.keyed runId run hfound, List.mem_filterMap.mpr ⟨runId, ?_, hfound⟩⟩
    exact (h.listed.shown runId).mpr (Option.isSome_of_eq_some hfound)
  · rw [Page.selectedRun, hselected]
    exact h.listed.selected runId hselected

/-! ## The page does not hang -/

omit [Host] in
/-- The step the page's own request takes next, with what it draws: no click, no step of
    another request, no failure of the network. -/
def ownStep (s : Session) (draws : Draws) (text : JsString) : Option SessionEvent :=
  match s.fetch with
  | none => none
  | some (_, .sent _) => some (.arrive draws text)
  | some (_, .handling c) =>
    -- the number is the page's own
    (s.server.requests c).bind fun entry =>
      (entry.2.ownSteps c draws.stamp draws.now).head?.map .server
  | some (_, .settled _ _) => some (.reply text)
  | some (_, .replied _) => some .receive

omit [Host] in
/-- A step is the next one of the page's own request. What it draws is told by the session it
    is taken in, so that every step may draw something else. -/
def Own (draws : Session → Draws) (text : Session → JsString) (s : Session) (e : SessionEvent) :
    Prop :=
  s.ownStep (draws s) (text s) = some e

/-- The page is idle again after at most `n` steps of its own request. -/
def Finishes (model : ModelAdapter) (draws : Session → Draws) (text : Session → JsString) (n : ℕ)
    (s : Session) : Prop :=
  ∃ own s', own.length ≤ n ∧ Transition.Meets (step model) (Own draws text) s own ∧
    Transition.run (step model) s own = some s' ∧ s'.fetch = none ∧ s'.page.busy = false

variable {model : ModelAdapter} {draws : Session → Draws} {text : Session → JsString}
  {s m : Session} {n : ℕ} {handler : Handler}

/-- One step before. -/
private theorem Finishes.cons {e : SessionEvent} (hstep : s.step model e = some m)
    (hown : s.Own draws text e) (h : m.Finishes model draws text n) :
    s.Finishes model draws text (n + 1) := by
  obtain ⟨own, s', hlength, howns, hrun, hdone⟩ := h
  refine ⟨e :: own, s', Nat.succ_le_succ hlength, ⟨hown, fun m' hm' => ?_⟩, ?_, hdone⟩
  · obtain rfl := Option.some.inj (hstep.symm.trans hm')
    exact howns
  · exact Transition.run_cons_eq_some.mpr ⟨m, hstep, hrun⟩

private theorem Finishes.mono (h : s.Finishes model draws text n) {k : ℕ} (hk : n ≤ k) :
    s.Finishes model draws text k := by
  obtain ⟨own, s', hlength, h⟩ := h
  exact ⟨own, s', hlength.trans hk, h⟩

/-- The answer ends the handler. -/
private theorem finishes_replied {reply : Reply} {page : Page}
    (hfetch : s.fetch = some (handler, .replied reply))
    (hreceive : s.page.receive handler reply = some (page, none)) (hidle : page.busy = false) :
    s.Finishes model draws text 1 := by
  have hown : s.Own draws text .receive := by rw [Own, ownStep, hfetch]
  refine ⟨[.receive], { s with page := page, fetch := none }, Nat.le_refl 1,
    ⟨hown, fun _ _ => trivial⟩, ?_, rfl, hidle⟩
  refine Transition.run_cons_eq_some.mpr ⟨_, ?_, rfl⟩
  simp only [step, receive, hfetch, hreceive, Option.map_some, Option.map_none]

/-- The run is read once more. -/
private theorem finishes_read {runId : JsString} {rows : ℕ}
    (hfetch : s.fetch = some (.refresh runId (.ok rows), .sent (.getRun runId))) :
    s.Finishes model draws text 2 := by
  have harrive : s.step model (.arrive (draws s) (text s)) = some { s with
      fetch := some (.refresh runId (.ok rows), .replied (s.server.runReply runId)) } := by
    simp only [step, arrive, hfetch]
  refine Finishes.cons harrive (by rw [Own, ownStep, hfetch]) ?_
  -- there is an answer for either outcome
  unfold Server.runReply
  split
  · exact finishes_replied rfl rfl rfl
  · exact finishes_replied rfl rfl rfl

/-- An answer is on its way back. -/
private theorem finishes_of_takes {reply : Reply}
    (hfetch : s.fetch = some (handler, .replied reply)) (htakes : handler.Takes reply) :
    s.Finishes model draws text 3 := by
  cases htakes with
  | failed => exact (finishes_replied hfetch rfl rfl).mono (by omega)
  | awaited _ run hawaits =>
    rcases hawaits with rfl | rfl <;> exact (finishes_replied hfetch rfl rfl).mono (by omega)
  | verified runId rows ledger =>
    have hreceive : s.step model .receive = some { s with
        fetch := some (.refresh runId (.ok rows), .sent (.getRun runId)) } := by
      simp only [step, receive, hfetch, Page.receive, Option.map_some]
    exact Finishes.cons hreceive (by rw [Own, ownStep, hfetch]) (finishes_read rfl)
  | refreshed runId rows run => exact (finishes_replied hfetch rfl rfl).mono (by omega)

/-- The orchestrator's function has returned. -/
private theorem finishes_settled {ref : Option RunRef} {outcome : Except RequestError Unit}
    (hfetch : s.fetch = some (handler, .settled ref outcome)) (hawaits : handler.Awaits)
    (hreturned : s.server.Returned ref outcome) : s.Finishes model draws text 2 := by
  have hown : s.Own draws text (.reply (text s)) := by rw [Own, ownStep, hfetch]
  cases outcome with
  | error error =>
    have hreply : s.step model (.reply (text s)) = some { s with
        fetch := some (handler, .replied (errorReply (text s) error)) } := by
      simp only [step, reply, hfetch]
    exact Finishes.cons hreply hown (finishes_replied rfl rfl rfl)
  | ok =>
    obtain ⟨owner, rfl, hrecord⟩ := hreturned rfl
    obtain ⟨run, hrecord⟩ := Option.isSome_iff_exists.mp hrecord
    have hreply : s.step model (.reply (text s)) = some { s with
        fetch := some (handler, .replied (.run (toRunView run))) } := by
      simp only [step, reply, hfetch, Option.bind_some, hrecord, Option.map_some]
    refine Finishes.cons hreply hown ?_
    rcases hawaits with rfl | rfl <;> exact finishes_replied rfl rfl rfl

/-- The orchestrator works on the request: it is woken, resumed, and answered. -/
private theorem finishes_handling (h : s.Coherent model) {c : RequestId}
    (hfetch : s.fetch = some (handler, .handling c)) (hawaits : handler.Awaits) :
    s.Finishes model draws text 4 := by
  obtain ⟨served, hserved⟩ := h.reached
  have hattended := Server.run_attended hserved
  -- a step of the server keeps the request in the handler's hands
  have hserve : ∀ (m : Session) (e : ServerEvent) (server : Server),
      m.fetch = some (handler, .handling c) → m.server.step model e = some server →
      m.step model (.server e) = some { m with
        server := server, fetch := some (handler, .progress c server) } := by
    intro m e server hfetch hstep
    simp only [step, serverStep, hstep, Option.map_some, hfetch, Delivery.after]
  -- the next step is the first of the request's own
  have hown : ∀ (m : Session) (ref : RunRef) (stage : RequestStage) (e : ServerEvent),
      m.fetch = some (handler, .handling c) → m.server.requests c = some (ref, stage) →
      (stage.ownSteps c (draws m).stamp (draws m).now).head? = some e →
      m.Own draws text (.server e) := by
    intro m ref stage e hfetch hrequest hhead
    simp only [Own, ownStep, hfetch, hrequest, Option.bind_some, hhead, Option.map_some]
  have hresumed : ∀ m : Session, m.Coherent model → m.fetch = some (handler, .handling c) →
      ∀ ref settled run, m.server.requests c = some (ref, .settled settled) →
        m.server.state.records ref = some run → m.Finishes model draws text 3 := by
    intro m hm hfetch ref settled run hrequest hrecord
    obtain ⟨server, outcome, hresume, hrequests, htrace⟩ :=
      Server.resume_enabled hrequest hrecord (draws m).now
    have hstep := hserve m (.resume c (draws m).now) server hfetch hresume
    have hnone : server.requests c = none := by rw [hrequests, Function.update_self]
    have hlast : server.lastAnswer = some (some ref, outcome) := by
      simp [Server.lastAnswer, htrace, entriesOn]
    have hprogress : Delivery.progress c server = .settled (some ref) outcome := by
      simp only [Delivery.progress, hnone, hlast]
    rw [hprogress] at hstep
    cases (hm.step hstep).fits handler _ rfl with
    | settled _ _ _ hreturned =>
      exact Finishes.cons hstep (hown m ref _ _ hfetch hrequest rfl)
        (finishes_settled rfl hawaits hreturned)
  cases h.fits _ _ hfetch with
  | handling _ _ hflight =>
    obtain ⟨⟨ref, stage⟩, hrequest⟩ := Option.isSome_iff_exists.mp hflight
    cases stage with
    | settled settled =>
      obtain ⟨run, hrecord⟩ := Option.isSome_iff_exists.mp
        (hattended.records ref (hattended.fresh.requestRefs c ref _ hrequest))
      exact (hresumed s h hfetch ref settled run hrequest hrecord).mono (by omega)
    | waiting waiting =>
      obtain ⟨server, settled, run, hwake, hwoken, hrecord, -⟩ :=
        Server.wakeStep_enabled model hattended hrequest (draws s).stamp
      have hsettled : server.requests c = some (ref, .settled settled) := by
        rw [hwoken, Function.update_self]
      have hstep := hserve s _ server hfetch hwake
      have hprogress : Delivery.progress c server = .handling c := by
        simp only [Delivery.progress, hsettled]
      rw [hprogress] at hstep
      exact Finishes.cons hstep (hown s ref _ _ hfetch hrequest rfl)
        (hresumed _ (h.step hstep) rfl ref settled run hsettled hrecord)

/-- A busy page is idle again after at most five steps, each the next one of its own request,
    whatever each of them draws and in whatever state the other requests are. -/
theorem never_stuck {events : List SessionEvent}
    (hrun : Transition.run (step model) {} events = some s) (hbusy : s.page.busy = true)
    (draws : Session → Draws) (text : Session → JsString) :
    ∃ own s', own.length ≤ 5 ∧ Transition.Meets (step model) (Own draws text) s own ∧
      Transition.run (step model) s own = some s' ∧ s'.fetch = none ∧ s'.page.busy = false := by
  have h := run_coherent hrun
  obtain ⟨⟨handler, delivery⟩, hfetch⟩ := Option.isSome_iff_exists.mp (h.locked.symm.trans hbusy)
  show s.Finishes model draws text 5
  cases h.fits _ _ hfetch with
  | replied reply htakes => exact (finishes_of_takes hfetch htakes).mono (by omega)
  | settled ref outcome hawaits hreturned =>
    exact (finishes_settled hfetch hawaits hreturned).mono (by omega)
  | handling c hawaits => exact (finishes_handling h hfetch hawaits).mono (by omega)
  | sent call hcalls hintact =>
    -- the request arrives, and is wherever it is then
    obtain ⟨m, delivery, harrive, hdelivery, hnot⟩ : ∃ m delivery,
        s.step model (.arrive (draws s) (text s)) = some m ∧ m.fetch = some (handler, delivery) ∧
          ∀ call, delivery ≠ .sent call := by
      simp only [step, arrive, hfetch]
      cases hcalls with
      | verify | refresh => exact ⟨_, _, rfl, rfl, fun _ h => by cases h⟩
      | start | approve | drift | replay | reconcile =>
        refine ⟨_, _, rfl, rfl, fun _ => ?_⟩
        unfold Delivery.progress
        split <;> exact Delivery.noConfusion
    refine Finishes.cons harrive (by rw [Own, ownStep, hfetch]) ?_
    have hm := h.step harrive
    cases hm.fits _ _ hdelivery with
    | replied reply htakes => exact (finishes_of_takes hdelivery htakes).mono (by omega)
    | settled ref outcome hawaits hreturned =>
      exact (finishes_settled hdelivery hawaits hreturned).mono (by omega)
    | handling c hawaits => exact finishes_handling hm hdelivery hawaits
    | sent call => exact absurd rfl (hnot call)

end Session

end

namespace Sample

section
attribute [local instance] node

/-- What the requests of a page draw. -/
def pageDraws : Draws where
  create := createDraw
  approve :=
    { approvalId := js "appr_000001"
      expiryNow := now
      approvedAt := now
      consumedAt := now
      stamp := stamp "evt_consumed"
      lastActionAt := now
      authorize := authorizeDraw }
  reads := reads "evt_started"
  stamp := stamp "evt_checked"
  now := now

/-- A click on a scenario. -/
def clickedScenario : List SessionEvent := [.scenariosLoaded, .start (js "stale")]

/-- The run it creates is shown. -/
def shownScenario : List SessionEvent :=
  clickedScenario ++ [.arrive pageDraws [], .reply [], .receive]

theorem shownScenario_orderly :
    ∃ s, Transition.run (Session.step FakeModelAdapter.propose) {} shownScenario = some s ∧
      s.page.orderedRuns.map (·.runId) = s.page.runOrder ∧ s.page.runOrder ≠ [] ∧
      s.page.ledgerIntegrityFailedFor = none := by
  have hshown : ∃ s ∈ Transition.run (Session.step FakeModelAdapter.propose) {} shownScenario,
      s.page.runOrder ≠ [] := by
    decide +kernel
  obtain ⟨s, hs, horder⟩ := hshown
  have horderly := Session.orderly hs
  exact ⟨s, hs, horderly.2.1, horder, horderly.2.2.2.2.2⟩

theorem clickedScenario_not_stuck :
    ∃ s own s', Transition.run (Session.step FakeModelAdapter.propose) {} clickedScenario =
        some s ∧ s.page.busy = true ∧ own.length ≤ 5 ∧
      Transition.Meets (Session.step FakeModelAdapter.propose)
        (Session.Own (fun _ => pageDraws) fun _ => []) s own ∧
      Transition.run (Session.step FakeModelAdapter.propose) s own = some s' ∧
      s'.page.busy = false := by
  have hclicked : ∃ s ∈ Transition.run (Session.step FakeModelAdapter.propose) {} clickedScenario,
      s.page.busy = true := by
    decide +kernel
  obtain ⟨s, hs, hbusy⟩ := hclicked
  obtain ⟨own, s', hlength, hown, hrun, -, hidle⟩ :=
    Session.never_stuck hs hbusy (fun _ => pageDraws) fun _ => []
  exact ⟨s, own, s', hs, hbusy, hlength, hown, hrun, hidle⟩

end

end Sample

end ActionHarbor
