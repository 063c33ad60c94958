import ActionHarbor.Spec.LaterCalls
import ActionHarbor.Spec.RunEffects

/-!
# Replays of a verified run

A replay makes the call of the first execution again. The store answers it with the
receipt on record, however often and however late, but the capability is checked
first: past its 60 seconds the call is refused, and `executeForRun` writes the refusal
over the summary of the verified execution.

## Key results

- `Replayed.step`: replays keep a run verified, its store and its adapter
- `Server.replay_keeps_verified_iff`: when a replay leaves the execution ok
-/

namespace ActionHarbor

section
variable [Host]

/-! ## The answers to replays -/

/-- The run is still verified with this receipt, and `execute` was not called again. -/
structure RunRecord.KeepsVerified (run run' : RunRecord) (receipt : JsValue) : Prop where
  state : run'.state = .verified
  execution : ∃ summary, run'.execution = some summary ∧ summary.ok = true ∧
    summary.receipt = some receipt
  callCount : run'.adapter.callCount = run.adapter.callCount

/-- A replay is answered from the record, or refused for an expired capability. -/
inductive Settled.AnswersReplay (prior : OperationRecord) (capability : Capability)
    (now : Instant) : Settled → Prop
  | replayed (entry : AuditLedgerEntry) (hlive : isExpired capability.expiresAt now = false) :
      AnswersReplay prior capability now (.returned
        (.ok prior.receipt true prior.operationId (some .idempotentReplay) [entry]))
  | expired (hexpired : isExpired capability.expiresAt now = true) :
      AnswersReplay prior capability now (.returned (.capability .expired []))

/-- A replay arrives, or a replay that arrived is answered. -/
def ServerEvent.ReplaysFrom (first : RequestId) : ServerEvent → Prop
  | .request (.replayRun _ _) => True
  | .resume c _ => first ≤ c
  | _ => False

/-- What the calls of a verified run find. -/
structure RunRecord.Replayable (run : RunRecord) (prior : OperationRecord)
    (capability : Capability) : Prop where
  capability : run.capability = some capability
  recorded : run.Recorded prior
  admitted : run.Admitted prior.payloadHash
  succeeded : prior.state = .succeeded
  receipt : prior.receipt.isUndefined = false

/-- The run after replays numbered from `first` on. -/
structure Replayed (run : RunRecord) (prior : OperationRecord) (capability : Capability)
    (first : RequestId) (sys : RunSystem) : Prop where
  grounds : SameGrounds run sys.run
  state : sys.run.state = .verified
  store : sys.run.operationStore = run.operationStore
  callCount : sys.run.adapter.callCount = run.adapter.callCount
  requests : ∀ c stage, first ≤ c → sys.requests c = some stage →
    ∃ now settled, stage = .settled settled ∧ settled.AnswersReplay prior capability now

/-- What a replay answers finds the run verified and leaves it so. -/
theorem Settled.AnswersReplay.finish {prior : OperationRecord} {capability : Capability}
    {reads : Instant} {settled : Settled} {run : RunRecord}
    (h : settled.AnswersReplay prior capability reads) (hstate : run.state = .verified)
    (now : Instant) :
    ∃ summary, finishExecution run settled now =
        ({ run with
            execution := some summary
            lastActionAt := Host.toISOString now }, .ok ()) ∧
      ((summary.ok = true ∧ summary.receipt = some prior.receipt) ↔
        isExpired capability.expiresAt reads = false) := by
  cases h with
  | replayed entry hlive =>
    exact ⟨_, finishExecution_eq (by rw [hstate]; rfl) now, iff_of_true ⟨rfl, rfl⟩ hlive⟩
  | expired hexpired =>
    refine ⟨_, finishExecution_eq rfl now, iff_of_false ?_ (by simp [hexpired])⟩
    rintro ⟨hok, -⟩
    cases hok

section
variable {run : RunRecord} {prior : OperationRecord} {capability : Capability} {first : RequestId}
  {sys : RunSystem}

/-- Write a replay back. -/
theorem Replayed.change (h : Replayed run prior capability first sys) {run' : RunRecord}
    {c : RequestId} {stage : Option RequestStage} {promise : Option AdapterPromise}
    {observations : List RunObservation} (hgrounds : SameGrounds sys.run run')
    (hstate : run'.state = .verified) (hstore : run'.operationStore = sys.run.operationStore)
    (hcallCount : run'.adapter.callCount = sys.run.adapter.callCount)
    (hstage : ∀ stage', stage = some stage' →
      ∃ now settled, stage' = .settled settled ∧ settled.AnswersReplay prior capability now) :
    Replayed run prior capability first (sys.change run' c stage promise observations) where
  grounds := h.grounds.trans hgrounds
  state := hstate
  store := hstore.trans h.store
  callCount := hcallCount.trans h.callCount
  requests c' stage' hfirst hstage' := by
    by_cases hc : c' = c
    · subst hc
      exact hstage stage' (by simpa using hstage')
    · exact h.requests c' stage' hfirst (by simpa [hc] using hstage')

/-- A replay of the run is answered at once, from what is on record. -/
theorem Replayed.replay (h : Replayed run prior capability first sys)
    (hreplayable : run.Replayable prior capability) (registry : CapabilityRegistry)
    (reads : CallReads) :
    ∃ turn settled, replayRun registry sys.run reads = .ok turn ∧
      turn.stage = some (.settled settled) ∧
      settled.AnswersReplay prior capability reads.now ∧
      ∀ c, Replayed run prior capability first (sys.enter c turn) := by
  have hcapability := h.grounds.capability.trans hreplayable.capability
  have hadmitted := hreplayable.admitted.mono h.grounds
  have hturn : replayRun registry sys.run reads =
      .ok (executeForRun registry sys.run capability reads) := by
    rw [replayRun, h.state, hcapability]
  -- the record answers if the capability is still live
  cases hexpired : isExpired capability.expiresAt reads.now with
  | false =>
    have hrecorded := (h.grounds.recorded h.store prior).mpr hreplayable.recorded
    obtain ⟨entry, hcall⟩ := executeForRun_replayed registry hadmitted hcapability hexpired
      hrecorded hreplayable.succeeded hreplayable.receipt
    rw [hcall] at hturn
    have hanswers : Settled.AnswersReplay prior capability reads.now _ := .replayed entry hexpired
    refine ⟨_, _, hturn, rfl, hanswers, fun c => ?_⟩
    refine h.change ⟨rfl, rfl, rfl, rfl⟩ h.state rfl rfl fun stage hstage => ?_
    exact ⟨_, _, (Option.some.inj hstage).symm, hanswers⟩
  | true =>
    rw [executeForRun_expired registry hadmitted hcapability hexpired] at hturn
    have hanswers : Settled.AnswersReplay prior capability reads.now _ := .expired hexpired
    refine ⟨_, _, hturn, rfl, hanswers, fun c => ?_⟩
    refine h.change ⟨rfl, rfl, rfl, rfl⟩ h.state rfl rfl fun stage hstage => ?_
    exact ⟨_, _, (Option.some.inj hstage).symm, hanswers⟩

/-- Replays and their answers keep this. -/
theorem Replayed.step (h : Replayed run prior capability first sys)
    (hreplayable : run.Replayable prior capability) {registry : CapabilityRegistry}
    {next : RequestId} {e : ServerEvent} {effect : RunEffect} (hreplays : e.ReplaysFrom first)
    (heffect : sys.run.effect registry (sys.requests (e.number next)) (sys.promises (e.number next))
      e = some effect) :
    Replayed run prior capability first
      (sys.change effect.run (e.number next) effect.stage effect.promise effect.observations) := by
  cases e with
  | request request =>
    cases request with
    | replayRun runId reads =>
      obtain ⟨turn, settled, hturn, -, -, hreplayed⟩ := h.replay hreplayable registry reads
      simp only [RunRecord.effect, RunRecord.requestEffect, hturn, Option.some.injEq] at heffect
      subst heffect
      exact hreplayed next
    | createRun | approveRun | simulateDrift | reconcileRun | verifyRunLedger => exact hreplays.elim
  | resume c now =>
    have hfirst : first ≤ c := hreplays
    simp only [RunRecord.effect, ServerEvent.number] at heffect
    split at heffect
    · rename_i settled hrequest
      obtain ⟨reads, _, hstage, hanswers⟩ := h.requests c _ hfirst hrequest
      -- every replay's answer leaves the state and the record
      cases hstage
      obtain ⟨summary, hfinish, -⟩ := hanswers.finish h.state now
      rw [hfinish] at heffect
      obtain rfl := Option.some.inj heffect
      exact h.change ⟨rfl, rfl, rfl, rfl⟩ h.state rfl rfl fun _ hnone => by cases hnone
    · cases heffect
  | execute | deliver | timeout | refuse => exact hreplays.elim

end

/-! ## The server -/

/-- A run that is verified can be replayed. -/
theorem RunSystem.Wellkept.replayable {sys : RunSystem} (h : sys.Wellkept)
    (hverified : sys.run.state = .verified) {prior : OperationRecord}
    (hrecorded : sys.run.Recorded prior) :
    ∃ capability, sys.run.Replayable prior capability := by
  obtain ⟨operation, hoperation, hsucceeded, hreceipt⟩ := h.resumable.verified hverified
  obtain rfl := Option.some.inj (hrecorded.symm.trans hoperation)
  have hadmitted := h.resumable.recorded prior hrecorded
  obtain ⟨capability, -, -, hcapability, -⟩ := hadmitted.guards
  exact ⟨capability, hcapability, hrecorded, hadmitted, hsucceeded, hreceipt⟩

namespace Server
variable {model : ModelAdapter} {s m : Server} {ref : RunRef} {run : RunRecord}

/-- A replay that has arrived waits for its answer. -/
private theorem replay_arrives (model : ModelAdapter) {prior : OperationRecord} {capability : Capability}
    {first : RequestId} {sys : RunSystem} (hfresh : m.Fresh) (hsystem : m.system ref = some sys)
    (h : Replayed run prior capability first sys) (hreplayable : run.Replayable prior capability)
    {runId : JsString} (hruns : m.state.runs runId = some ref) (reads : CallReads) :
    ∃ settled sys', settled.AnswersReplay prior capability reads.now ∧
      (m.handle model (.replayRun runId reads)).system ref = some sys' ∧
      Replayed run prior capability first sys' ∧
      sys'.requests m.nextRequest = some (.settled settled) := by
  obtain ⟨run', hrecord, rfl⟩ := Option.map_eq_some_iff.mp hsystem
  obtain ⟨turn, settled, hturn, hstage, hanswers, hreplayed⟩ :=
    h.replay hreplayable m.state.registry reads
  have hhandle : m.handle model (.replayRun runId reads) = m.enter ref turn := by
    have hturn : replayRun m.state.registry run' reads = .ok turn := hturn
    simp only [handle, onRun, hruns, hrecord, take, hturn]
  refine ⟨settled, _, hanswers, ?_, hreplayed m.nextRequest, ?_⟩
  · rw [hhandle]
    exact (hfresh.changes rfl rfl rfl rfl).system_self run'
  · rw [RunSystem.enter, RunSystem.change_requests, Function.update_self, hstage]

/-- It waits until it is resumed, whatever other replays there are. -/
private theorem replay_waits {prior : OperationRecord} {capability : Capability}
    {first c : RequestId} {sys : RunSystem} (hfresh : m.Fresh) (hlinked : m.Linked)
    (hc : c + 1 ≤ m.nextRequest) (hsystem : m.system ref = some sys)
    (h : Replayed run prior capability first sys) (hreplayable : run.Replayable prior capability)
    {settled : Settled} (hrequest : sys.requests c = some (.settled settled))
    {between : List ServerEvent}
    (hsees : Transition.Meets (step model) (Sees model ref (ServerEvent.ReplaysFrom first)) m between)
    (hopen : ∀ now, .resume c now ∉ between) {m' : Server}
    (hrun : Transition.run (step model) m between = some m') :
    ∃ sys', m'.system ref = some sys' ∧ Replayed run prior capability first sys' ∧
      sys'.requests c = some (.settled settled) := by
  have hsees : Transition.Meets (step model) (Sees model ref fun e =>
      e.ReplaysFrom first ∧ ∀ now, e ≠ .resume c now) m between := by
    refine .of_forall_step fun pre e post n hsplit hn hactor => ⟨?_, ?_⟩
    · subst hsplit
      exact hsees.at_step hn hactor
    · rintro now rfl
      exact hopen now (hsplit ▸ by simp)
  -- later requests have later numbers, and nothing else resumes this one
  refine (run_sees (P := fun sys => Replayed run prior capability first sys ∧
    sys.requests c = some (.settled settled)) ?_ hfresh hlinked hc hsystem ⟨h, hrequest⟩ hsees
    hrun).2.2.2
  rintro registry next sys e effect ⟨hsys, hrequest⟩ ⟨hreplays, hresumes⟩ hnext - heffect
  refine ⟨hsys.step hreplayable hreplays heffect, ?_⟩
  have hne : c ≠ e.number next := by
    cases e with
    | request => exact Nat.ne_of_lt hnext
    | resume c' now => exact fun heq => hresumes now (heq ▸ rfl)
    | execute | deliver | timeout | refuse => exact hreplays.elim
  rwa [RunSystem.change_requests, Function.update_of_ne hne]

/-- A replay that waits for its answer is answered. -/
private theorem replay_answered (model : ModelAdapter) {prior : OperationRecord} {capability : Capability}
    {first c : RequestId} {sys : RunSystem} (hsystem : m.system ref = some sys)
    (h : Replayed run prior capability first sys) {reads : Instant} {settled : Settled}
    (hrequest : sys.requests c = some (.settled settled))
    (hanswers : settled.AnswersReplay prior capability reads) (now : Instant) :
    ∃ t, m.step model (.resume c now) = some t ∧ ∃ run', t.state.records ref = some run' ∧
      (run.KeepsVerified run' prior.receipt ↔ isExpired capability.expiresAt reads = false) := by
  obtain ⟨before, hrecord, rfl⟩ := Option.map_eq_some_iff.mp hsystem
  have hrequest : m.requests c = some (ref, .settled settled) := ofRun_eq_some.mp hrequest
  obtain ⟨summary, hfinish, hok⟩ := hanswers.finish h.state now
  have hstep : m.step model (.resume c now) = m.resume c now := rfl
  rw [hstep, resume, hrequest]
  dsimp only
  rw [hrecord, Option.map_some]
  refine ⟨_, rfl, _, Function.update_self .., ?_⟩
  have hfinish : finishExecution before settled now = _ := hfinish
  rw [hfinish, ← hok]
  -- the summary is the only part that may differ
  constructor
  · rintro ⟨-, ⟨_, hsummary, hkeeps⟩, -⟩
    obtain rfl := Option.some.inj hsummary
    exact hkeeps
  · intro hkeeps
    exact ⟨h.state, ⟨summary, rfl, hkeeps⟩, h.callCount⟩

/-- However many replays a verified run has seen, each further one is answered, and it
    leaves the run verified with the receipt on record exactly when it reads the clock
    before the capability expires. -/
theorem replay_keeps_verified_iff {events : List ServerEvent}
    (hrun : Transition.run (step model) {} events = some s)
    (hrecord : s.state.records ref = some run) (hverified : run.state = .verified)
    {prior : OperationRecord} (hprior : run.Recorded prior) {before between : List ServerEvent}
    {runId : JsString} {reads : CallReads} {m' : Server}
    (hsees : Transition.Meets (step model) (Sees model ref (ServerEvent.ReplaysFrom s.nextRequest)) s
      (before ++ .request (.replayRun runId reads) :: between))
    (hbefore : Transition.run (step model) s before = some m)
    (hruns : m.state.runs runId = some ref)
    (hafter : Transition.run (step model) s
      (before ++ .request (.replayRun runId reads) :: between) = some m')
    (hopen : ∀ now, .resume m.nextRequest now ∉ between) (now : Instant) :
    ∃ t, m'.step model (.resume m.nextRequest now) = some t ∧
      ∃ run', t.state.records ref = some run' ∧
        (run.KeepsVerified run' prior.receipt ↔
          ∃ capability, run.capability = some capability ∧
            isExpired capability.expiresAt reads.now = false) := by
  obtain ⟨hfresh, hlinked⟩ := run_ordered hrun
  have hsystem : s.system ref = some (s.view ref run) := by rw [system, hrecord]; rfl
  have hkept : (s.view ref run).Wellkept := run_wellkept hrun hsystem
  obtain ⟨capability, hreplayable⟩ := hkept.replayable hverified hprior
  have hstart : Replayed run prior capability s.nextRequest (s.view ref run) := by
    refine ⟨⟨rfl, rfl, rfl, rfl⟩, hverified, rfl, rfl, fun c stage hfirst hstage => ?_⟩
    have hnone : ofRun ref (s.requests c) = none := by rw [hfresh.requests c hfirst]; rfl
    cases hnone.symm.trans hstage
  -- the replays before this one
  obtain ⟨hfresh_m, -, hfirst, sys, hsystem, hreplayed⟩ :=
    run_sees (fun _ _ _ _ _ hsys hC _ _ heffect => hsys.step hreplayable hC heffect) hfresh hlinked
      (Nat.le_refl _) hsystem hstart hsees.left hbefore
  obtain ⟨m₁, hm₁, hbetween⟩ := Transition.run_append_eq_some.mp hafter
  obtain rfl := Option.some.inj (hbefore.symm.trans hm₁)
  obtain ⟨settled, sys₁, hanswers, hsystem₁, hreplayed₁, hrequest₁⟩ :=
    replay_arrives model hfresh_m hsystem hreplayed hreplayable hruns reads
  obtain ⟨m₂, hm₂, hbetween⟩ := Transition.run_cons_eq_some.mp hbetween
  obtain rfl := Option.some.inj hm₂
  -- the replay itself, and what the run sees until it is answered
  have hreached : Transition.run (step model) {} (events ++ (before ++
      [.request (.replayRun runId reads)])) = some (m.handle model (.replayRun runId reads)) :=
    Transition.run_append_eq_some.mpr
      ⟨s, hrun, Transition.run_append_eq_some.mpr ⟨m, hbefore, rfl⟩⟩
  obtain ⟨hfresh₁, hlinked₁⟩ := run_ordered hreached
  have hused : m.nextRequest + 1 ≤ (m.handle model (.replayRun runId reads)).nextRequest := by
    refine hfresh₁.lt_nextRequest (.inl fun hnone => ?_)
    obtain ⟨run', -, rfl⟩ := Option.map_eq_some_iff.mp hsystem₁
    have hrequest₁ : ofRun ref _ = _ := hrequest₁
    rw [hnone] at hrequest₁
    cases hrequest₁
  obtain ⟨sys', hsystem', hreplayed', hrequest'⟩ := replay_waits hfresh₁ hlinked₁ hused hsystem₁
    hreplayed₁ hreplayable hrequest₁ ((hsees.right hbefore).2 _ rfl) hopen hbetween
  obtain ⟨t, ht, run', hrun', hkeeps⟩ :=
    replay_answered model hsystem' hreplayed' hrequest' hanswers now
  refine ⟨t, ht, run', hrun', hkeeps.trans ⟨fun hlive => ?_, ?_⟩⟩
  · exact ⟨capability, hreplayable.capability, hlive⟩
  · rintro ⟨held, hheld, hlive⟩
    obtain rfl := Option.some.inj (hreplayable.capability.symm.trans hheld)
    exact hlive

end Server

end

namespace Sample

section
attribute [local instance] node

/-- The message is sent, and its run verified. -/
def sentMessage : List ServerEvent :=
  approvedMessage ++
    [.execute 1 ⟨now, js "msg_000001", now, []⟩,
      .deliver 1 (stamp "evt_verified"),
      .resume 1 now]

/-- A replay at this time. -/
def replayAt (time : Instant) : ServerEvent :=
  .request (.replayRun (js "run_000001") { reads "evt_replayed" with now := time })

/-- A replay a minute later takes the execution of a verified run for refused. -/
theorem lateReplay_refused :
    ∃ s ∈ Transition.run (Server.step FakeModelAdapter.propose) {} sentMessage,
      (∃ run ∈ s.state.records 0, run.state = .verified ∧
        ∃ summary ∈ run.execution, summary.ok = true) ∧
      ∃ t ∈ Transition.run (Server.step FakeModelAdapter.propose) s
          [replayAt (now + 60000), .resume 2 (now + 60000)],
        ∃ run ∈ t.state.records 0, run.state = .verified ∧
          ∃ summary ∈ run.execution, summary.ok = false ∧
            summary.stage = some (js "capability") := by
  decide +kernel

/-- A millisecond earlier it is answered with the receipt. -/
theorem sentMessage_replayed :
    ∃ s run t run', Transition.run (Server.step FakeModelAdapter.propose) {} sentMessage = some s ∧
      s.state.records 0 = some run ∧
      Transition.run (Server.step FakeModelAdapter.propose) s
        [replayAt (now + 59999), .resume s.nextRequest (now + 59999)] = some t ∧
      t.state.records 0 = some run' ∧
      ∃ prior, run.Recorded prior ∧ run.KeepsVerified run' prior.receipt := by
  have hsent : ∃ s ∈ Transition.run (Server.step FakeModelAdapter.propose) {} sentMessage,
      s.state.runs (js "run_000001") = some 0 ∧ ∃ run ∈ s.state.records 0,
        run.state = .verified ∧
        (run.operationStore.byIdempotencyKey run.idempotencyKey).isSome ∧
        ∃ capability ∈ run.capability, isExpired capability.expiresAt (now + 59999) = false := by
    decide +kernel
  obtain ⟨s, hs, hruns, run, hrecord, hverified, hsome, capability, hcapability, hlive⟩ := hsent
  obtain ⟨prior, hprior⟩ := Option.isSome_iff_exists.mp hsome
  -- one millisecond before the capability expires
  have hsees : Transition.Meets (Server.step FakeModelAdapter.propose)
      (Server.Sees FakeModelAdapter.propose 0 (ServerEvent.ReplaysFrom s.nextRequest)) s
      ([] ++ [replayAt (now + 59999)]) := ⟨fun _ => trivial, fun _ _ => trivial⟩
  obtain ⟨t, ht, run', hrun', hkeeps⟩ := Server.replay_keeps_verified_iff hs hrecord hverified
    hprior hsees (Transition.run_nil s) hruns rfl (by simp) (now + 59999)
  refine ⟨s, run, t, run', hs, hrecord, ?_, hrun', prior, hprior,
    hkeeps.mpr ⟨capability, hcapability, hlive⟩⟩
  exact Transition.run_cons_eq_some.mpr ⟨_, rfl, Transition.run_cons_eq_some.mpr ⟨t, ht, rfl⟩⟩

end

end Sample

end ActionHarbor
