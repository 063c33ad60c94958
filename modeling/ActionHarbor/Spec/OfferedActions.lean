import ActionHarbor.Model.Views
import ActionHarbor.Spec.LaterCalls
import ActionHarbor.Spec.RunLedgers

/-!
# What the page offers is taken

`availableActions` is computed from the state of a run, and each request checks that
state again. In every reachable state they agree: an offered action is taken, and
apart from a drift a request that is taken was offered.

## Key results

- `approveRun_isOk_iff`: when an approval is taken
- `Server.offered_actions_taken`: offers and requests agree in every reachable state
-/

namespace ActionHarbor

/-- What is offered, action by action. -/
theorem mem_availableActions (run : RunRecord) (action : JsString) :
    action ∈ availableActions run ↔
      (action = js "simulate_drift" ∧ run.state = .approvalRequired ∧ run.scenario = .stale ∧
        run.drifted = false) ∨
      (action = js "approve" ∧ run.state = .approvalRequired) ∨
      (action = js "replay" ∧ run.state = .verified) ∨
      (action = js "reconcile" ∧
        (run.state = .unknownOutcome ∨ run.state = .reconciliationRequired)) ∨
      action = js "verify_ledger" := by
  unfold availableActions
  split_ifs with happroval hdrift hverified hreconcile <;> simp_all

section
variable [Host]

/-- An approval is taken while the run awaits one, unless it expires before it is consumed. -/
theorem approveRun_isOk_iff (registry : CapabilityRegistry) (run : RunRecord)
    (draw : ApproveDraw) :
    (approveRun registry run draw).isOk = true ↔
      run.state = .approvalRequired ∧
        (Host.dateParse (run.newApproval draw).expiresAt).any (· ≤ draw.consumedAt) = false := by
  -- a new approval is active and has the scope and the hash of its run
  have hconsume : consumeApproval (run.newApproval draw)
      ⟨run.proposalHash, run.actionType, run.resourceId⟩ draw.consumedAt =
        if (Host.dateParse (run.newApproval draw).expiresAt).any (· ≤ draw.consumedAt) then
          .error .expired
        else .ok { run.newApproval draw with status := .consumed } := by
    simp only [consumeApproval, checkApproval, RunRecord.newApproval]
    split_ifs <;> simp_all [Except.map]
  rw [approveRun]
  by_cases hstate : run.state = .approvalRequired
  · simp only [hstate, ne_eq, not_true, if_false, hconsume, true_and]
    split_ifs with hexpired
    · simp [Except.isOk, Except.toBool, hexpired]
    · simp [Except.isOk, Except.toBool, hexpired]
  · simp [hstate, Except.isOk, Except.toBool]

/-- A drift is taken while the run awaits an approval. -/
theorem simulateDrift_isOk_iff (run : RunRecord) (now : Instant) :
    (simulateDrift run now).isOk = true ↔ run.state = .approvalRequired := by
  rw [simulateDrift]
  by_cases hstate : run.state = .approvalRequired <;> simp [hstate, Except.isOk, Except.toBool]

/-- A replay is taken of a verified run with a capability. -/
theorem replayRun_isOk_iff (registry : CapabilityRegistry) (run : RunRecord) (reads : CallReads) :
    (replayRun registry run reads).isOk = true ↔
      run.state = .verified ∧ run.capability.isSome := by
  unfold replayRun
  split
  · rename_i capability hstate hcapability
    simp [hstate, hcapability, Except.isOk, Except.toBool]
  · rename_i hnone
    simp only [Except.isOk, Except.toBool, Bool.false_eq_true, false_iff, not_and]
    intro hstate hsome
    obtain ⟨capability, hcapability⟩ := Option.isSome_iff_exists.mp hsome
    exact hnone capability hstate hcapability

/-- A reconciliation is taken of a run that awaits one and has a capability. -/
theorem reconcileRun_isOk_iff (registry : CapabilityRegistry) (run : RunRecord)
    (reads : CallReads) :
    (reconcileRun registry run reads).isOk = true ↔
      (run.state = .unknownOutcome ∨ run.state = .reconciliationRequired) ∧
        run.capability.isSome := by
  rw [reconcileRun]
  split
  · rename_i hstate
    simp [Except.isOk, Except.toBool, hstate]
  · rename_i hstate
    cases run.capability <;> simp [Except.isOk, Except.toBool]
    tauto

/-- Offers and requests agree on this run. A replay or a reconciliation is taken when it goes
    on to the gateway; how the call ends is another matter. -/
structure RunRecord.OffersWhatItTakes (run : RunRecord) : Prop where
  /-- the approval is built for the request, and may expire before it is consumed -/
  approve : ∀ registry draw, (approveRun registry run draw).isOk = true ↔
    js "approve" ∈ availableActions run ∧
      (Host.dateParse (run.newApproval draw).expiresAt).any (· ≤ draw.consumedAt) = false
  /-- a drift is taken in every scenario and again, but offered once and in one -/
  simulateDrift : ∀ now, (js "simulate_drift" ∈ availableActions run →
      (simulateDrift run now).isOk = true) ∧
    ((simulateDrift run now).isOk = true ↔ js "approve" ∈ availableActions run)
  replay : ∀ registry reads, (replayRun registry run reads).isOk = true ↔
    js "replay" ∈ availableActions run
  reconcile : ∀ registry reads, (reconcileRun registry run reads).isOk = true ↔
    js "reconcile" ∈ availableActions run
  verifyLedger : js "verify_ledger" ∈ availableActions run ∧ ∀ stamp, ∃ checked,
    verifyRunLedger run stamp = .ok (checked, .ok run.ledger.entries.length)

/-- A run behind a concluded call has its capability. -/
theorem RunSystem.Wellkept.capability_isSome {sys : RunSystem} (h : sys.Wellkept)
    (hconcluded : sys.run.state.Concluded) : sys.run.capability.isSome := by
  obtain ⟨operation, hrecorded⟩ := h.sound.recorded hconcluded
  obtain ⟨capability, postcondition, now, hcapability, -⟩ :=
    (h.resumable.recorded operation hrecorded).guards
  exact Option.isSome_of_eq_some hcapability

/-- In every reachable state the actions offered on a run are those it takes. -/
theorem Server.offered_actions_taken {model : ModelAdapter} {events : List ServerEvent}
    {s : Server} (hrun : Transition.run (Server.step model) {} events = some s) {ref : RunRef}
    {run : RunRecord} (hrecord : s.state.records ref = some run) : run.OffersWhatItTakes := by
  have hsystem : s.system ref = some (s.view ref run) := by rw [system, hrecord]; rfl
  have hcapability : run.state.Concluded → run.capability.isSome :=
    (run_wellkept hrun hsystem).capability_isSome
  have hledger := verifyRunLedger_intact
    ((builds_record hrun hrecord).intact AuditLedger.intact_empty)
  constructor
  · intro registry draw
    rw [approveRun_isOk_iff]
    simp +decide [mem_availableActions]
  · intro now
    rw [simulateDrift_isOk_iff]
    simp +decide [mem_availableActions]
    tauto
  · intro registry reads
    rw [replayRun_isOk_iff]
    simp +decide only [mem_availableActions, false_and, true_and, or_false, false_or]
    -- a run in such a state has its capability
    refine and_iff_left_of_imp fun hstate => hcapability ?_
    rw [hstate]
    trivial
  · intro registry reads
    rw [reconcileRun_isOk_iff]
    simp +decide only [mem_availableActions, false_and, true_and, or_false, false_or]
    refine and_iff_left_of_imp fun hstate => hcapability ?_
    rcases hstate with hstate | hstate <;> rw [hstate] <;> trivial
  · refine ⟨(mem_availableActions run _).mpr (by simp), fun stamp => ?_⟩
    obtain ⟨entry, -, hverify⟩ := hledger stamp
    exact ⟨_, hverify⟩

end

namespace Sample

section
attribute [local instance] node

theorem approvedMessage_offers :
    ∃ s run, Transition.run (Server.step FakeModelAdapter.propose) {} approvedMessage = some s ∧
      s.state.records 0 = some run ∧ run.OffersWhatItTakes := by
  obtain ⟨s, run, hs, hrecord, -⟩ := approvedMessage_run
  exact ⟨s, run, hs, hrecord, Server.offered_actions_taken hs hrecord⟩

end

end Sample

end ActionHarbor
