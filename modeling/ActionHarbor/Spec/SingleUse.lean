import ActionHarbor.ForStd.TokenBook
import ActionHarbor.Spec.WorldSteps

/-!
# Capabilities are single-use

`CapabilityRegistry.consume` runs before the adapter call, in the same synchronous
step. The ids recorded and the ids executed therefore form a `TokenBook`: an
active entry of the registry is an issued token that is not spent, and every
execution spends one.

## Key results

- `World.Keeps.step`: every step of the interleaving keeps such a book
- `World.capabilities_single_use`: at most one execution for each id recorded
  before, over any sessions and stores
-/

namespace ActionHarbor

variable {ι : Type}

/-! ## Recorded and executed ids -/

/-- The id of a capability that is recorded. -/
def Observation.recordedId : Observation ι → Option JsString
  | .recorded capability => some capability.id
  | _ => none

/-- The id of the capability an `adapter.execute` is invoked with. -/
def Observation.executedId : Observation ι → Option JsString
  | .executeInvoked _ _ _ capability _ => some capability.id
  | _ => none

/-- The ids recorded along a trace, oldest first. -/
def recordedIds (trace : List (Observation ι)) : List JsString :=
  trace.filterMap Observation.recordedId

/-- The ids `adapter.execute` was invoked with along a trace, oldest first. -/
def executedIds (trace : List (Observation ι)) : List JsString :=
  trace.filterMap Observation.executedId

/-- Every execution is with an id recorded before it. -/
def RecordedFirst (trace : List (Observation ι)) : Prop :=
  ∀ before after c session operation capability params,
    trace = before ++ .executeInvoked c session operation capability params :: after →
    capability.id ∈ recordedIds before

/-- Appending keeps the order, as long as new executions are with ids known already. -/
private theorem RecordedFirst.append {trace added : List (Observation ι)}
    (h : RecordedFirst trace) (hadded : executedIds added ⊆ recordedIds trace) :
    RecordedFirst (trace ++ added) := by
  intro before after c session operation capability params heq
  rcases List.append_eq_append_iff.mp heq with ⟨rest, rfl, hrest⟩ | ⟨rest, rfl, hrest⟩
  · -- the execution is one of the new observations
    have hmem : capability.id ∈ executedIds added := by
      rw [hrest, executedIds, List.mem_filterMap]
      exact ⟨_, List.mem_append_right _ List.mem_cons_self, rfl⟩
    rw [recordedIds, List.filterMap_append]
    exact List.mem_append_left _ (hadded hmem)
  · cases rest with
    | nil =>
      have hmem : capability.id ∈ executedIds added := by
        rw [List.nil_append] at hrest
        rw [← hrest, executedIds, List.mem_filterMap]
        exact ⟨_, List.mem_cons_self, rfl⟩
      simpa using hadded hmem
    | cons o rest =>
      obtain ⟨rfl, rfl⟩ := List.cons.inj hrest
      exact h before rest c session operation capability params rfl

namespace World

/-! ## The invariant -/

/-- The book of a state: its entries are the recorded and the executed ids, and an
    active entry of the registry is not spent. -/
structure Keeps (w : World ι) (book : TokenBook JsString) : Prop where
  issued_eq : book.issued = recordedIds w.trace
  spent_eq : book.spent = executedIds w.trace
  registered : ∀ id stored, w.registry.byId id = some stored → id ∈ book.issued
  unspent : ∀ id stored, w.registry.byId id = some stored → stored.status = .active →
    id ∉ book.spent
  recordedFirst : RecordedFirst w.trace

/-- A step that records and executes nothing leaves the book as it is. -/
private theorem Keeps.of_trace {w w' : World ι} {book : TokenBook JsString}
    {added : List (Observation ι)} (hkeeps : w.Keeps book) (htrace : w'.trace = w.trace ++ added)
    (hrecorded : recordedIds added = []) (hexecuted : executedIds added = [])
    (hregistry : ∀ id stored, w'.registry.byId id = some stored →
      ∃ stored', w.registry.byId id = some stored' ∧
        (stored.status = .active → stored'.status = .active)) : w'.Keeps book where
  -- the book stays, the registry may only lose active capabilities
  issued_eq := by
    rw [htrace, recordedIds, List.filterMap_append]
    simpa [hkeeps.issued_eq, recordedIds] using hrecorded
  spent_eq := by
    rw [htrace, executedIds, List.filterMap_append]
    simpa [hkeeps.spent_eq, executedIds] using hexecuted
  registered id stored hstored := by
    obtain ⟨stored', hstored', -⟩ := hregistry id stored hstored
    exact hkeeps.registered id stored' hstored'
  unspent id stored hstored hactive := by
    obtain ⟨stored', hstored', hactive'⟩ := hregistry id stored hstored
    exact hkeeps.unspent id stored' hstored' (hactive' hactive)
  recordedFirst := by
    rw [htrace]
    exact hkeeps.recordedFirst.append (by rw [hexecuted]; exact List.nil_subset _)

/-- Consuming only takes the active status away. -/
private theorem consumed_entry {registry registry' : CapabilityRegistry}
    {capabilityId nonce : JsString} (h : registry.consume capabilityId nonce = .ok registry')
    {id : JsString} {stored : Capability} (hstored : registry'.byId id = some stored) :
    ∃ stored', registry.byId id = some stored' ∧
      (stored.status = .active → stored'.status = .active ∧ id ≠ capabilityId) := by
  obtain ⟨found, hfound, -, -, hupdate⟩ := CapabilityRegistry.consume_eq_ok h
  rw [hupdate] at hstored
  by_cases hid : id = capabilityId
  · subst hid
    rw [Function.update_self] at hstored
    obtain rfl := Option.some.inj hstored
    exact ⟨found, hfound, fun h => by cases h⟩
  · rw [Function.update_of_ne hid] at hstored
    exact ⟨stored, hstored, fun hactive => ⟨hactive, hid⟩⟩

section
variable [Host] [DecidableEq ι]

/-- Every step keeps a book, as long as the recorded ids stay distinct. -/
theorem Keeps.step {w w' : World ι} {e : Event ι} {book : TokenBook JsString}
    (hkeeps : w.Keeps book) (h : w.StepCases e w') (hdistinct : (recordedIds w'.trace).Nodup) :
    ∃ book', w'.Keeps book' := by
  cases h with
  | recorded capability =>
    -- recording issues a token: its id has not been issued before
    have hrecorded : recordedIds (w.trace ++ [.recorded capability]) =
        book.issued ++ [capability.id] := by
      simp [recordedIds, hkeeps.issued_eq, Observation.recordedId]
    have hfresh : capability.id ∉ book.issued := by
      rw [hrecorded] at hdistinct
      intro hmem
      exact (List.nodup_append.mp hdistinct).2.2 _ hmem _ (List.mem_singleton_self _) rfl
    refine ⟨book.issue capability.id, hrecorded.symm, ?_, ?_, ?_, ?_⟩
    · simp [TokenBook.issue, executedIds, hkeeps.spent_eq, Observation.executedId]
    · intro id stored hstored
      by_cases hid : id = capability.id
      · simp [TokenBook.issue, hid]
      · simp only [CapabilityRegistry.record, Function.update_of_ne hid] at hstored
        exact List.mem_append_left _ (hkeeps.registered id stored hstored)
    · intro id stored hstored hactive
      by_cases hid : id = capability.id
      · rw [hid]
        exact book.not_mem_spent hfresh
      · simp only [CapabilityRegistry.record, Function.update_of_ne hid] at hstored
        exact hkeeps.unspent id stored hstored hactive
    · exact hkeeps.recordedFirst.append
        (by simp [executedIds, List.filterMap_cons, Observation.executedId])
  | woke c wakeup stamp session waiting shared settled hpending hsettlement =>
    exact ⟨book, hkeeps.of_trace rfl rfl rfl fun id stored hstored =>
      ⟨stored, by simpa [hsettlement.registry_eq] using hstored, fun h => h⟩⟩
  | started session input reads shared progress houtcome =>
    cases houtcome with
    | entered capability payloadHash registry entry hguards hhash hnew hconsume =>
      rw [invokeAdapter]
      split
      · -- the gateway's own check refuses: the capability is consumed for nothing
        refine ⟨book, hkeeps.of_trace rfl rfl rfl fun id stored hstored => ?_⟩
        obtain ⟨stored', hstored', hactive⟩ := consumed_entry hconsume hstored
        exact ⟨stored', hstored', fun h => (hactive h).1⟩
      · obtain ⟨found, hfound, -, hactive, -⟩ := CapabilityRegistry.consume_eq_ok hconsume
        -- an active entry is an unspent token, and consuming it spends it
        have hissued := hkeeps.registered capability.id found hfound
        have hunspent := hkeeps.unspent capability.id found hfound hactive
        refine ⟨book.spend capability.id hissued hunspent, ?_, ?_, ?_, ?_, ?_⟩
        · simp [TokenBook.spend, recordedIds, hkeeps.issued_eq, enter, invocation,
            List.filterMap_cons, Observation.recordedId]
        · simp [TokenBook.spend, executedIds, hkeeps.spent_eq, enter, invocation,
            List.filterMap_cons, Observation.executedId]
        · intro id stored hstored
          obtain ⟨stored', hstored', -⟩ := consumed_entry hconsume hstored
          exact hkeeps.registered id stored' hstored'
        · intro id stored hstored hactive
          obtain ⟨stored', hstored', hactive'⟩ := consumed_entry hconsume hstored
          obtain ⟨hactive', hid⟩ := hactive' hactive
          simp only [TokenBook.spend, List.mem_append, List.mem_singleton, hid, or_false]
          exact hkeeps.unspent id stored' hstored' hactive'
        · refine hkeeps.recordedFirst.append ?_
          rw [← hkeeps.issued_eq]
          simpa [executedIds, invocation, List.filterMap_cons, Observation.executedId] using hissued
    | _ => exact ⟨book, hkeeps.of_trace rfl rfl rfl fun _ stored hstored => ⟨stored, hstored, fun h => h⟩⟩

/-- With pairwise distinct recorded ids, every interleaving over one registry invokes
    `adapter.execute` at most once with a capability of a given id, never with an id
    not recorded before, and no more often than capabilities were recorded. -/
theorem capabilities_single_use {w₀ w : World ι} {es : List (Event ι)} (h₀ : w₀.Fresh)
    (hregistry : w₀.registry = {}) (hrun : Transition.run World.step w₀ es = some w)
    (hdistinct : (recordedIds w.trace).Nodup) :
    (executedIds w.trace).Nodup ∧ RecordedFirst w.trace ∧
      (executedIds w.trace).length ≤ (recordedIds w.trace).length := by
  have hkeeps : (recordedIds w.trace).Nodup → ∃ book, w.Keeps book := by
    -- the ids recorded so far are distinct as well, being a sublist
    refine Transition.run_invariant
      (P := fun w : World ι => (recordedIds w.trace).Nodup → ∃ book, w.Keeps book)
      (fun s e s' hinv hstep hdistinct => ?_) (fun _ => ⟨.empty, ?_, ?_, ?_, ?_, ?_⟩) hrun
    · have h := step_cases hstep
      obtain ⟨book, hbook⟩ :=
        hinv (hdistinct.sublist (h.trace_extends.filterMap Observation.recordedId).sublist)
      exact hbook.step h hdistinct
    · simp [TokenBook.empty, recordedIds, h₀.trace]
    · simp [TokenBook.empty, executedIds, h₀.trace]
    · simp [hregistry]
    · simp [hregistry]
    · intro before after c session operation capability params heq
      simp [h₀.trace] at heq
  obtain ⟨book, hbook⟩ := hkeeps hdistinct
  rw [← hbook.spent_eq, ← hbook.issued_eq]
  exact ⟨book.spent_nodup, hbook.recordedFirst, book.length_spent_le⟩

end

/-! ## A run on Node -/

section
attribute [local instance] node
open Sample

/-- Two capabilities are recorded and one is spent: the replay keeps the other. -/
theorem sequentialCalls_single_use :
    (executedIds afterSequentialCalls.trace).Nodup ∧ RecordedFirst afterSequentialCalls.trace ∧
      (executedIds afterSequentialCalls.trace).length ≤
        (recordedIds afterSequentialCalls.trace).length :=
  capabilities_single_use ⟨fun _ => rfl, fun _ => rfl, rfl⟩ rfl run_sequentialCalls
    (by decide +kernel)

end

end World

end ActionHarbor
