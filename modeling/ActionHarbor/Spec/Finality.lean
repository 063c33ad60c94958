import ActionHarbor.Spec.AtMostOnce
import ActionHarbor.Spec.Provenance

/-!
# Finality of outcomes

`OperationStore.record` overwrites whatever it finds, after an `await` whose
length the adapter decides. A key's record therefore only moves from nothing, by
way of `unknown_outcome`, to a decided outcome as long as no call settles on a
record that changed while it waited; calls that wait alone never do.

## Key results

- `World.records_final`: outcomes are final in runs whose calls find their records
- `World.meets_findsItsRecord`: calls that wait alone find their records
-/

namespace ActionHarbor

/-! ## The life of a record -/

/-- What may become of a key's record: nothing changes, a first record is written, or
    an unknown outcome is decided for the same payload. -/
inductive Settles : Option OperationRecord → Option OperationRecord → Prop
  | refl (record : Option OperationRecord) : Settles record record
  | written (record : OperationRecord) : Settles none (some record)
  | decided (prior record : OperationRecord) (hprior : prior.state = .unknownOutcome)
      (hdecided : record.state ≠ .unknownOutcome)
      (hpayload : record.payloadHash = prior.payloadHash) : Settles (some prior) (some record)

theorem Settles.trans {r s t : Option OperationRecord} (h : Settles r s) (h' : Settles s t) :
    Settles r t := by
  cases h' with
  | refl => exact h
  | written record =>
    cases h with
    | refl => exact .written record
  | decided prior record hprior hdecided hpayload =>
    cases h with
    | refl => exact .decided prior record hprior hdecided hpayload
    | written => exact .written record
    | decided _ _ _ hdecided' => exact absurd hprior hdecided'

variable {ι : Type} [DecidableEq ι]

namespace World

section
variable [Host]

/-- A call that settles with an outcome still finds under its key what it found when
    it began to wait. -/
def FindsItsRecord (w : World ι) : Event ι → Prop
  | .wake c wakeup _ => ∀ session waiting, w.pending c = some (session, waiting) →
    waiting.writes wakeup = true → w.recordOf session waiting.idempotencyKey = waiting.found
  | _ => True

/-- Such a step settles records and never unsettles them. -/
theorem StepCases.settles {w w' : World ι} {e : Event ι} (h : w.StepCases e w')
    (hprovenance : w.Provenance) (hfinds : w.FindsItsRecord e) (session : ι) (key : JsString) :
    Settles (w.recordOf session key) (w'.recordOf session key) := by
  rcases h.recordOf_cases session key with
    heq | ⟨c, wakeup, stamp, waiting, shared, settled, record, rfl, hc, -, -, hwritten, rfl, heq⟩
  · rw [heq]
    exact .refl _
  · rw [heq, hfinds session waiting hc hwritten.writes]
    cases waiting with
    | executing _ | refused _ _ => exact .written record
    | lookingUp call =>
      exact .decided call.prior record (hprovenance.reconciling c session call hc)
        (hwritten.decided rfl) hwritten.payloadHash_eq

/-- In every run whose calls, when they settle with an outcome, find under their key
    what they found when they began to wait, the record of a key only ever goes from
    nothing to a record and from `unknown_outcome` to `succeeded` or `failed`. -/
theorem records_final {w₀ m w : World ι} {pre post : List (Event ι)} (h₀ : w₀.Fresh)
    (hpre : Transition.run World.step w₀ pre = some m)
    (hpost : Transition.run World.step m post = some w)
    (hmeets : Transition.Meets World.step FindsItsRecord m post)
    (session : ι) (key : JsString) :
    Settles (m.recordOf session key) (w.recordOf session key) := by
  have hstep : ∀ (s : World ι) e s',
      (s.Booked ∧ s.Provenance) ∧ Settles (m.recordOf session key) (s.recordOf session key) →
      s.FindsItsRecord e → s.step e = some s' →
      (s'.Booked ∧ s'.Provenance) ∧ Settles (m.recordOf session key) (s'.recordOf session key) := by
    rintro s e s' ⟨⟨hbooked, hprovenance⟩, hsettles⟩ hfinds hs
    have h := step_cases hs
    exact ⟨⟨hbooked.step h, hprovenance.step hbooked h⟩,
      hsettles.trans (h.settles hprovenance hfinds session key)⟩
  have hm := Provenance.run h₀ hpre
  exact (Transition.run_invariant_of_meets hstep ⟨hm, .refl _⟩ hmeets hpost).2

/-! ## Calls that wait alone -/

/-- No call begins to wait under a key while another call with that key waits. -/
def WaitsAlone (w : World ι) : Event ι → Prop
  | .start session input reads =>
    EntersRace (w.shared session) input reads ∨
      (∃ prior, EntersLookup (w.shared session) input reads prior) →
    ∀ c waiting, w.pending c = some (session, waiting) →
      waiting.idempotencyKey ≠ input.operation.idempotencyKey
  | _ => True

/-- At most one call waits under a key, and the key still has what the call found. -/
structure Exclusive (w : World ι) : Prop where
  unique : ∀ c c' session waiting waiting', w.pending c = some (session, waiting) →
    w.pending c' = some (session, waiting') →
    waiting.idempotencyKey = waiting'.idempotencyKey → c = c'
  found : ∀ c session waiting, w.pending c = some (session, waiting) →
    w.recordOf session waiting.idempotencyKey = waiting.found

omit [DecidableEq ι] [Host] in
theorem Fresh.exclusive {w : World ι} (h : w.Fresh) : w.Exclusive where
  unique c _ _ _ _ hc := by rw [h.pending] at hc; cases hc
  found c _ _ hc := by rw [h.pending] at hc; cases hc

omit [DecidableEq ι] in
/-- A call that begins to wait has found what its key holds. -/
private theorem found_of_waiting {w : World ι} {session : ι} {input : ExecuteActionInput}
    {reads : CallReads} {shared : Shared} {waiting : Waiting}
    (houtcome : StartOutcome (w.shared session) input reads shared (.waiting waiting))
    (hprovenance : w.Provenance) :
    (EntersRace (w.shared session) input reads ∨
      ∃ prior, EntersLookup (w.shared session) input reads prior) ∧
    waiting.idempotencyKey = input.operation.idempotencyKey ∧
    w.recordOf session waiting.idempotencyKey = waiting.found := by
  have hkey : waiting.idempotencyKey = input.operation.idempotencyKey := by
    rw [Waiting.idempotencyKey, houtcome.waiting_input]
  rw [hkey]
  -- a call in a race found nothing, one in a lookup the record it asks about
  rcases houtcome.waiting_cases (hprovenance.wellFormed session) with
    ⟨hraces, hrace⟩ | ⟨prior, rfl, hlookup⟩
  · obtain ⟨_, _, _, _, _, hnone, _⟩ := id hrace
    refine ⟨.inl hrace, rfl, hnone.trans ?_⟩
    cases waiting with
    | executing _ | refused _ _ => rfl
    | lookingUp _ => cases hraces
  · obtain ⟨_, _, _, hrecord, _⟩ := id hlookup
    exact ⟨.inr ⟨prior, hlookup⟩, rfl, hrecord⟩

/-- Calls that wait alone stay alone, and keep what they found. -/
theorem Exclusive.step {w w' : World ι} {e : Event ι} (hexclusive : w.Exclusive)
    (hbooked : w.Booked) (hprovenance : w.Provenance) (halone : w.WaitsAlone e)
    (h : w.StepCases e w') : w'.Exclusive where
  unique c c' session waiting waiting' hc hc' hkey := by
    rcases h.pending_cases hbooked hc with
      ⟨hold, -, -⟩ | ⟨rfl, input, reads, shared, rfl, houtcome, -⟩
    · rcases h.pending_cases hbooked hc' with
        ⟨hold', -, -⟩ | ⟨rfl, input, reads, shared, rfl, houtcome, -⟩
      · exact hexclusive.unique c c' session waiting waiting' hold hold' hkey
      · obtain ⟨henters, hkey', -⟩ := found_of_waiting houtcome hprovenance
        exact absurd (hkey.trans hkey') (halone henters c waiting hold)
    · rcases h.pending_cases hbooked hc' with ⟨hold', -, -⟩ | ⟨rfl, -⟩
      · obtain ⟨henters, hkey', -⟩ := found_of_waiting houtcome hprovenance
        exact absurd (hkey.symm.trans hkey') (halone henters c' waiting' hold')
      · rfl
  found c session waiting hc := by
    rcases h.recordOf_cases session waiting.idempotencyKey with
      heq | ⟨c', wakeup, stamp, waiting', _, _, _, rfl, hc', _, _, _, hkey, _⟩
    · rw [heq]
      rcases h.pending_cases hbooked hc with ⟨hold, -, -⟩ | ⟨-, _, _, _, -, houtcome, -⟩
      · exact hexclusive.found c session waiting hold
      · exact (found_of_waiting houtcome hprovenance).2.2
    -- the record changed, so its only waiting call woke and does not wait any more
    · rcases h.pending_cases hbooked hc with ⟨hold, -, hwaits⟩ | ⟨-, _, _, _, he, -⟩
      · obtain rfl := hexclusive.unique c c' session waiting waiting' hold hc' hkey.symm
        exact absurd rfl (hwaits wakeup stamp)
      · cases he

/-- Calls that wait alone find their records when they settle. -/
theorem meets_findsItsRecord {w₀ : World ι} {es : List (Event ι)} (h₀ : w₀.Fresh)
    (hmeets : Transition.Meets World.step WaitsAlone w₀ es) :
    Transition.Meets World.step FindsItsRecord w₀ es := by
  refine .of_forall_step fun pre e post m hes hpre => ?_
  subst hes
  have hstep : ∀ (s : World ι) e s', (s.Booked ∧ s.Provenance) ∧ s.Exclusive → s.WaitsAlone e →
      s.step e = some s' → (s'.Booked ∧ s'.Provenance) ∧ s'.Exclusive := by
    rintro s e s' ⟨⟨hbooked, hprovenance⟩, hexclusive⟩ halone hs
    have h := step_cases hs
    exact ⟨⟨hbooked.step h, hprovenance.step hbooked h⟩,
      hexclusive.step hbooked hprovenance halone h⟩
  have hinv := Transition.run_invariant_of_meets hstep
    ⟨⟨h₀.booked, h₀.provenance⟩, h₀.exclusive⟩ hmeets.left hpre
  cases e with
  | record _ | start _ _ _ => trivial
  | wake c wakeup stamp => exact fun session waiting hc _ => hinv.2.found c session waiting hc

end

/-! ## Runs on Node -/

section
attribute [local instance] node
open Sample

/-- The first call verifies its receipt. -/
def firstSucceeds : List (Event Unit) :=
  [.wake 0 (.executeResolved (makeReceipt "tix_000001" "key-1").toJsValue) (stamp "evt_000003")]

/-- Then the timer of the second fires. -/
def lateTimeout : List (Event Unit) := [.wake 1 .timerFired (stamp "evt_000004")]

/-- Two overlapping calls, the first of which has reported its success. -/
def firstReported : World Unit := after {} (overlappingCalls ++ firstSucceeds) (by decide +kernel)

/-- The late timeout of an overlapping call replaces a reported success by an unknown
    outcome. -/
theorem lateTimeout_unsettles : ∃ m w : World Unit,
    Transition.run step {} (overlappingCalls ++ firstSucceeds) = some m ∧
    Transition.run step m lateTimeout = some w ∧
    (m.recordOf () (js "key-1")).map (·.state) = some .succeeded ∧
    (w.recordOf () (js "key-1")).map (·.state) = some .unknownOutcome := by
  refine ⟨firstReported, after firstReported lateTimeout (by decide +kernel),
    run_after _ _ _, run_after _ _ _, ?_, ?_⟩ <;> decide +kernel

/-- One call awaiting its adapter. -/
def awaitingCall : World Unit := after {} (sequentialCalls.take 3) (by decide +kernel)

/-- A call that waits alone writes the first record of its key. -/
theorem awaitingCall_records_final :
    Settles (awaitingCall.recordOf () (js "key-1"))
      ((after awaitingCall firstSucceeds (by decide +kernel)).recordOf () (js "key-1")) := by
  have hfound : (awaitingCall.pending 0).all (fun p =>
      (awaitingCall.recordOf p.1 p.2.idempotencyKey).isNone && p.2.found.isNone) = true := by
    decide +kernel
  have hmeets : Transition.Meets step FindsItsRecord awaitingCall firstSucceeds := by
    refine ⟨fun session waiting hc _ => ?_, fun _ _ => trivial⟩
    rw [hc] at hfound
    simp only [Option.all_some, Bool.and_eq_true, Option.isNone_iff_eq_none] at hfound
    rw [hfound.1, hfound.2]
  exact records_final ⟨fun _ => rfl, fun _ => rfl, rfl⟩ (run_after {} (sequentialCalls.take 3) _)
    (run_after _ _ _) hmeets () (js "key-1")

end

end World

end ActionHarbor
