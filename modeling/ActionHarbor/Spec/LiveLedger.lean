import ActionHarbor.Model.LedgerRows
import ActionHarbor.Spec.LedgerAppend

/-!
# The live ledger always verifies

The writer hashes the record it is about to spread into a row; the checker hashes
what is left of a stored row without its `hash`. The two objects are the same, and
an append that throws never reached the push, so whatever is appended, and
whatever fails on the way, the rows a ledger lists pass the checker.

## Key results

- `Untyped.verifyLedgerIntegrity_list`: the checker on a ledger's rows is the typed one
- `AuditLedger.Intact.appendCall`: one call keeps a ledger intact, thrown or not
- `AuditLedger.appendCalls_verify`: every row list a ledger ever has verifies
-/

namespace ActionHarbor

/-! ## Typed rows are checked alike -/

/-- The object a row without its hash is hashed as. -/
theorem AuditEntryBody.toJsValue_eq (e : AuditEntryBody) : e.toJsValue = .object e.toProps := rfl

/-- No optional field is called `hash`. -/
private theorem hash_notMem_optionalField {key : JsString} {field : Option JsString}
    (hkey : key ≠ js "hash") : ∀ p ∈ optionalField key field, p.1 ≠ js "hash" := by
  intro p hp
  cases field with
  | none => cases hp
  | some value =>
    obtain rfl := List.mem_singleton.mp hp
    exact hkey

/-- No field of a row without its hash is called `hash`. -/
theorem AuditEntryBody.hash_notMem_toProps (e : AuditEntryBody) :
    ∀ p ∈ e.toProps, p.1 ≠ js "hash" := by
  intro p hp
  simp only [AuditEntryBody.toProps, AuditEntryBody.toJsValue, List.mem_append] at hp
  rcases hp with (((hp | hp) | hp) | hp) | hp
  · have keys : ∀ key ∈ [js "eventId", js "sequence", js "type", js "actor", js "subject",
        js "payload", js "occurredAt", js "prevHash"], key ≠ js "hash" := by decide
    exact keys p.1 (by simpa using List.mem_map_of_mem (f := Prod.fst) hp)
  · exact hash_notMem_optionalField (by decide) p hp
  · exact hash_notMem_optionalField (by decide) p hp
  · exact hash_notMem_optionalField (by decide) p hp
  · exact hash_notMem_optionalField (by decide) p hp

/-- Destructuring a stored row gives back the object the writer hashed. -/
theorem AuditLedgerEntry.withoutHash_toJsValue (e : AuditLedgerEntry) :
    Untyped.withoutHash e.toJsValue = e.toAuditEntryBody.toJsValue := by
  have kept : e.toProps.filter (fun p => p.1 ≠ js "hash") = e.toProps :=
    List.filter_eq_self.mpr fun p hp => by simpa using e.hash_notMem_toProps p hp
  rw [AuditLedgerEntry.toJsValue, Untyped.withoutHash, List.filter_append, kept,
    AuditEntryBody.toJsValue_eq]
  simp

/-- The three properties the checker reads. -/
theorem AuditLedgerEntry.getProp_toJsValue (e : AuditLedgerEntry) :
    e.toJsValue.getProp (js "sequence") = some (.number (.ofNat e.sequence)) ∧
      e.toJsValue.getProp (js "prevHash") = some (.string e.prevHash) ∧
      e.toJsValue.getProp (js "hash") = some (.string e.hash) := by
  have absent : e.toProps.lookup (js "hash") = none :=
    List.lookup_eq_none_iff.mpr fun p hp => by simpa using (e.hash_notMem_toProps p hp).symm
  refine ⟨rfl, rfl, ?_⟩
  rw [AuditLedgerEntry.toJsValue, JsValue.getProp, propOf, List.lookup_append, absent]
  simp

section
variable [Host]

/-- Hashing what destructuring left of a stored row. -/
theorem Untyped.computeEntryHash_toJsValue (e : AuditLedgerEntry) :
    Untyped.computeEntryHash (Untyped.withoutHash e.toJsValue) =
      (ActionHarbor.computeEntryHash e.toAuditEntryBody).mapError .unhashable := by
  rw [e.withoutHash_toJsValue, Untyped.computeEntryHash, ActionHarbor.computeEntryHash]

/-- The loop on listed rows is the loop on typed rows. -/
theorem Untyped.verifyLoop_map_toJsValue (index : Nat) (prevHash : JsString)
    (entries : List AuditLedgerEntry) :
    Untyped.verifyLoop index prevHash (entries.map AuditLedgerEntry.toJsValue) =
      (ActionHarbor.verifyLoop index prevHash entries).mapError .unhashable := by
  induction entries generalizing index prevHash with
  | nil => rfl
  | cons entry rest ih =>
    obtain ⟨hsequence, hprev, hhash⟩ := entry.getProp_toJsValue
    rw [List.map_cons, Untyped.verifyLoop, hsequence, hprev, hhash, ActionHarbor.verifyLoop]
    simp only [Untyped.isNat, JsNumber.strictEq_ofNat, JsValue.isString,
      Untyped.computeEntryHash_toJsValue, Bool.not_eq_true', decide_eq_false_iff_not]
    by_cases hgap : entry.sequence = index + 1
    · rw [if_neg (not_not_intro hgap), if_neg (not_not_intro hgap), hgap]
      by_cases hpointer : entry.prevHash = prevHash
      · rw [if_neg (not_not_intro hpointer), if_neg (not_not_intro hpointer)]
        cases ActionHarbor.computeEntryHash entry.toAuditEntryBody with
        | error e => rfl
        | ok recomputed =>
          -- `prevHash = hash` once the two strings agree
          by_cases hmatch : entry.hash = recomputed
          · simp only [Except.mapError, bind, Except.bind, hmatch, not_true, if_false, ne_eq]
            exact ih (index + 1) recomputed
          · have hmatch' : recomputed ≠ entry.hash := fun h => hmatch h.symm
            simp only [Except.mapError, bind, Except.bind, hmatch, hmatch', not_false_eq_true,
              if_true, ne_eq]
      · rw [if_pos hpointer, if_pos hpointer]
        rfl
    · rw [if_pos hgap, if_pos hgap]
      rfl

/-- The checker on the rows a ledger lists is the typed checker. -/
theorem Untyped.verifyLedgerIntegrity_list (ledger : AuditLedger) (expected : Option Nat) :
    Untyped.verifyLedgerIntegrity ledger.list expected =
      (ActionHarbor.verifyLedgerIntegrity ledger.entries expected).mapError .unhashable := by
  unfold Untyped.verifyLedgerIntegrity ActionHarbor.verifyLedgerIntegrity
  rw [AuditLedger.list, Untyped.verifyLoop_map_toJsValue, List.length_map]
  cases ActionHarbor.verifyLoop 0 genesisHash ledger.entries with
  | error e => rfl
  | ok broken =>
    cases broken with
    | some result => rfl
    | none =>
      cases expected with
      | none => rfl
      | some n => by_cases h : ledger.entries.length = n <;> simp [Except.mapError, bind, Except.bind, h]

/-! ## Rows that check -/

/-- What checks, with the row behind it, checks from there. -/
theorem verifyLoop_append {index : Nat} {prevHash : JsString}
    {entries : List AuditLedgerEntry} (more : List AuditLedgerEntry)
    (h : verifyLoop index prevHash entries = .ok none) :
    verifyLoop index prevHash (entries ++ more) =
      verifyLoop (index + entries.length)
        (entries.getLast?.elim prevHash AuditLedgerEntry.hash) more := by
  induction entries generalizing index prevHash with
  | nil => rfl
  | cons entry rest ih =>
    -- an intact row passes its three checks
    rw [verifyLoop] at h
    split at h
    · cases h
    rename_i hgap
    split at h
    · cases h
    rename_i hpointer
    cases hrecomputed : computeEntryHash entry.toAuditEntryBody with
    | error e => rw [hrecomputed] at h; cases h
    | ok recomputed =>
      simp only [hrecomputed, bind, Except.bind] at h
      split at h
      · cases h
      rename_i hmatch
      rw [List.cons_append, verifyLoop, if_neg hgap, if_neg hpointer]
      simp only [hrecomputed, bind, Except.bind, if_neg hmatch]
      have hlength : index + (entry :: rest).length = index + 1 + rest.length := by
        rw [List.length_cons]
        omega
      have hlast : (entry :: rest).getLast?.elim prevHash AuditLedgerEntry.hash =
          rest.getLast?.elim entry.hash AuditLedgerEntry.hash := by
        cases rest with
        | nil => rfl
        | cons next rest => rw [List.getLast?_cons_cons, List.getLast?_cons]; rfl
      rw [hlength, hlast]
      exact ih h

/-- Every row of the ledger checks. -/
def AuditLedger.Intact (ledger : AuditLedger) : Prop :=
  verifyLoop 0 genesisHash ledger.entries = .ok none

theorem AuditLedger.intact_empty : AuditLedger.Intact {} := rfl

/-- An intact ledger verifies, as typed rows and as the objects it lists. -/
theorem AuditLedger.Intact.verify {ledger : AuditLedger} (h : ledger.Intact) :
    verifyLedgerIntegrity ledger.entries = .ok (.ok ledger.entries.length) ∧
      Untyped.verifyLedgerIntegrity ledger.list = .ok (.ok ledger.entries.length) := by
  have typed : verifyLedgerIntegrity ledger.entries = .ok (.ok ledger.entries.length) := by
    rw [AuditLedger.Intact] at h
    unfold verifyLedgerIntegrity
    rw [h]
    rfl
  refine ⟨typed, ?_⟩
  rw [Untyped.verifyLedgerIntegrity_list, typed]
  rfl

/-- A row built at the end of an intact ledger checks behind it. -/
theorem AuditLedger.Intact.append {ledger : AuditLedger} {input : AuditEventInput} {stamp : Stamp}
    {entry : AuditLedgerEntry} (h : ledger.Intact)
    (hbuild : buildLedgerEntry input (ledger.entries.length + 1) ledger.lastHash stamp =
      .ok entry) :
    AuditLedger.Intact ⟨ledger.entries ++ [entry]⟩ := by
  rw [buildLedgerEntry] at hbuild
  simp only [bind, Except.bind] at hbuild
  split at hbuild
  · cases hbuild
  rename_i hash hhash
  obtain rfl := Except.ok.inj hbuild
  have hlast : ledger.lastHash = ledger.entries.getLast?.elim genesisHash AuditLedgerEntry.hash := by
    rw [AuditLedger.lastHash]
    cases ledger.entries.getLast? <;> rfl
  rw [AuditLedger.Intact, verifyLoop_append _ h, verifyLoop, ← hlast]
  simp only [Nat.zero_add, ne_eq, not_true, if_false]
  simp only [hhash, bind, Except.bind, not_true, if_false]
  rfl

/-! ## Runs of calls -/

/-- One call on a ledger: it throws before the push, or the row it built is pushed. -/
theorem AuditLedger.appendCall_run (ledger : AuditLedger) (input : AuditEventInput)
    (stamp : Stamp) :
    (appendCall input stamp).run.run ledger =
      match buildLedgerEntry input (ledger.entries.length + 1) ledger.lastHash stamp with
      | .ok entry => (.ok entry, ⟨ledger.entries ++ [entry]⟩)
      | .error error => (.error error, ledger) := by
  unfold appendCall
  simp only [ExceptT.run, StateT.run, bind, ExceptT.bind, ExceptT.mk, StateT.bind, get, getThe,
    MonadStateOf.get, liftM, monadLift, MonadLift.monadLift, ExceptT.lift, Functor.map, StateT.map,
    StateT.get, ExceptT.bindCont, pure]
  generalize buildLedgerEntry input (ledger.entries.length + 1) ledger.lastHash stamp = built
  cases built <;> rfl

/-- What a call that ended as `outcome` did to the ledger. -/
structure AuditLedger.Appended (ledger : AuditLedger)
    (outcome : Except CanonicalizeError AuditLedgerEntry) (next : AuditLedger) : Prop where
  intact : ledger.Intact → next.Intact
  entries : next.entries = ledger.entries ++ outcome.toOption.toList

/-- Every call is one of these. -/
theorem AuditLedger.appended_appendCall (ledger : AuditLedger) (input : AuditEventInput)
    (stamp : Stamp) :
    ledger.Appended ((appendCall input stamp).run.run ledger).1
      ((appendCall input stamp).run.run ledger).2 := by
  rw [AuditLedger.appendCall_run]
  cases hbuild : buildLedgerEntry input (ledger.entries.length + 1) ledger.lastHash stamp with
  | error error => exact ⟨id, (List.append_nil _).symm⟩
  | ok entry => exact ⟨fun h => h.append hbuild, rfl⟩

/-- A throwing call leaves the ledger as it was. -/
theorem AuditLedger.Appended.of_error {ledger next : AuditLedger} {error : CanonicalizeError}
    (h : ledger.Appended (.error error) next) : next = ledger := by
  have hentries : next.entries = ledger.entries := h.entries.trans (List.append_nil _)
  cases next
  cases ledger
  exact congrArg AuditLedger.mk hentries

/-- A sequence of calls keeps a ledger intact and adds the rows of those that did not throw. -/
theorem AuditLedger.appended_appendCalls (ledger : AuditLedger)
    (calls : List (AuditEventInput × Stamp)) :
    (ledger.Intact → (appendCalls calls ledger).2.Intact) ∧
      (appendCalls calls ledger).2.entries =
        ledger.entries ++ (appendCalls calls ledger).1.filterMap Except.toOption := by
  induction calls generalizing ledger with
  | nil => exact ⟨id, (List.append_nil _).symm⟩
  | cons call rest ih =>
    obtain ⟨input, stamp⟩ := call
    have first := ledger.appended_appendCall input stamp
    rw [appendCalls]
    generalize (appendCall input stamp).run.run ledger = result at first ⊢
    obtain ⟨outcome, next⟩ := result
    obtain ⟨hintact, hentries⟩ := ih next
    refine ⟨fun h => hintact (first.intact h), ?_⟩
    rw [hentries, first.entries, List.append_assoc]
    cases outcome <;> rfl

/-- One more call at the end of a sequence. -/
theorem AuditLedger.appendCalls_concat (ledger : AuditLedger)
    (calls : List (AuditEventInput × Stamp)) (call : AuditEventInput × Stamp) :
    appendCalls (calls ++ [call]) ledger =
      ((appendCalls calls ledger).1 ++
          [((appendCall call.1 call.2).run.run (appendCalls calls ledger).2).1],
        ((appendCall call.1 call.2).run.run (appendCalls calls ledger).2).2) := by
  induction calls generalizing ledger with
  | nil =>
    obtain ⟨input, stamp⟩ := call
    simp only [List.nil_append, appendCalls]
  | cons first rest ih =>
    rw [List.cons_append, appendCalls, ih, appendCalls]
    dsimp only
    rw [List.cons_append]

omit [Host] in
/-- As many rows as calls that did not throw. -/
private theorem length_filterMap_toOption {ε α : Type} (outcomes : List (Except ε α)) :
    (outcomes.filterMap Except.toOption).length = outcomes.countP Except.isOk := by
  induction outcomes with
  | nil => rfl
  | cons outcome rest ih =>
    cases outcome with
    | error e =>
      have hthrown : (Except.error e : Except ε α).toOption = none := rfl
      rw [List.filterMap_cons_none hthrown, ih, List.countP_cons_of_neg (Bool.false_ne_true)]
    | ok value =>
      have hpushed : (Except.ok value : Except ε α).toOption = some value := rfl
      rw [List.filterMap_cons_some hpushed, List.length_cons, ih, List.countP_cons_of_pos rfl]

/-- The outcomes of a sequence of appends to a fresh ledger. -/
def AuditLedger.outcomes (calls : List (AuditEventInput × Stamp)) :
    List (Except CanonicalizeError AuditLedgerEntry) :=
  (appendCalls calls {}).1

/-- A fresh ledger after a sequence of appends. -/
def AuditLedger.after (calls : List (AuditEventInput × Stamp)) : AuditLedger :=
  (appendCalls calls {}).2

/-- After every sequence of appends the listed rows verify and are as many as the
    appends that did not throw. -/
theorem AuditLedger.after_verify (calls : List (AuditEventInput × Stamp)) :
    verifyLedgerIntegrity (after calls).entries =
        .ok (.ok ((outcomes calls).countP Except.isOk)) ∧
      Untyped.verifyLedgerIntegrity (after calls).list =
        .ok (.ok ((outcomes calls).countP Except.isOk)) := by
  obtain ⟨hintact, hentries⟩ := AuditLedger.appended_appendCalls {} calls
  have hcount : (after calls).entries.length = (outcomes calls).countP Except.isOk := by
    rw [after, hentries, List.nil_append, length_filterMap_toOption, outcomes]
  rw [← hcount]
  exact (hintact AuditLedger.intact_empty).verify

/-- One more append. -/
theorem AuditLedger.appended_after (calls : List (AuditEventInput × Stamp))
    (call : AuditEventInput × Stamp) :
    ∃ outcome, outcomes (calls ++ [call]) = outcomes calls ++ [outcome] ∧
      (after calls).Appended outcome (after (calls ++ [call])) := by
  have hconcat := AuditLedger.appendCalls_concat {} calls call
  have last := (after calls).appended_appendCall call.1 call.2
  unfold AuditLedger.after AuditLedger.outcomes at *
  generalize (appendCall call.1 call.2).run.run (appendCalls calls {}).2 = result at hconcat last
  rw [hconcat]
  exact ⟨result.1, rfl, last⟩

/-- The live ledger always verifies, with one checked row for every append that did
    not throw; the next append keeps the rows there are, and when it throws the list
    is exactly as before. -/
theorem AuditLedger.appendCalls_verify (calls : List (AuditEventInput × Stamp))
    (call : AuditEventInput × Stamp) :
    verifyLedgerIntegrity (after calls).entries =
        .ok (.ok ((outcomes calls).countP Except.isOk)) ∧
      Untyped.verifyLedgerIntegrity (after calls).list =
        .ok (.ok ((outcomes calls).countP Except.isOk)) ∧
      (after calls).list <+: (after (calls ++ [call])).list ∧
      ∀ error, outcomes (calls ++ [call]) = outcomes calls ++ [.error error] →
        (after (calls ++ [call])).list = (after calls).list := by
  obtain ⟨typed, untyped⟩ := AuditLedger.after_verify calls
  obtain ⟨outcome, houtcome, happended⟩ := AuditLedger.appended_after calls call
  refine ⟨typed, untyped, ?_, ?_⟩
  · rw [AuditLedger.list, AuditLedger.list, happended.entries, List.map_append]
    exact List.prefix_append _ _
  · intro error herror
    rw [houtcome, List.append_cancel_left_eq, List.cons.injEq] at herror
    rw [herror.1] at happended
    rw [happended.of_error]

end

end ActionHarbor
