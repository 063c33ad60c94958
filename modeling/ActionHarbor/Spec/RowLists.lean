import ActionHarbor.Model.Projection
import ActionHarbor.Spec.HashChain

/-!
# Lists of ledger rows

Neither the checker nor the projection asks where the rows it is handed come from. What
the checker accepts among the rows of one ledger are the beginnings of that ledger. What
the projection shows of an operation is decided by the operation's own rows, in whatever
order they stand and whatever stands between them.

## Key results

- `verifyLedgerIntegrity_members`: the row lists of a ledger that verify
- `relevantRows_perm`, `relevantRows_later`: what the projection folds over
- `projectOperation_own_rows`: the projection is the operation's own history
-/

namespace ActionHarbor

/-! ## Rows of one ledger -/

section
variable [Host]

/-- Rows that check are numbered from the start of the check. -/
theorem sequence_of_verifyLoop {index : Nat} {prevHash : JsString}
    {rows : List AuditLedgerEntry} (h : verifyLoop index prevHash rows = .ok none) (i : Nat)
    (hi : i < rows.length) : rows[i].sequence = index + i + 1 := by
  induction rows generalizing index prevHash i with
  | nil => cases hi
  | cons row rest ih =>
    rw [verifyLoop] at h
    split at h
    · cases h
    rename_i hgap
    split at h
    · cases h
    cases hrecomputed : computeEntryHash row.toAuditEntryBody with
    | error e => rw [hrecomputed] at h; cases h
    | ok recomputed =>
      simp only [hrecomputed, bind, Except.bind] at h
      split at h
      · cases h
      cases i with
      | zero => exact not_not.mp hgap
      | succ i =>
        have hrest := ih h i (Nat.lt_of_succ_lt_succ hi)
        rw [List.getElem_cons_succ, hrest]
        omega

/-- The beginning of rows that check does. -/
theorem verifyLoop_of_append {index : Nat} {prevHash : JsString}
    {rows more : List AuditLedgerEntry}
    (h : verifyLoop index prevHash (rows ++ more) = .ok none) :
    verifyLoop index prevHash rows = .ok none := by
  induction rows generalizing index prevHash with
  | nil => rfl
  | cons row rest ih =>
    rw [List.cons_append, verifyLoop] at h
    rw [verifyLoop]
    split at h
    · cases h
    rename_i hgap
    split at h
    · cases h
    rename_i hpointer
    rw [if_neg hgap, if_neg hpointer]
    cases hrecomputed : computeEntryHash row.toAuditEntryBody with
    | error e => rw [hrecomputed] at h; cases h
    | ok recomputed =>
      simp only [hrecomputed, bind, Except.bind] at h ⊢
      split at h
      · cases h
      rename_i hmatch
      rw [if_neg hmatch]
      exact ih h

/-- Among the rows of an intact ledger, those that check one after another are its first ones. -/
theorem AuditLedger.Intact.prefix_iff {ledger : AuditLedger} (h : ledger.Intact)
    {rows : List AuditLedgerEntry} (hrows : ∀ row ∈ rows, row ∈ ledger.entries) :
    verifyLoop 0 genesisHash rows = .ok none ↔ rows <+: ledger.entries := by
  constructor
  · intro hcheck
    -- the row at a place has the number of the place, and so has one row of the ledger
    have hat : ∀ i (hi : i < rows.length), ledger.entries[i]? = some rows[i] := by
      intro i hi
      obtain ⟨j, hj, hrow⟩ := List.mem_iff_getElem.mp (hrows rows[i] (List.getElem_mem hi))
      have hnumber := sequence_of_verifyLoop hcheck i hi
      rw [← hrow, sequence_of_verifyLoop h j hj] at hnumber
      have hplace : j = i := by omega
      subst hplace
      rw [List.getElem?_eq_getElem hj, hrow]
    rw [List.prefix_iff_getElem?]
    intro i hi
    exact hat i hi
  · rintro ⟨more, hmore⟩
    rw [AuditLedger.Intact, ← hmore] at h
    exact verifyLoop_of_append h

/-- What the checker answers is `ok` for the rows that check, if they are as many as expected. -/
theorem verifyLedgerIntegrity_ok_iff (rows : List AuditLedgerEntry) (expected : Option Nat) :
    (∃ checked, verifyLedgerIntegrity rows expected = .ok (.ok checked)) ↔
      verifyLoop 0 genesisHash rows = .ok none ∧ ∀ n, expected = some n → rows.length = n := by
  unfold verifyLedgerIntegrity
  cases hloop : verifyLoop 0 genesisHash rows with
  | error e => simp [bind, Except.bind]
  | ok broken =>
    cases broken with
    | some result =>
      have hresult : ∀ checked, result ≠ .ok checked := by
        intro checked
        have hrows := Untyped.verifyLoop_map_toJsValue 0 genesisHash rows
        rw [hloop] at hrows
        exact verifyLoop_broken hrows checked
      simp [bind, Except.bind, hresult]
    | none =>
      cases expected with
      | none => simp [bind, Except.bind]
      | some n => by_cases hn : rows.length = n <;> simp [bind, Except.bind, hn]

/-- However rows of a ledger are selected, ordered and repeated: they verify if they are its
    first rows, with the count of the ledger if they are all of them, and some first rows with
    that count are too few. -/
theorem verifyLedgerIntegrity_members (calls : List (AuditEventInput × Stamp))
    (rows : List AuditLedgerEntry) (hrows : ∀ row ∈ rows, row ∈ (AuditLedger.after calls).entries) :
    ((∃ checked, verifyLedgerIntegrity rows = .ok (.ok checked)) ↔
        rows <+: (AuditLedger.after calls).entries) ∧
      ((∃ checked, verifyLedgerIntegrity rows (some (AuditLedger.after calls).entries.length) =
          .ok (.ok checked)) ↔ rows = (AuditLedger.after calls).entries) ∧
      (rows <+: (AuditLedger.after calls).entries → rows ≠ (AuditLedger.after calls).entries →
        verifyLedgerIntegrity rows (some (AuditLedger.after calls).entries.length) =
          .ok (.broken .chainLengthMismatch (AuditLedger.after calls).entries.length)) := by
  have hintact : (AuditLedger.after calls).Intact :=
    (AuditLedger.appended_appendCalls {} calls).1 AuditLedger.intact_empty
  generalize AuditLedger.after calls = ledger at hrows hintact ⊢
  have hbegins := hintact.prefix_iff hrows
  -- a beginning as long as the ledger is the ledger
  have hwhole : rows <+: ledger.entries → (rows.length = ledger.entries.length ↔
      rows = ledger.entries) := fun h => ⟨h.eq_of_length, congrArg List.length⟩
  refine ⟨?_, ?_, fun hbeginning hproper => ?_⟩
  · rw [verifyLedgerIntegrity_ok_iff, hbegins]
    simp
  · rw [verifyLedgerIntegrity_ok_iff, hbegins]
    constructor
    · rintro ⟨hbeginning, hlength⟩
      exact (hwhole hbeginning).mp (hlength _ rfl)
    · rintro rfl
      exact ⟨List.prefix_rfl, fun n hn => Option.some.inj hn⟩
  · have hlength := mt (hwhole hbeginning).mp hproper
    unfold verifyLedgerIntegrity
    rw [hbegins.mpr hbeginning]
    simp only [bind, Except.bind, ne_eq, hlength, not_false_eq_true, if_true]

end

namespace Sample

/-- A ledger with the decision about an action and the start of its operation. -/
def decidedAndStarted : AuditLedger :=
  @AuditLedger.after node
    [(⟨.policyDecision, ⟨.server, js "policy"⟩, ⟨.action, js "a"⟩,
        [(js "outcome", .string (js "ALLOW"))], none, some (js "op"), none, none⟩, ⟨js "evt_1", 0⟩),
      (⟨.executionStarted, ⟨.server, js "gateway"⟩, ⟨.operation, js "op"⟩, [], none,
        some (js "op"), none, none⟩, ⟨js "evt_2", 5⟩)]

/-- Its first row verifies by itself. -/
theorem firstRow_verifies :
    ∃ checked, @verifyLedgerIntegrity node (decidedAndStarted.entries.take 1) none =
      .ok (.ok checked) :=
  (@verifyLedgerIntegrity_members node _ (decidedAndStarted.entries.take 1)
    fun _ hrow => List.mem_of_mem_take hrow).1.mpr (List.take_prefix _ _)

end Sample

/-! ## Rows of one operation -/

/-- The rows the projection folds over, in order. -/
def relevantRows (entries : List AuditLedgerEntry) (operationId : JsString) :
    List AuditLedgerEntry :=
  (entries.filter fun entry => entry.operationId = some operationId).insertionSort
    fun a b => a.sequence ≤ b.sequence

theorem projectOperation_eq (entries : List AuditLedgerEntry) (operationId : JsString) :
    projectOperation entries operationId =
      { operationId := operationId
        stagesSeen := (relevantRows entries operationId).foldl addStage []
        finalState := (relevantRows entries operationId).foldl
          (fun state entry => finalStateForEventType entry.type state)
          (if (relevantRows entries operationId).length = 0 then .noEvents else .proposed)
        events := relevantRows entries operationId } := rfl

theorem relevantRows_perm_filter (entries : List AuditLedgerEntry) (operationId : JsString) :
    (relevantRows entries operationId).Perm
      (entries.filter fun entry => entry.operationId = some operationId) :=
  List.perm_insertionSort _ _

theorem relevantRows_sorted (entries : List AuditLedgerEntry) (operationId : JsString) :
    (relevantRows entries operationId).Pairwise fun a b => a.sequence ≤ b.sequence :=
  List.pairwise_insertionSort _ _

theorem relevantRows_nodup {entries : List AuditLedgerEntry}
    (hdistinct : (entries.map (·.sequence)).Nodup) (operationId : JsString) :
    ((relevantRows entries operationId).map (·.sequence)).Nodup :=
  ((relevantRows_perm_filter entries operationId).map _).nodup_iff.mpr
    (hdistinct.sublist (List.filter_sublist.map _))

/-- Rows sorted by distinct numbers are sorted in one way. -/
theorem eq_of_sorted_rows {rows others : List AuditLedgerEntry}
    (hdistinct : (rows.map (·.sequence)).Nodup) (hperm : rows.Perm others)
    (hrows : rows.Pairwise fun a b => a.sequence ≤ b.sequence)
    (hothers : others.Pairwise fun a b => a.sequence ≤ b.sequence) : rows = others := by
  refine List.Perm.eq_of_pairwise ?_ hrows hothers hperm
  intro a b ha hb hab hba
  exact List.inj_on_of_nodup_map hdistinct ha (hperm.mem_iff.mpr hb) (Nat.le_antisymm hab hba)

/-- Only an operation's own rows are relevant, and their numbers order them. -/
theorem relevantRows_perm {entries others : List AuditLedgerEntry} {operationId : JsString}
    (hdistinct : (entries.map (·.sequence)).Nodup)
    (hperm : (entries.filter fun entry => entry.operationId = some operationId).Perm
      (others.filter fun entry => entry.operationId = some operationId)) :
    relevantRows entries operationId = relevantRows others operationId := by
  have hrows : (relevantRows entries operationId).Perm (relevantRows others operationId) :=
    (relevantRows_perm_filter entries operationId).trans
      (hperm.trans (relevantRows_perm_filter others operationId).symm)
  exact eq_of_sorted_rows (relevantRows_nodup hdistinct operationId) hrows
    (relevantRows_sorted entries operationId) (relevantRows_sorted others operationId)

/-- A later row of the operation comes behind its other rows. -/
theorem relevantRows_later {operationId : JsString} {entries extended : List AuditLedgerEntry}
    {entry : AuditLedgerEntry} (hdistinct : (entries.map (·.sequence)).Nodup)
    (hentry : entry.operationId = some operationId)
    (hlater : ∀ earlier ∈ entries, earlier.operationId = some operationId →
      earlier.sequence < entry.sequence)
    (hextended : extended.Perm (entries ++ [entry])) :
    relevantRows extended operationId = relevantRows entries operationId ++ [entry] := by
  have hperm : (relevantRows extended operationId).Perm
      (relevantRows entries operationId ++ [entry]) := by
    have hfiltered := hextended.filter fun entry => entry.operationId = some operationId
    rw [List.filter_append, List.filter_singleton, decide_eq_true hentry, cond_true] at hfiltered
    exact (relevantRows_perm_filter extended operationId).trans
      (hfiltered.trans ((relevantRows_perm_filter entries operationId).symm.append_right _))
  have hbefore : ∀ row ∈ relevantRows entries operationId, row.sequence < entry.sequence := by
    intro row hrow
    have hmem := List.mem_filter.mp ((relevantRows_perm_filter entries operationId).mem_iff.mp hrow)
    exact hlater row hmem.1 (by simpa using hmem.2)
  -- both sides hold the same rows, and both are sorted by distinct numbers
  have hnodup : ((relevantRows entries operationId ++ [entry]).map (·.sequence)).Nodup := by
    rw [List.map_append, List.nodup_append]
    refine ⟨relevantRows_nodup hdistinct operationId, List.nodup_singleton _,
      fun a ha b hb hab => ?_⟩
    obtain ⟨row, hrow, rfl⟩ := List.mem_map.mp ha
    rw [List.map_singleton, List.mem_singleton] at hb
    have := hbefore row hrow
    omega
  have hsorted : (relevantRows entries operationId ++ [entry]).Pairwise
      fun a b => a.sequence ≤ b.sequence := by
    refine List.pairwise_append.mpr ⟨relevantRows_sorted entries operationId,
      List.pairwise_singleton _ _, fun row hrow b hb => ?_⟩
    rw [List.mem_singleton.mp hb]
    exact Nat.le_of_lt (hbefore row hrow)
  exact (eq_of_sorted_rows hnodup hperm.symm hsorted
    (relevantRows_sorted extended operationId)).symm

/-- The projection shows the same whatever rows of other operations, or of none, stand among
    the rows, and in whatever order; and the final state goes on with a later row of the
    operation, from the old one or, if there was no row, from the start. -/
theorem projectOperation_own_rows (operationId : JsString) (entries : List AuditLedgerEntry)
    (hdistinct : (entries.map (·.sequence)).Nodup) :
    (∀ others mixed, (∀ entry ∈ others, entry.operationId ≠ some operationId) →
      mixed.Perm (entries ++ others) →
      projectOperation mixed operationId = projectOperation entries operationId) ∧
    (∀ entry extended, entry.operationId = some operationId →
      (∀ earlier ∈ entries, earlier.operationId = some operationId →
        earlier.sequence < entry.sequence) →
      extended.Perm (entries ++ [entry]) →
      (projectOperation extended operationId).finalState =
        finalStateForEventType entry.type
          (if (projectOperation entries operationId).events = [] then .proposed
          else (projectOperation entries operationId).finalState)) := by
  constructor
  · intro others mixed hothers hmixed
    rw [projectOperation_eq, projectOperation_eq, ← relevantRows_perm hdistinct]
    have hnone : others.filter (fun entry => entry.operationId = some operationId) = [] :=
      List.filter_eq_nil_iff.mpr fun entry hentry => by simpa using hothers entry hentry
    have hfiltered := hmixed.filter fun entry => entry.operationId = some operationId
    rw [List.filter_append, hnone, List.append_nil] at hfiltered
    exact hfiltered.symm
  · intro entry extended hentry hlater hextended
    rw [projectOperation_eq, projectOperation_eq,
      relevantRows_later hdistinct hentry hlater hextended]
    simp only [List.foldl_append, List.foldl_cons, List.foldl_nil, List.length_append,
      List.length_singleton, List.length_eq_zero_iff]
    -- the fold over the earlier rows does not depend on how an empty one would end
    by_cases hnone : relevantRows entries operationId = []
    · simp [hnone]
    · simp [hnone]

/-- The rows read backwards show the same operation. -/
theorem Sample.projection_reversed :
    projectOperation decidedAndStarted.entries.reverse (js "op") =
      projectOperation decidedAndStarted.entries (js "op") :=
  (projectOperation_own_rows (js "op") decidedAndStarted.entries (by decide +kernel)).1 []
    decidedAndStarted.entries.reverse (by simp)
    (by rw [List.append_nil]; exact List.reverse_perm _)

end ActionHarbor
