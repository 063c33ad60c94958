import ActionHarbor.Spec.HashChain
import ActionHarbor.Spec.Routing
import ActionHarbor.Spec.RowSchema
import ActionHarbor.Spec.RunLedgers

/-!
# Previews of tampered ledgers

The rows of a run leave the server as JSON and may come back edited. A faithful copy of them
is accepted; a row that was changed and kept its hash is reported where it stands, with the
first thing that is wrong about it. So is the row that the page's own button tampers with.

## Key results

- `verifyLoop_edited`: the first edited row is the one that is reported
- `Server.preview_copy`: a copy of a run's ledger is accepted
- `Server.preview_edited`: an edited one is not
- `Server.tamperDemo_detected`: the button, from the page to the answer
-/

namespace ActionHarbor

/-! ## Payloads of written rows -/

mutual

/-- Redaction leaves JSON data JSON data. -/
theorem isJsonData_redactValue (key : JsString) (v : JsValue) (hv : isJsonData v = true) :
    isJsonData (redactValue key v) = true := by
  match v with
  | .string s =>
    rw [redactValue]
    split <;> rfl
  | .array items =>
    rw [redactValue]
    exact isJsonItems_redactItems key items hv
  | .object props =>
    obtain ⟨hdistinct, hdata⟩ := isJsonData_object.mp hv
    obtain ⟨hkeys, hredacted⟩ := isJsonProps_redactPayload props hdata
    rw [redactValue, isJsonData_object, hkeys]
    exact ⟨hdistinct, hredacted⟩
  | .null | .bool _ | .number _ => exact hv
  | .undefined | .bigint _ | .symbol _ | .function _ | .hole | .classInstance _ _ => cases hv

/-- So it is with the elements of an array. -/
theorem isJsonItems_redactItems (key : JsString) (items : List JsValue)
    (hitems : isJsonItems items = true) : isJsonItems (redactItems key items) = true := by
  match items with
  | [] => rfl
  | item :: rest =>
    obtain ⟨hitem, hrest⟩ := isJsonItems_cons.mp hitems
    rw [redactItems]
    exact isJsonItems_cons.mpr
      ⟨isJsonData_redactValue key item hitem, isJsonItems_redactItems key rest hrest⟩

/-- And with the properties of an object, whose keys stay. -/
theorem isJsonProps_redactPayload (props : List (JsString × JsValue))
    (hprops : isJsonProps props = true) :
    AssocList.keys (redactPayload props) = AssocList.keys props ∧
      isJsonProps (redactPayload props) = true := by
  match props with
  | [] => exact ⟨rfl, rfl⟩
  | (key, value) :: rest =>
    obtain ⟨hkey, hvalue, hrest⟩ := isJsonProps_cons.mp hprops
    obtain ⟨hkeys, hredacted⟩ := isJsonProps_redactPayload rest hrest
    rw [redactPayload, if_neg hkey]
    exact ⟨congrArg (key :: ·) hkeys,
      isJsonProps_cons.mpr ⟨hkey, isJsonData_redactValue key value hvalue, hredacted⟩⟩

end

section
variable [Host]

/-- A row that was appended carries its redacted payload. -/
theorem AuditLedger.payload_of_append {ledger ledger' : AuditLedger} {input : AuditEventInput}
    {stamp : Stamp} {entry : AuditLedgerEntry}
    (h : ledger.append input stamp = .ok (ledger', entry)) :
    entry.payload = redactPayload input.payload := by
  rw [append, buildLedgerEntry] at h
  generalize computeEntryHash _ = hashed at h
  cases hashed with
  | error e => cases h
  | ok hash =>
    cases h
    rfl

/-- The payloads of appended rows are JSON data. -/
theorem AuditLedger.Builds.payloads {ledger grown : AuditLedger} (h : ledger.Builds grown)
    (hledger : ∀ row ∈ ledger.entries, IsJsonPayload row.payload) :
    ∀ row ∈ grown.entries, IsJsonPayload row.payload := by
  induction h with
  | refl => exact hledger
  | append grown next input stamp entry _ hpayload happend ih =>
    rw [(AuditLedger.append_eq_ok happend).1]
    intro row hrow
    rcases List.mem_append.mp hrow with hrow | hrow
    · exact ih row hrow
    · obtain rfl := List.mem_singleton.mp hrow
      rw [IsJsonPayload, AuditLedger.payload_of_append happend]
      exact isJsonData_redactValue [] (.object input.payload) hpayload

/-! ## The chain of an edited ledger -/

/-- What the loop asks of a row, and of the rows behind it. -/
theorem verifyLoop_cons_eq_none {index : Nat} {prevHash : JsString} {row : AuditLedgerEntry}
    {rest : List AuditLedgerEntry} :
    verifyLoop index prevHash (row :: rest) = .ok none ↔
      row.sequence = index + 1 ∧ row.prevHash = prevHash ∧
        computeEntryHash row.toAuditEntryBody = .ok row.hash ∧
        verifyLoop (index + 1) row.hash rest = .ok none := by
  rw [verifyLoop]
  by_cases hsequence : row.sequence = index + 1
  swap
  · simp [hsequence]
  by_cases hprev : row.prevHash = prevHash
  swap
  · simp [hsequence, hprev]
  cases hcomputed : computeEntryHash row.toAuditEntryBody with
  | error e => simp [hsequence, hprev, bind, Except.bind]
  | ok recomputed =>
    by_cases hhash : recomputed = row.hash
    · simp [hsequence, hprev, hhash, bind, Except.bind]
    · simp [hsequence, hprev, hhash, bind, Except.bind]

/-- Rows with copies of them, all with JSON payloads. -/
def Copied (rows copies : List AuditLedgerEntry) : Prop :=
  List.Forall₂ (fun row copy => row.CopiedAs copy ∧ IsJsonPayload row.payload ∧
    IsJsonPayload copy.payload) rows copies

/-- A copy is checked like its row. -/
private theorem verifyLoop_copy {index : Nat} {prevHash : JsString} {row copy : AuditLedgerEntry}
    {rest copies : List AuditLedgerEntry} (hcopied : row.CopiedAs copy)
    (hrow : IsJsonPayload row.payload) (hcopy : IsJsonPayload copy.payload)
    (h : verifyLoop index prevHash (row :: rest) = .ok none) :
    verifyLoop index prevHash (copy :: copies) = verifyLoop (index + 1) row.hash copies := by
  obtain ⟨hsequence, hprev, hcomputed, -⟩ := verifyLoop_cons_eq_none.mp h
  have hcomputed' := hcopied.computeEntryHash_eq (by omega) hrow hcopy
  have hsequence' : copy.sequence = index + 1 := by rw [hcopied.rest]; exact hsequence
  have hprev' : copy.prevHash = prevHash := by rw [hcopied.rest]; exact hprev
  have hhash' : copy.hash = row.hash := by rw [hcopied.rest]
  rw [verifyLoop, if_neg (not_not.mpr hsequence'), if_neg (not_not.mpr hprev'), hcomputed',
    hcomputed, hhash']
  simp [bind, Except.bind]

/-- Copies check as the rows do. -/
theorem verifyLoop_copied {index : Nat} {prevHash : JsString}
    {rows copies : List AuditLedgerEntry} (hcopied : Copied rows copies)
    (h : verifyLoop index prevHash rows = .ok none) :
    verifyLoop index prevHash copies = .ok none := by
  induction hcopied generalizing index prevHash with
  | nil => rfl
  | cons hhead _ ih =>
    rw [verifyLoop_copy hhead.1 hhead.2.1 hhead.2.2 h]
    exact ih (verifyLoop_cons_eq_none.mp h).2.2.2

/-- The first thing that is wrong about an edited row. -/
def editReason (row edited : AuditLedgerEntry) : LedgerIntegrityReasonCode :=
  if edited.sequence ≠ row.sequence then .sequenceGap
  else if edited.prevHash ≠ row.prevHash then .prevHashMismatch
  else .hashMismatch

/-- The first row that was edited and kept its hash is the one that is reported, whatever
    stands behind it. -/
theorem verifyLoop_edited (hdigest : DigestInjective) {index : Nat} {prevHash : JsString}
    {kept copied later : List AuditLedgerEntry} (others : List AuditLedgerEntry)
    {row edited : AuditLedgerEntry}
    (h : verifyLoop index prevHash (kept ++ row :: later) = .ok none)
    (hcopied : Copied kept copied) (hrow : IsJsonPayload row.payload)
    (hedited : IsJsonPayload edited.payload) (hhash : edited.hash = row.hash)
    (hchanged : ¬ row.CopiedAs edited) :
    verifyLoop index prevHash (copied ++ edited :: others) =
      .ok (some (.broken (editReason row edited) row.sequence)) := by
  induction hcopied generalizing index prevHash with
  | nil =>
    obtain ⟨hsequence, hprev, hcomputed, -⟩ := verifyLoop_cons_eq_none.mp h
    obtain ⟨recomputed, hrecomputed, hne⟩ := AuditLedgerEntry.computeEntryHash_ne hdigest hhash
      (by omega) hrow hedited hcomputed hchanged
    rw [List.nil_append, verifyLoop, editReason, ← hsequence, ← hprev]
    split
    · rfl
    rename_i hsame
    split
    · rw [not_not.mp hsame]
    rw [hrecomputed, not_not.mp hsame]
    simp [bind, Except.bind, hne]
  | cons hhead _ ih =>
    rw [List.cons_append] at h
    rw [List.cons_append, verifyLoop_copy hhead.1 hhead.2.1 hhead.2.2 h]
    exact ih (verifyLoop_cons_eq_none.mp h).2.2.2

/-- The rows behind a checked one are numbered on. -/
theorem sequence_pos_of_verifyLoop {index : Nat} {prevHash : JsString}
    {rows : List AuditLedgerEntry} (h : verifyLoop index prevHash rows = .ok none) :
    ∀ row ∈ rows, 0 < row.sequence := by
  induction rows generalizing index prevHash with
  | nil => exact fun row hrow => by cases hrow
  | cons row rest ih =>
    obtain ⟨hsequence, -, -, hrest⟩ := verifyLoop_cons_eq_none.mp h
    exact List.forall_mem_cons.mpr ⟨by omega, ih hrest⟩

/-! ## Submitted rows -/

omit [Host] in
/-- Arrays are compared element by element. -/
theorem sameJson_array_iff {items others : List JsValue} :
    SameJson (.array items) (.array others) ↔ List.Forall₂ SameJson items others := by
  induction items generalizing others with
  | nil => cases others <;> simp [SameJson, sameJson, sameItems]
  | cons item items ih =>
    cases others with
    | nil => simp [SameJson, sameJson, sameItems]
    | cons other others =>
      rw [List.forall₂_cons, ← ih]
      simp only [SameJson, sameJson, sameItems, Bool.and_eq_true]
      tauto

omit [Host] in
/-- Every element, JSON data. -/
theorem isJsonItems_iff {items : List JsValue} :
    isJsonItems items = true ↔ ∀ item ∈ items, isJsonData item = true := by
  induction items with
  | nil => simp [isJsonItems]
  | cons item rest ih => simp [ih]

/-- JSON copies of rows as a ledger lists them. -/
def Submitted (rows : List AuditLedgerEntry) (raws : List JsValue) : Prop :=
  List.Forall₂ (fun row raw => SameJson row.toJsValue raw ∧ IsJsonPayload row.payload ∧
    0 < row.sequence ∧ isJsonData raw = true) rows raws

omit [Host] in
/-- Copies of copies. -/
theorem Submitted.trans {rows : List AuditLedgerEntry} {raws copies : List JsValue}
    (h : Submitted rows raws) (hcopies : List.Forall₂ SameJson raws copies)
    (hdata : isJsonItems copies = true) : Submitted rows copies := by
  induction h generalizing copies with
  | nil =>
    cases hcopies
    exact .nil
  | cons hhead _ ih =>
    cases hcopies with
    | cons hsame hrest =>
      obtain ⟨hcopy, hcopies⟩ := isJsonItems_cons.mp hdata
      exact .cons ⟨hhead.1.trans hsame, hhead.2.1, hhead.2.2.1, hcopy⟩ (ih hrest hcopies)

/-- Copies of readable rows are parsed as copies; one that is not readable spoils them all. -/
theorem parse_submitted {rows : List AuditLedgerEntry} {raws : List JsValue}
    (h : Submitted rows raws) :
    ((∀ row ∈ rows, row.Readable) →
      ∃ copies, raws.mapM AuditLedgerEntry.safeParse = some copies ∧ Copied rows copies) ∧
    ((∃ row ∈ rows, ¬ row.Readable) → raws.mapM AuditLedgerEntry.safeParse = none) := by
  induction h with
  | nil => exact ⟨fun _ => ⟨[], rfl, .nil⟩, fun ⟨row, hrow, _⟩ => by cases hrow⟩
  | @cons row raw rows raws hhead _ ih =>
    obtain ⟨hsame, hpayload, hpositive, hraw⟩ := hhead
    obtain ⟨hreads, hrejects⟩ := AuditLedgerEntry.safeParse_copy hpositive hpayload hraw hsame
    constructor
    · intro hreadable
      obtain ⟨hrow, hrows⟩ := List.forall_mem_cons.mp hreadable
      obtain ⟨copy, hcopy, hcopied, hdata⟩ := hreads hrow
      obtain ⟨copies, hcopies, hrest⟩ := ih.1 hrows
      exact ⟨copy :: copies, by rw [List.mapM_cons, hcopy, hcopies]; rfl,
        .cons ⟨hcopied, hpayload, hdata⟩ hrest⟩
    · rintro ⟨bad, hmem, hbad⟩
      rcases List.mem_cons.mp hmem with rfl | hmem
      · rw [List.mapM_cons, hrejects hbad]
        rfl
      · rw [List.mapM_cons, ih.2 ⟨bad, hmem, hbad⟩]
        cases AuditLedgerEntry.safeParse raw <;> rfl

omit [Host] in
/-- Copies of the rows of a ledger. -/
theorem submitted_of_sameJson {rows : List AuditLedgerEntry} {raws : List JsValue}
    (hrows : ∀ row ∈ rows, IsJsonPayload row.payload ∧ 0 < row.sequence)
    (hraws : isJsonItems raws = true)
    (h : List.Forall₂ SameJson (rows.map AuditLedgerEntry.toJsValue) raws) :
    Submitted rows raws := by
  rw [List.forall₂_map_left_iff] at h
  induction h with
  | nil => exact .nil
  | cons hhead _ ih =>
    obtain ⟨hrow, hrest⟩ := List.forall_mem_cons.mp hrows
    obtain ⟨hraw, hraws⟩ := isJsonItems_cons.mp hraws
    exact .cons ⟨hhead, hrow.1, hrow.2, hraw⟩ (ih hrest hraws)

/-! ## The first row -/

/-- The ledger starts with the proposal of the run. -/
def RunRecord.StartsWithProposal (run : RunRecord) : Prop :=
  ∃ row rest, run.ledger.entries = row :: rest ∧
    AssocList.keys row.payload = [js "goal", js "raw"]

/-- Appends leave the first row in place. -/
theorem RunRecord.StartsWithProposal.grown {run run' : RunRecord} (h : run.StartsWithProposal)
    (hgrown : run.ledger.Builds run'.ledger) : run'.StartsWithProposal := by
  obtain ⟨row, rest, hentries, hkeys⟩ := h
  obtain ⟨more, hmore⟩ := hgrown.isPrefix
  rw [hentries, List.cons_append] at hmore
  exact ⟨row, rest ++ more, hmore.symm, hkeys⟩

/-- A new run has recorded what the model proposed. -/
private theorem startsWithProposal_propose {model : ModelAdapter} {scenarioId : JsString}
    {draw : CreateDraw} {run : RunRecord} (h : proposeRun model scenarioId draw = .ok run) :
    run.StartsWithProposal := by
  rw [proposeRun] at h
  split at h
  · cases h
  rename_i scenario _
  obtain ⟨ledger, hproposed, h⟩ := bind_eq_ok h
  split at h
  · cases h
  · cases h
  split at h
  · cases h
  obtain ⟨ledger', hdecided, h⟩ := bind_eq_ok h
  obtain ⟨state, -, h⟩ := bind_eq_ok h
  obtain rfl := Except.ok.inj h
  -- two rows are appended to the empty ledger, the proposal first
  have happended : ∀ {ledger ledger' : AuditLedger} {input : AuditEventInput} {stamp : Stamp},
      appendNew ledger input stamp = .ok ledger' → ∃ entry, ledger'.entries =
        ledger.entries ++ [entry] ∧ entry.payload = redactPayload input.payload := by
    intro ledger ledger' input stamp happend
    rw [appendNew] at happend
    split at happend
    · cases happend
    · rename_i grown entry hgrown
      obtain rfl := Except.ok.inj happend
      exact ⟨entry, by rw [(AuditLedger.append_eq_ok hgrown).1],
        AuditLedger.payload_of_append hgrown⟩
  obtain ⟨row, hrow, hpayload⟩ := happended hproposed
  obtain ⟨decision, hdecision, -⟩ := happended hdecided
  refine ⟨row, [decision], by rw [hdecision, hrow]; rfl, ?_⟩
  rw [hpayload]
  exact (isJsonProps_redactPayload _ (by simp [isJsonData, isJsonProps, protoKey])).1

private theorem RunSystem.startsWithProposal_born {model : ModelAdapter} {sys : RunSystem}
    (h : Born model sys) : sys.run.StartsWithProposal := by
  obtain ⟨scenarioId, draw, registry, run, c, hnew⟩ := h
  have hverdict : run.BuildsTo (followVerdict registry run draw.authorize) :=
    followVerdict_builds registry run draw.authorize
  exact (startsWithProposal_propose hnew).grown hverdict

/-- Every run in a reachable state has. -/
theorem Server.startsWithProposal {model : ModelAdapter} {events : List ServerEvent} {s : Server}
    {ref : RunRef} {run : RunRecord} (hrun : Transition.run (step model) {} events = some s)
    (hrecord : s.state.records ref = some run) : run.StartsWithProposal := by
  have hsystem : s.system ref = some (s.view ref run) := by rw [system, hrecord]; rfl
  exact run_system_invariant (P := fun sys => sys.run.StartsWithProposal)
    (fun _ hborn => RunSystem.startsWithProposal_born hborn)
    (fun _ _ h hstep => h.grown (RunSystem.builds_step hstep)) (meets_true {} events) hrun hsystem

/-! ## The button -/

omit [Host] in
/-- A property after it was defined. -/
theorem propOf_defineProp (props : List (JsString × JsValue)) (key : JsString) (value : JsValue)
    (key' : JsString) :
    propOf (defineProp props key value) key' = if key' = key then value else propOf props key' := by
  -- a new property comes last
  have happend : ∀ props : List (JsString × JsValue), (∀ p ∈ props, p.1 ≠ key) →
      propOf (props ++ [(key, value)]) key' = if key' = key then value else propOf props key' := by
    intro props hnew
    induction props with
    | nil => simp
    | cons p rest ih =>
      obtain ⟨hp, hrest⟩ := List.forall_mem_cons.mp hnew
      rw [List.cons_append, propOf_cons, propOf_cons, ih hrest]
      by_cases hkey : key' = p.1
      · simp [hkey, hp]
      · simp [hkey]
  -- an old one changes in place, the others stay
  have hother : key' ≠ key → ∀ props : List (JsString × JsValue),
      propOf (props.map fun p => if p.1 = key then (key, value) else p) key' =
        propOf props key' := by
    intro hne props
    induction props with
    | nil => rfl
    | cons p rest ih =>
      obtain ⟨name, old⟩ := p
      by_cases hname : name = key
      · simp [hname, hne, ih]
      · simp [hname, ih]
  have hsame : ∀ props : List (JsString × JsValue), (∃ p ∈ props, p.1 = key) →
      propOf (props.map fun p => if p.1 = key then (key, value) else p) key = value := by
    intro props hold
    induction props with
    | nil => obtain ⟨p, hp, -⟩ := hold; cases hp
    | cons p rest ih =>
      obtain ⟨name, old⟩ := p
      by_cases hname : name = key
      · simp [hname]
      · simp only [List.mem_cons, exists_eq_or_imp, hname, false_or] at hold
        simp [hname, Ne.symm hname, ih hold]
  rw [defineProp]
  split
  · rename_i hany
    have hold : ∃ p ∈ props, p.1 = key := by simpa using hany
    by_cases hkey : key' = key
    · rw [if_pos hkey, hkey, hsame props hold]
    · rw [if_neg hkey, hother hkey]
  · rename_i hany
    exact happend props fun p hp hkey =>
      hany (List.any_eq_true.mpr ⟨p, hp, decide_eq_true hkey⟩)

omit [Host] in
/-- Nothing else is defined. -/
theorem mem_defineProp {props : List (JsString × JsValue)} {key : JsString} {value : JsValue}
    {p : JsString × JsValue} (h : p ∈ defineProp props key value) : p = (key, value) ∨ p ∈ props := by
  rw [defineProp] at h
  split at h
  · obtain ⟨q, hq, rfl⟩ := List.mem_map.mp h
    split
    · exact .inl rfl
    · exact .inr hq
  · rcases List.mem_append.mp h with h | h
    · exact .inr h
    · exact .inl (List.mem_singleton.mp h)

omit [Host] in
/-- Defining a property of JSON data. -/
theorem isJsonData_defineProp {props : List (JsString × JsValue)} {key : JsString} {value : JsValue}
    (hprops : isJsonData (.object props) = true) (hkey : key ≠ protoKey)
    (hvalue : isJsonData value = true) : isJsonData (.object (defineProp props key value)) = true := by
  obtain ⟨hdistinct, hdata⟩ := isJsonData_object.mp hprops
  rw [isJsonProps_iff] at hdata
  rw [isJsonData_object, isJsonProps_iff]
  refine ⟨?_, fun p hp => ?_⟩
  · unfold defineProp
    split
    · have hkeys : AssocList.keys (props.map fun p => if p.1 = key then (key, value) else p) =
          AssocList.keys props := by
        rw [AssocList.keys, List.map_map]
        refine List.map_congr_left fun p _ => ?_
        by_cases hp : p.1 = key <;> simp [hp]
      exact hkeys ▸ hdistinct
    · rename_i hany
      have hnew : key ∉ AssocList.keys props := by
        intro hmem
        obtain ⟨p, hp, hpkey⟩ := List.mem_map.mp hmem
        exact hany (List.any_eq_true.mpr ⟨p, hp, decide_eq_true hpkey⟩)
      rw [AssocList.keys, List.map_append]
      exact List.Nodup.append hdistinct (List.nodup_singleton _) (by simpa using hnew)
  · rcases mem_defineProp hp with rfl | hp
    · exact ⟨hkey, hvalue⟩
    · exact hdata p hp

/-- A row with the mark of the button in its payload. -/
def AuditLedgerEntry.tampered (row : AuditLedgerEntry) : AuditLedgerEntry :=
  { row with payload := defineProp row.payload tamperKey (.bool true) }

omit [Host] in
/-- The button on a copy of a row makes a copy of the row with the mark. -/
theorem tamperedRow_copy {row : AuditLedgerEntry} {raw : JsValue} (hpositive : 0 < row.sequence)
    (hpayload : IsJsonPayload row.payload) (hraw : isJsonData raw = true)
    (hsame : SameJson row.toJsValue raw) :
    IsJsonPayload row.tampered.payload ∧ isJsonData (tamperedRow raw) = true ∧
      SameJson row.tampered.toJsValue (tamperedRow raw) := by
  have hmark : ∀ {payload : List (JsString × JsValue)}, IsJsonPayload payload →
      IsJsonPayload (defineProp payload tamperKey (.bool true)) :=
    fun h => isJsonData_defineProp h (by decide) rfl
  cases raw with
  | object others =>
    obtain ⟨copy, hread, hcopied, hdata⟩ := (AuditLedgerEntry.readFrom_props hpayload).copy
      hpositive (AuditLedgerEntry.isJsonData_toJsValue hpayload) hraw hsame
    obtain ⟨payload, hfield, heq⟩ := hread.payload
    have hfieldData := isJsonData_propOf hraw (by rw [hfield]; exact JsValue.noConfusion)
    rw [hfield] at hfieldData
    rw [filter_protoKey hfieldData] at heq
    subst heq
    have hrow : tamperedRow (.object others) =
        .object (defineProp others (js "payload") (.object copy.tampered.payload)) := by
      simp [tamperedRow, JsValue.getProp, hfield, withField, AuditLedgerEntry.tampered]
    have htampered : isJsonData (tamperedRow (.object others)) = true := by
      rw [hrow]
      exact isJsonData_defineProp hraw (by decide) (hmark hdata)
    refine ⟨hmark hpayload, htampered, ?_⟩
    -- the payload is the only field that the button defines
    have hreadTampered : copy.tampered.ReadFrom
        (defineProp others (js "payload") (.object copy.tampered.payload)) := by
      have hkeys : ∀ p ∈ defineProp others (js "payload") (.object copy.tampered.payload),
          p.1 ∈ protoKey :: AuditLedgerEntry.keys := by
        intro p hp
        rcases mem_defineProp hp with rfl | hp
        · exact (by decide : js "payload" ∈ protoKey :: AuditLedgerEntry.keys)
        · exact hread.keys p hp
      constructor
      case keys => exact hkeys
      case payload =>
        exact ⟨_, by rw [propOf_defineProp, if_pos rfl]; rfl,
          (filter_protoKey (hmark hdata)).symm⟩
      all_goals rw [propOf_defineProp, if_neg (by decide)]
      · exact hread.eventId
      · exact hread.sequence
      · exact hread.runId
      · exact hread.operationId
      · exact hread.type
      · exact hread.actor
      · exact hread.subject
      · exact hread.policyVersion
      · exact hread.requestId
      · exact hread.occurredAt
      · exact hread.prevHash
      · exact hread.hash
    have hcopyTampered : row.tampered.CopiedAs copy.tampered := by
      refine ⟨?_, ?_⟩
      · unfold AuditLedgerEntry.tampered
        rw [hcopied.rest]
      · refine (sameJson_object_iff (hmark hpayload) (hmark hdata)).mpr fun key => ?_
        rw [propOf_defineProp, propOf_defineProp]
        split
        · exact .inr ⟨rfl, rfl⟩
        · exact hcopied.payload.propOf key
    rw [hrow] at htampered ⊢
    exact (AuditLedgerEntry.readFrom_props (hmark hpayload)).same hreadTampered hcopyTampered
      (AuditLedgerEntry.isJsonData_toJsValue (hmark hpayload)) htampered
  | _ => cases hsame.1

omit [Host] in
/-- The mark is not there before. -/
private theorem not_copiedAs_tampered {row marked : AuditLedgerEntry}
    (hkeys : AssocList.keys row.payload = [js "goal", js "raw"])
    (hmarked : row.tampered.CopiedAs marked) : ¬ row.CopiedAs marked := by
  intro hcopy
  have hundefined : propOf row.payload tamperKey = .undefined := by
    by_contra hdefined
    have hmem : tamperKey ∈ AssocList.keys row.payload :=
      List.mem_map_of_mem (f := Prod.fst) (mem_of_propOf rfl hdefined)
    rw [hkeys] at hmem
    revert hmem
    decide
  have hsame := (hcopy.payload.trans hmarked.payload.symm).propOf tamperKey
  rw [hundefined, AuditLedgerEntry.tampered, propOf_defineProp, if_pos rfl] at hsame
  rcases hsame with ⟨-, h⟩ | h
  · cases h
  · cases h.1

/-- Copies of rows the first of which is marked are refused at that row. -/
private theorem verifyPreview_marked (hdigest : DigestInjective) {row : AuditLedgerEntry}
    {rest copies : List AuditLedgerEntry} {raws : List JsValue}
    (hkeys : AssocList.keys row.payload = [js "goal", js "raw"])
    (hintact : verifyLoop 0 genesisHash (row :: rest) = .ok none)
    (hpayload : IsJsonPayload row.payload)
    (hcopies : raws.mapM AuditLedgerEntry.safeParse = some copies)
    (hcopied : Copied (row.tampered :: rest) copies) :
    verifyPreview (.array raws) = .ok (.checked (.broken .hashMismatch 1)) := by
  cases hcopied with
  | @cons _ marked _ copies hhead _ =>
    obtain ⟨hmarkedCopy, -, hmarkedPayload⟩ := hhead
    have hnot : ¬ row.CopiedAs marked := not_copiedAs_tampered hkeys hmarkedCopy
    have hhash : marked.hash = row.hash := by
      rw [hmarkedCopy.rest]
      rfl
    have hreason : editReason row marked = .hashMismatch := by
      rw [editReason, hmarkedCopy.rest]
      simp [AuditLedgerEntry.tampered]
    have hloop := verifyLoop_edited hdigest copies
      (show verifyLoop 0 genesisHash ([] ++ row :: rest) = .ok none from hintact) .nil hpayload
      hmarkedPayload hhash hnot
    rw [hreason, (verifyLoop_cons_eq_none.mp hintact).1, List.nil_append] at hloop
    rw [verifyPreview, Zod.array, hcopies]
    simp [verifyLedgerIntegrity, hloop, bind, Except.bind, Except.map]

namespace Server
variable {model : ModelAdapter} {events : List ServerEvent} {s : Server} {ref : RunRef}
  {run : RunRecord}

/-- The rows of a run are in order. -/
theorem rows_of_run (hrun : Transition.run (step model) {} events = some s)
    (hrecord : s.state.records ref = some run) :
    run.ledger.Intact ∧
      ∀ row ∈ run.ledger.entries, IsJsonPayload row.payload ∧ 0 < row.sequence := by
  have hbuilds := builds_record hrun hrecord
  have hintact : run.ledger.Intact := hbuilds.intact AuditLedger.intact_empty
  exact ⟨hintact, fun row hrow => ⟨hbuilds.payloads (fun _ h => by cases h) row hrow,
    sequence_pos_of_verifyLoop hintact row hrow⟩⟩

/-- A JSON copy of the ledger of a run is accepted, with all its rows, unless the schema
    takes exception to one of them. -/
theorem preview_copy (hrun : Transition.run (step model) {} events = some s)
    (hrecord : s.state.records ref = some run) {entries : JsValue}
    (hdata : isJsonData entries = true) (hsame : SameJson (.array run.ledger.list) entries) :
    ((∀ row ∈ run.ledger.entries, row.Readable) →
      verifyPreview entries = .ok (.checked (.ok run.ledger.entries.length))) ∧
    ((∃ row ∈ run.ledger.entries, ¬ row.Readable) →
      verifyPreview entries = .ok .invalidEntries) := by
  obtain ⟨hintact, hrows⟩ := rows_of_run hrun hrecord
  cases entries with
  | array raws =>
    have hsubmitted := submitted_of_sameJson hrows hdata (sameJson_array_iff.mp hsame)
    obtain ⟨hreads, hrejects⟩ := parse_submitted hsubmitted
    constructor
    · intro hreadable
      obtain ⟨copies, hcopies, hcopied⟩ := hreads hreadable
      have hloop := verifyLoop_copied hcopied hintact
      rw [verifyPreview, Zod.array, hcopies, ← hcopied.length_eq.symm]
      simp [verifyLedgerIntegrity, hloop, bind, Except.bind, Except.map]
    · intro hbad
      rw [verifyPreview, Zod.array, hrejects hbad]
  | _ => cases hsame.1

/-- In a submitted ledger the first row that is no copy but kept its hash is the one that is
    reported, with the first thing that is wrong about it. -/
theorem preview_edited (hdigest : DigestInjective)
    (hrun : Transition.run (step model) {} events = some s)
    (hrecord : s.state.records ref = some run) {kept later : List AuditLedgerEntry}
    {row : AuditLedgerEntry} (hledger : run.ledger.entries = kept ++ row :: later)
    {copies more : List JsValue} {raw : JsValue}
    (hdata : isJsonData (.array (copies ++ raw :: more)) = true)
    (hcopies : SameJson (.array (kept.map AuditLedgerEntry.toJsValue)) (.array copies))
    (hhash : raw.getProp (js "hash") = some (.string row.hash))
    (hchanged : ¬ SameJson row.toJsValue raw) :
    verifyPreview (.array (copies ++ raw :: more)) = .ok .invalidEntries ∨
      ∃ edited, AuditLedgerEntry.safeParse raw = some edited ∧
        verifyPreview (.array (copies ++ raw :: more)) =
          .ok (.checked (.broken (editReason row edited) row.sequence)) := by
  obtain ⟨hintact, hrows⟩ := rows_of_run hrun hrecord
  rw [AuditLedger.Intact, hledger] at hintact
  rw [hledger] at hrows
  have hitems := isJsonItems_iff.mp hdata
  have hraw : isJsonData raw = true := hitems raw (by simp)
  have hpayload := (hrows row (by simp)).1
  have hsubmitted : Submitted kept copies :=
    submitted_of_sameJson (fun row hrow => hrows row (List.mem_append_left _ hrow))
      (isJsonItems_iff.mpr fun item hitem => hitems item (List.mem_append_left _ hitem))
      (sameJson_array_iff.mp hcopies)
  rw [verifyPreview, Zod.array, List.mapM_append, List.mapM_cons]
  -- whatever does not parse is refused; so the rows in front are copies that parsed
  by_cases hreadable : ∀ row ∈ kept, row.Readable
  swap
  · left
    push Not at hreadable
    rw [(parse_submitted hsubmitted).2 hreadable]
    rfl
  obtain ⟨copied, hcopied, hkept⟩ := (parse_submitted hsubmitted).1 hreadable
  rw [hcopied]
  cases hparse : AuditLedgerEntry.safeParse raw with
  | none => exact .inl rfl
  | some edited =>
    cases hmore : more.mapM AuditLedgerEntry.safeParse with
    | none => exact .inl rfl
    | some others =>
      obtain ⟨props, hprops, hread, -⟩ := AuditLedgerEntry.safeParse_eq_some_iff.mp hparse
      have hedited := AuditLedgerEntry.isJsonData_payload hraw hparse
      have hsame : edited.hash = row.hash := by
        rw [hprops.getProp, hread.hash] at hhash
        exact JsValue.string.inj (Option.some.inj hhash)
      have hnot : ¬ row.CopiedAs edited := by
        intro hcopy
        cases hprops with
        | classInstance => cases hraw
        | object =>
          exact hchanged ((AuditLedgerEntry.readFrom_props hpayload).same hread hcopy
            (AuditLedgerEntry.isJsonData_toJsValue hpayload) hraw)
      have hloop := verifyLoop_edited hdigest others hintact hkept hpayload hedited
        hsame hnot
      refine .inr ⟨edited, rfl, ?_⟩
      simp [verifyLedgerIntegrity, hloop, bind, Except.bind, Except.map]

/-- The page's button, from the ledger it shows to the answer: the mark is always found, and
    in the first row, unless the schema takes exception to a row. -/
theorem tamperDemo_detected {urlPathname : JsString → Option JsString}
    (hurl : KeepsPlainPaths urlPathname) (hdigest : DigestInjective)
    (hrun : Transition.run (step model) {} events = some s)
    (hrecord : s.state.records ref = some run) {ledger : List JsValue}
    (hledger : isJsonData (.array ledger) = true)
    (hsame : SameJson (.array run.ledger.list) (.array ledger))
    (hexact : ∀ c, jsonData (.object [(js "entries", .array (tamperedCopy ledger))]) =
      .ok (some c) → c.ReadExactly) :
    ∃ call request received, runTamperDemo ledger = some call ∧ call.request = some request ∧
      (∀ chunks, [] ∉ chunks → chunks.flatten = request.bytes →
        serve urlPathname ⟨request.method, request.path, chunks⟩ =
          arrival request.bytes (.verifyLedgerPreview received)) ∧
      ((∀ row ∈ run.ledger.entries, row.Readable) →
        verifyPreview received = .ok (.checked (.broken .hashMismatch 1))) ∧
      ((∃ row ∈ run.ledger.entries, ¬ row.Readable) →
        verifyPreview received = .ok .invalidEntries) := by
  obtain ⟨hintact, hrows⟩ := rows_of_run hrun hrecord
  obtain ⟨row, rest, hentries, hkeys⟩ := startsWithProposal hrun hrecord
  have hsubmitted := submitted_of_sameJson hrows hledger (sameJson_array_iff.mp hsame)
  rw [hentries] at hsubmitted ⊢
  rw [AuditLedger.Intact, hentries] at hintact
  cases hsubmitted with
  | @cons _ first _ others hfirst hothers =>
    obtain ⟨hcopy, hpayload, hpositive, hraw⟩ := hfirst
    obtain ⟨hmarked, hdata, htampered⟩ := tamperedRow_copy hpositive hpayload hraw hcopy
    have hitems : isJsonItems (tamperedCopy (first :: others)) = true :=
      isJsonItems_cons.mpr ⟨hdata, (isJsonItems_cons.mp hledger).2⟩
    obtain ⟨request, received, hrequest, ⟨copy, rfl, hcopyData, hcopySame⟩, harrives⟩ :=
      arrives_preview hurl (show (ClientCall.verifyLedgerPreview
        (.array (tamperedCopy (first :: others)))).Sendable from ⟨hitems, hexact⟩)
    refine ⟨_, request, copy, rfl, hrequest, harrives, ?_⟩
    -- what arrives is a copy of the rows with the mark in the first one
    cases copy with
    | array raws =>
      have hmarkedRows : Submitted (row.tampered :: rest) (tamperedCopy (first :: others)) :=
        .cons ⟨htampered, hmarked, hpositive, hdata⟩ hothers
      obtain ⟨hreads, hrejects⟩ :=
        parse_submitted (hmarkedRows.trans (sameJson_array_iff.mp hcopySame) hcopyData)
      constructor
      · intro hreadable
        obtain ⟨hrow, hreadableRest⟩ := List.forall_mem_cons.mp hreadable
        obtain ⟨copies, hcopies, hcopied⟩ :=
          hreads (List.forall_mem_cons.mpr ⟨hrow.withPayload _, hreadableRest⟩)
        exact verifyPreview_marked hdigest hkeys hintact hpayload hcopies hcopied
      · rintro ⟨bad, hbad, hunreadable⟩
        -- the mark makes no row readable
        have hmarkedBad : ∃ row' ∈ row.tampered :: rest, ¬ row'.Readable := by
          rcases List.mem_cons.mp hbad with rfl | hbad
          · exact ⟨_, List.mem_cons_self, fun h => hunreadable (h.withPayload bad.payload)⟩
          · exact ⟨bad, List.mem_cons_of_mem _ hbad, hunreadable⟩
        rw [verifyPreview, Zod.array, hrejects hmarkedBad]
    | _ => cases hcopySame.1

end Server

end

/-! ## A proposed message -/

instance [Host] (row : AuditLedgerEntry) : Decidable row.Readable :=
  decidable_of_iff
    (row.eventId ≠ [] ∧ (0 < row.sequence ∧ row.sequence ≤ 2 ^ 53 - 1) ∧ row.runId ≠ some [] ∧
      row.operationId ≠ some [] ∧ row.actor.id ≠ [] ∧ row.subject.id ≠ [] ∧
      row.policyVersion ≠ some [] ∧ row.requestId ≠ some [] ∧
      Host.isoDatetime row.occurredAt = true ∧ row.prevHash ≠ [] ∧ row.hash ≠ [])
    ⟨fun ⟨h1, h2, h3, h4, h5, h6, h7, h8, h9, h10, h11⟩ =>
        ⟨h1, h2, h3, h4, h5, h6, h7, h8, h9, h10, h11⟩,
      fun h => ⟨h.1, h.2, h.3, h.4, h.5, h.6, h.7, h.8, h.9, h.10, h.11⟩⟩

namespace Sample

/-- A message that waits for its approval. -/
def proposedMessage : List ServerEvent := [.request (.createRun (js "approval") createDraw)]

/-- The run of it. -/
def proposedRun [Host] : Option RunRecord :=
  (Transition.run (Server.step FakeModelAdapter.propose) {} proposedMessage).bind
    fun s => s.state.records 0

/-- The texts that are hashed in it: the plan, as a digest that does nothing shows it, and
    the rows. -/
def proposedTexts : List JsString :=
  ((@proposedRun { node with sha256Digest := id }).toList.map fun run => run.proposalHash.drop 7) ++
    (@proposedRun node).toList.flatMap fun run => run.ledger.list.filterMap fun row =>
      (canonicalize (Untyped.withoutHash row)).toOption.map stringify

/-- Node, with SHA-256 on these texts. -/
@[reducible] def messageNode : Host := pinnedNode proposedTexts

section
attribute [local instance] messageNode

private theorem messageNode_injective : DigestInjective := by
  have hdigests : (proposedTexts.map sha256).Nodup ∧
      ∀ digest ∈ proposedTexts.map sha256, digest.head? ≠ some 0x78 := by
    decide +kernel
  exact pinnedNode_injective hdigests.1 fun text htext =>
    hdigests.2 _ (List.mem_map_of_mem htext)

/-- A row that claims to be a day younger. -/
def postdated (row : JsValue) : JsValue :=
  withField row (js "occurredAt") (.string (js "2026-08-23T09:00:00.000Z"))

private theorem proposedMessage_rows :
    ∃ s run first second, Transition.run (Server.step FakeModelAdapter.propose) {} proposedMessage =
      some s ∧ s.state.records 0 = some run ∧ run.ledger.entries = [first, second] ∧
      (∀ row ∈ [first, second], row.Readable) ∧
      second.occurredAt ≠ js "2026-08-23T09:00:00.000Z" ∧
      (AuditLedgerEntry.safeParse first.toJsValue).isSome ∧
      (AuditLedgerEntry.safeParse (postdated second.toJsValue)).isSome := by
  have hfacts : ∃ s ∈ Transition.run (Server.step FakeModelAdapter.propose) {} proposedMessage,
      ∃ run ∈ s.state.records 0, run.ledger.entries.length = 2 ∧ ∀ row ∈ run.ledger.entries,
        row.Readable ∧ row.occurredAt ≠ js "2026-08-23T09:00:00.000Z" ∧
          (AuditLedgerEntry.safeParse row.toJsValue).isSome ∧
          (AuditLedgerEntry.safeParse (postdated row.toJsValue)).isSome := by
    decide +kernel
  obtain ⟨s, hs, run, hrecord, hlength, hrows⟩ := hfacts
  obtain ⟨first, second, hentries⟩ := List.length_eq_two.mp hlength
  rw [hentries] at hrows
  obtain ⟨-, hlater, -, hpostdated⟩ := hrows second (by simp)
  exact ⟨s, run, first, second, hs, hrecord, hentries, fun row hrow => (hrows row hrow).1, hlater,
    (hrows first (by simp)).2.2.1, hpostdated⟩

/-- What a run lists is JSON data, the same as itself. -/
private theorem list_same {events : List ServerEvent} {s : Server} {ref : RunRef} {run : RunRecord}
    (hs : Transition.run (Server.step FakeModelAdapter.propose) {} events = some s)
    (hrecord : s.state.records ref = some run) :
    isJsonData (.array run.ledger.list) = true ∧
      SameJson (.array run.ledger.list) (.array run.ledger.list) := by
  have hdata : isJsonData (.array run.ledger.list) = true :=
    isJsonItems_iff.mpr fun item hitem => by
      obtain ⟨row, hrow, rfl⟩ := List.mem_map.mp hitem
      exact AuditLedgerEntry.isJsonData_toJsValue ((Server.rows_of_run hs hrecord).2 row hrow).1
  exact ⟨hdata, SameJson.of_sameJson hdata hdata (sameJson_refl hdata)⟩

/-- The rows as they are listed. -/
theorem proposedMessage_copy :
    ∃ s run, Transition.run (Server.step FakeModelAdapter.propose) {} proposedMessage = some s ∧
      s.state.records 0 = some run ∧
      verifyPreview (.array run.ledger.list) = .ok (.checked (.ok 2)) := by
  obtain ⟨s, run, first, second, hs, hrecord, hentries, hreadable, -⟩ := proposedMessage_rows
  obtain ⟨hdata, hsame⟩ := list_same hs hrecord
  have hcopy := (Server.preview_copy hs hrecord hdata hsame).1 (hentries ▸ hreadable)
  rw [hentries] at hcopy
  exact ⟨s, run, hs, hrecord, hcopy⟩

/-- The second row with another date. -/
theorem proposedMessage_postdated :
    ∃ s run first second reason,
      Transition.run (Server.step FakeModelAdapter.propose) {} proposedMessage = some s ∧
      s.state.records 0 = some run ∧ run.ledger.list = [first, second] ∧
      verifyPreview (.array [first, postdated second]) = .ok (.checked (.broken reason 2)) := by
  obtain ⟨s, run, first, second, hs, hrecord, hentries, -, hlater, hfirst, hsecond⟩ :=
    proposedMessage_rows
  obtain ⟨hintact, hrows⟩ := Server.rows_of_run hs hrecord
  rw [hentries] at hrows
  have hfirstData := AuditLedgerEntry.isJsonData_toJsValue (hrows first (by simp)).1
  have hsecondData := AuditLedgerEntry.isJsonData_toJsValue (hrows second (by simp)).1
  have hpostdated : isJsonData (postdated second.toJsValue) = true :=
    isJsonData_defineProp hsecondData (by decide) rfl
  have hhash : (postdated second.toJsValue).getProp (js "hash") = some (.string second.hash) := by
    rw [← second.getProp_toJsValue.2.2]
    show some (propOf (defineProp second.props _ _) _) = some (propOf second.props _)
    rw [propOf_defineProp, if_neg (by decide)]
  have hchanged : ¬ SameJson second.toJsValue (postdated second.toJsValue) := by
    intro hsame
    have hfield := hsame.propOf (js "occurredAt")
    rw [propOf_defineProp, if_pos rfl] at hfield
    rcases hfield with ⟨-, h⟩ | h
    · cases h
    · exact hlater (of_decide_eq_true h.1)
  have hcopies : isJsonData (.array [first.toJsValue]) = true :=
    isJsonItems_iff.mpr (by simp [hfirstData])
  have hdata : isJsonData (.array ([first.toJsValue] ++ [postdated second.toJsValue])) = true :=
    isJsonItems_iff.mpr (by simp [hfirstData, hpostdated])
  have hedited := Server.preview_edited messageNode_injective hs hrecord
    (show run.ledger.entries = [first] ++ [second] from hentries) hdata
    (.of_sameJson hcopies hcopies (sameJson_refl hcopies)) hhash hchanged
  -- both rows pass the schema
  obtain ⟨row, hrow⟩ := Option.isSome_iff_exists.mp hfirst
  obtain ⟨row', hrow'⟩ := Option.isSome_iff_exists.mp hsecond
  rcases hedited with hinvalid | ⟨edited, -, hbroken⟩
  · simp only [verifyPreview, Zod.array, List.cons_append, List.nil_append, List.mapM_cons, hrow,
      hrow', List.mapM_nil, pure, bind, Option.bind] at hinvalid
    cases hverdict : verifyLedgerIntegrity [row, row'] with
    | error e => rw [hverdict] at hinvalid; cases hinvalid
    | ok result => rw [hverdict] at hinvalid; cases hinvalid
  · have hsequence : second.sequence = 2 := by
      rw [AuditLedger.Intact, hentries] at hintact
      exact (verifyLoop_cons_eq_none.mp (verifyLoop_cons_eq_none.mp hintact).2.2.2).1
    rw [hsequence] at hbroken
    exact ⟨s, run, first.toJsValue, second.toJsValue, editReason second edited, hs, hrecord,
      by rw [AuditLedger.list, hentries]; rfl, hbroken⟩

/-- The button on the rows as they are listed. -/
theorem proposedMessage_tampered :
    ∃ s run call request received,
      Transition.run (Server.step FakeModelAdapter.propose) {} proposedMessage = some s ∧
      s.state.records 0 = some run ∧ runTamperDemo run.ledger.list = some call ∧
      call.request = some request ∧
      (∀ chunks, [] ∉ chunks → chunks.flatten = request.bytes →
        serve some ⟨request.method, request.path, chunks⟩ =
          arrival request.bytes (.verifyLedgerPreview received)) ∧
      verifyPreview received = .ok (.checked (.broken .hashMismatch 1)) := by
  obtain ⟨s, run, first, second, hs, hrecord, hentries, hreadable, -⟩ := proposedMessage_rows
  obtain ⟨hdata, hsame⟩ := list_same hs hrecord
  obtain ⟨call, request, received, hcall, hrequest, harrives, hanswer, -⟩ :=
    Server.tamperDemo_detected (show KeepsPlainPaths some from fun _ _ => rfl)
      messageNode_injective hs hrecord hdata hsame fun c _ => c.readExactly_pinnedNode proposedTexts
  exact ⟨s, run, call, request, received, hs, hrecord, hcall, hrequest, harrives,
    hanswer (hentries ▸ hreadable)⟩

end

end Sample

end ActionHarbor
