import ActionHarbor.Model.Ledger

/-!
# Ledger rows as untyped objects

`verifyLedgerIntegrity` is a pure function over whatever array it is handed, and
that array may come from storage. Here the checker runs on rows as the JavaScript
objects they are: it reads three properties and hashes the rest of the object.
`AuditLedger.append` is stated as the call it is, one that can throw midway.

## Key definitions

- `AuditLedgerEntry.toJsValue`, `AuditLedger.list`: the rows a ledger hands out
- `Untyped.verifyLedgerIntegrity`: the checker on an array of any values
- `AuditLedger.appendCall`, `AuditLedger.appendCalls`: appends that may throw
-/

namespace ActionHarbor

/-! ## Rows -/

/-- The fields of a row without its hash, in the order `buildLedgerEntry` writes them. -/
def AuditEntryBody.toProps (e : AuditEntryBody) : List (JsString × JsValue) :=
  match e.toJsValue with
  | .object props => props
  | _ => []

/-- `{ ...entryWithoutHash, hash }`. -/
def AuditLedgerEntry.toJsValue (e : AuditLedgerEntry) : JsValue :=
  .object (e.toAuditEntryBody.toProps ++ [(js "hash", .string e.hash)])

/-- `list()`: the rows in order. -/
def AuditLedger.list (ledger : AuditLedger) : List JsValue :=
  ledger.entries.map AuditLedgerEntry.toJsValue

/-! ## The checker -/

namespace Untyped

/-- The `TypeError`s of the checker. -/
inductive RowError where
  /-- a property is read of `null` or `undefined` -/
  | nullish
  | unhashable (error : CanonicalizeError)
deriving DecidableEq, Repr

/-- `value === n` for a natural `n`. -/
def isNat (value : JsValue) (n : Nat) : Bool :=
  match value with
  | .number m => m.strictEq (.ofNat n)
  | _ => false

/-- `const { hash, ...withoutHash } = entry`: a plain object of the other own
    properties. The checker gets here only with an object. -/
def withoutHash : JsValue → JsValue
  | .object props | .classInstance _ props => .object (props.filter fun p => p.1 ≠ js "hash")
  | value => value

section
variable [Host]

/-- `computeEntryHash(withoutHash)`. -/
def computeEntryHash (entryWithoutHash : JsValue) : Except RowError JsString :=
  (hashCanonical entryWithoutHash).mapError .unhashable

/-- The checking loop, as `ActionHarbor.verifyLoop` on rows of any shape. -/
def verifyLoop (index : Nat) (prevHash : JsString) :
    List JsValue → Except RowError (Option LedgerIntegrityResult)
  | [] => .ok none
  | entry :: rest =>
    match entry.getProp (js "sequence"), entry.getProp (js "prevHash"),
        entry.getProp (js "hash") with
    | some sequence, some pointer, some hash =>
      if !isNat sequence (index + 1) then .ok (some (.broken .sequenceGap (index + 1)))
      else if !pointer.isString prevHash then
        .ok (some (.broken .prevHashMismatch (index + 1)))
      else do
        let recomputed ← computeEntryHash (withoutHash entry)
        if !hash.isString recomputed then .ok (some (.broken .hashMismatch (index + 1)))
        else verifyLoop (index + 1) recomputed rest
    | _, _, _ => .error .nullish

/-- `verifyLedgerIntegrity(entries, expectedSequenceCount)`. -/
def verifyLedgerIntegrity (entries : List JsValue) (expectedSequenceCount : Option Nat := none) :
    Except RowError LedgerIntegrityResult := do
  match ← verifyLoop 0 genesisHash entries with
  | some result => .ok result
  | none =>
    match expectedSequenceCount with
    | some expected =>
      if entries.length ≠ expected then .ok (.broken .chainLengthMismatch expected)
      else .ok (.ok entries.length)
    | none => .ok (.ok entries.length)

end

end Untyped

/-! ## Appends that may throw -/

section
variable [Host]

/-- `append` as a call on the live ledger. What `buildLedgerEntry` throws leaves
    through the call, before the row is pushed. -/
def AuditLedger.appendCall (input : AuditEventInput) (stamp : Stamp) :
    ExceptT CanonicalizeError (StateM AuditLedger) AuditLedgerEntry := do
  let ledger ← get
  let sequence := ledger.entries.length + 1
  let prevHash := ledger.lastHash
  let entry ← ExceptT.mk (pure (buildLedgerEntry input sequence prevHash stamp))
  set (AuditLedger.mk (ledger.entries ++ [entry]))
  return entry

/-- One call after another on a ledger: their outcomes and the ledger behind them. -/
def AuditLedger.appendCalls : List (AuditEventInput × Stamp) → AuditLedger →
    List (Except CanonicalizeError AuditLedgerEntry) × AuditLedger
  | [], ledger => ([], ledger)
  | (input, stamp) :: rest, ledger =>
    let call := (appendCall input stamp).run.run ledger
    let others := appendCalls rest call.2
    (call.1 :: others.1, others.2)

end

end ActionHarbor
