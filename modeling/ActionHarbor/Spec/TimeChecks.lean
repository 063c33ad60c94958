import ActionHarbor.Model.Adapters
import ActionHarbor.Model.Domain
import ActionHarbor.Spec.MintSoundness
import Mathlib.Algebra.Order.Field.Rat
import Mathlib.Tactic.Positivity

/-!
# Time checks

Four packages compare a timestamp with the clock: `checkApproval`,
`validateCapability`, `assertCapabilityActive` and the intent expiry of
`evaluateUnsafe`. The capability checks ask whether the timestamp parses, the
other two compare with whatever `getTime()` gave.

## Key results

- `JsNumber.ltInt_iff`: the comparison of a finite number is the one of its value
- `validateCapability_failsClosed`, `assertCapabilityActive_failsClosed`
- `failsClosed_iff`: all four fail closed on exactly the timestamps that parse
-/

namespace ActionHarbor

/-! ## Numbers as rationals -/

/-- The rational a decimal stands for. -/
def Decimal.value (d : Decimal) : ℚ := d.digits * (10 : ℚ) ^ d.exponent

/-- The rational a finite number stands for; `NaN` and the infinities have none. -/
def JsNumber.value : JsNumber → Option ℚ
  | .finite negative d => some (if negative then -d.value else d.value)
  | _ => none

/-- Scaling an integer up by a negative exponent compares like the fraction. -/
theorem mul_zpow_lt_iff (digits i e : Int) :
    ((digits : ℚ) * (10 : ℚ) ^ e < i) ↔
      if 0 ≤ e then digits * 10 ^ e.toNat < i else digits < i * 10 ^ (-e).toNat := by
  split
  · rename_i he
    have hpow : (10 : ℚ) ^ e = 10 ^ e.toNat := by
      rw [← zpow_natCast, Int.toNat_of_nonneg he]
    rw [hpow]
    exact_mod_cast Iff.rfl
  · rename_i he
    have hpow : (10 : ℚ) ^ e = (10 ^ (-e).toNat)⁻¹ := by
      rw [← zpow_natCast, Int.toNat_of_nonneg (by omega), zpow_neg, inv_inv]
    rw [hpow, ← div_eq_mul_inv, div_lt_iff₀ (by positivity)]
    exact_mod_cast Iff.rfl

/-- On a finite number `ltInt` is the order of the rationals. -/
theorem JsNumber.ltInt_iff {n : JsNumber} {value : ℚ} (hn : n.value = some value) (i : Int) :
    n.ltInt i = true ↔ value < i := by
  cases n with
  | nan => cases hn
  | infinity negative => cases hn
  | finite negative d =>
    obtain rfl : (if negative then -d.value else d.value) = value := Option.some.inj hn
    have hvalue : (if negative then -d.value else d.value) =
        ((if negative then -(d.digits : Int) else d.digits : Int) : ℚ) * (10 : ℚ) ^ d.exponent := by
      cases negative <;> simp [Decimal.value]
    rw [hvalue, mul_zpow_lt_iff]
    simp only [JsNumber.ltInt]
    split <;> simp

/-! ## Rounded differences -/

/-- Below `2 ^ 53` every integer is a double. -/
theorem roundToDouble_of_lt {i : Int} (h : i.natAbs < 2 ^ 53) : roundToDouble i = i := by
  rw [roundToDouble, Nat.roundBits_of_lt (by decide) h, Int.sign_mul_natAbs]

/-- Beyond, an integer is not rounded back. -/
theorem le_roundToDouble {i : Int} (h : 2 ^ 53 ≤ i) : 2 ^ 53 ≤ roundToDouble i := by
  have hlarge : 2 ^ 53 ≤ Nat.roundBits 53 i.natAbs := Nat.le_roundBits (by decide) (by omega)
  rw [roundToDouble, Int.sign_eq_one_of_pos (by omega), one_mul]
  exact_mod_cast hlarge

/-- What is within a bound of less than `2 ^ 53` was within it before it was rounded. -/
theorem le_of_roundToDouble_le {i : Int} {bound : ℚ} (hbound : |bound| < 2 ^ 53)
    (h : (roundToDouble i : ℚ) ≤ bound) : (i : ℚ) ≤ bound := by
  obtain ⟨hlower, hupper⟩ := abs_lt.1 hbound
  rcases lt_or_ge i (2 ^ 53) with hless | hmore
  · rcases lt_or_ge (-2 ^ 53) i with hsmall | hbelow
    · -- the integer is a double
      rwa [roundToDouble_of_lt (by omega)] at h
    · have hcast : (i : ℚ) ≤ -2 ^ 53 := by exact_mod_cast hbelow
      exact hcast.trans hlower.le
  · have hcast : (2 ^ 53 : ℚ) ≤ (roundToDouble i : ℚ) := by exact_mod_cast le_roundToDouble hmore
    exact absurd (hcast.trans h) (not_le.2 hupper)

/-- An age of `2 ^ 53 + 1` is rounded to even. -/
example : Instant.minus 8640000000000000 (-367199254740993) = 2 ^ 53 := by decide

/-! ## What a check may accept -/

section
variable [Host]

/-- The timestamp parses to an instant that is still to come. -/
def ExpiresAfter (t : JsString) (now : Instant) : Prop :=
  ∃ expiresAt, Host.dateParse t = some expiresAt ∧ now < expiresAt

/-- The timestamp parses to an instant that is at most `ttlMs` ago. The age is a difference
    of doubles; against a bound of less than `2 ^ 53` it is as good as exact. -/
structure CreatedWithin (t : JsString) (now : Instant) (ttlMs : ℚ) : Prop where
  rounded : ∃ createdAt, Host.dateParse t = some createdAt ∧ (now.minus createdAt : ℚ) ≤ ttlMs
  exact : |ttlMs| < 2 ^ 53 →
    ∃ createdAt, Host.dateParse t = some createdAt ∧ ((now - createdAt : Int) : ℚ) ≤ ttlMs

/-- No time check accepts the timestamp unless it parses to an instant within the bound. -/
structure FailsClosed (t : JsString) (now : Instant) : Prop where
  checkApproval : ∀ approval request, approval.expiresAt = t →
    checkApproval approval request now = .ok () → ExpiresAfter t now
  consumeApproval : ∀ approval request consumed, approval.expiresAt = t →
    consumeApproval approval request now = .ok consumed → ExpiresAfter t now
  validateCapability : ∀ capability request, capability.expiresAt = t →
    validateCapability capability request now = .ok () → ExpiresAfter t now
  assertCapabilityActive : ∀ capability, capability.expiresAt = t →
    assertCapabilityActive capability now = .ok () → ExpiresAfter t now
  evaluatePolicy : ∀ input ttl ttlMs, input.environment.now = now →
    input.environment.intentCreatedAt = some t → input.environment.intentTtlMs = some ttl →
    ttl.value = some ttlMs → (evaluatePolicy input).outcome ≠ .deny → CreatedWithin t now ttlMs

/-! ## The capability checks -/

/-- An expiry that is not expired parses. -/
theorem isExpired_eq_false_iff {t : JsString} {now : Instant} :
    isExpired t now = false ↔ ExpiresAfter t now := by
  unfold isExpired ExpiresAfter
  cases Host.dateParse t with
  | none => simp
  | some expiresAt => simp

/-- `validateCapability` accepts only an expiry that parses and is still to come. -/
theorem validateCapability_failsClosed {capability : Capability} {request : CapabilityRequest}
    {now : Instant} (h : validateCapability capability request now = .ok ()) :
    ExpiresAfter capability.expiresAt now := by
  unfold validateCapability at h
  split at h
  · cases h
  split at h
  · cases h
  rename_i hexpired
  exact isExpired_eq_false_iff.1 (by simpa using hexpired)

/-- So does the adapters' own check. -/
theorem assertCapabilityActive_failsClosed {capability : Capability} {now : Instant}
    (h : assertCapabilityActive capability now = .ok ()) :
    ExpiresAfter capability.expiresAt now := by
  unfold assertCapabilityActive at h
  split at h
  · cases h
  split at h
  · cases h
  rename_i hexpired
  exact isExpired_eq_false_iff.1 (by simpa using hexpired)

/-! ## Approvals -/

/-- What an accepted approval has passed. Its expiry is only known not to parse
    to an instant that has come. -/
theorem checkApproval_eq_ok_iff {approval : Approval} {request : ApprovalRequest}
    {now : Instant} :
    checkApproval approval request now = .ok () ↔
      approval.status = .active ∧
        (∀ expiresAt, Host.dateParse approval.expiresAt = some expiresAt → now < expiresAt) ∧
        approval.proposalHash = request.proposalHash ∧
        approval.scope.actionType = request.actionType ∧
        approval.scope.resourceId = request.resourceId := by
  unfold checkApproval
  cases approval.status with
  | consumed => simp
  | invalidated => simp
  | active =>
    cases Host.dateParse approval.expiresAt with
    | none => simp; grind
    | some expiresAt =>
      by_cases hexpired : expiresAt ≤ now
      · simp [hexpired, not_lt.2 hexpired]
      · simp [hexpired, not_le.1 hexpired]; grind

/-- Consuming an approval passes the same check. -/
theorem checkApproval_of_consumeApproval {approval consumed : Approval}
    {request : ApprovalRequest} {now : Instant}
    (h : consumeApproval approval request now = .ok consumed) :
    checkApproval approval request now = .ok () := by
  unfold consumeApproval at h
  cases hcheck : checkApproval approval request now with
  | error reason => rw [hcheck] at h; cases h
  | ok _ => rfl

/-- With an expiry that parses, an accepted approval is unexpired. -/
theorem expiresAfter_of_checkApproval {approval : Approval} {request : ApprovalRequest}
    {now : Instant} (hparses : (Host.dateParse approval.expiresAt).isSome = true)
    (h : checkApproval approval request now = .ok ()) :
    ExpiresAfter approval.expiresAt now := by
  obtain ⟨expiresAt, hparse⟩ := Option.isSome_iff_exists.1 hparses
  exact ⟨expiresAt, hparse, (checkApproval_eq_ok_iff.1 h).2.1 expiresAt hparse⟩

/-! ## Policy -/

/-- Past its age bound an intent is denied, if nothing throws before. -/
theorem evaluateRecognized_of_intentExpired {principal : Principal} {actionType : ActionType}
    {input : PolicyInput} {verdict : PolicyVerdict}
    (hexpired : intentExpired input.environment = true)
    (h : evaluateRecognized principal actionType input = .ok verdict) :
    verdict.outcome = .deny := by
  unfold evaluateRecognized at h
  split at h
  · cases h
  split at h
  · cases h
    rfl
  -- `split` has decided the intent expiry with `hexpired`
  cases h
  rfl

/-- A verdict other than `DENY` is only reached past the intent expiry. -/
theorem intentExpired_of_outcome {input : PolicyInput}
    (h : (evaluatePolicy input).outcome ≠ .deny) : intentExpired input.environment = false := by
  obtain ⟨principal, actionType, -, -, -, hverdict⟩ := evaluateRecognized_of_outcome h
  by_contra hexpired
  rw [Bool.not_eq_false] at hexpired
  exact h (evaluateRecognized_of_intentExpired hexpired hverdict)

/-- With a `createdAt` that parses, a verdict other than `DENY` is in time. -/
theorem createdWithin_of_outcome {input : PolicyInput} {t : JsString} {ttl : JsNumber} {ttlMs : ℚ}
    (hparses : (Host.dateParse t).isSome = true)
    (hcreatedAt : input.environment.intentCreatedAt = some t)
    (httl : input.environment.intentTtlMs = some ttl) (hvalue : ttl.value = some ttlMs)
    (h : (evaluatePolicy input).outcome ≠ .deny) :
    CreatedWithin t input.environment.now ttlMs := by
  obtain ⟨createdAt, hparse⟩ := Option.isSome_iff_exists.1 hparses
  have hintime := intentExpired_of_outcome h
  simp only [intentExpired, httl, hcreatedAt, hparse] at hintime
  have hrounded : (input.environment.now.minus createdAt : ℚ) ≤ ttlMs := by
    refine not_lt.1 fun hlate => ?_
    rw [(JsNumber.ltInt_iff hvalue _).2 hlate] at hintime
    cases hintime
  exact {
    rounded := ⟨createdAt, hparse, hrounded⟩
    exact := fun hbound => ⟨createdAt, hparse, le_of_roundToDouble_le hbound hrounded⟩ }

/-! ## All four together -/

/-- An active approval of a plan with the given expiry. -/
def approvalExpiringAt (t : JsString) : Approval where
  id := js "apr_000001"
  proposalHash := js "sha256:plan"
  approverId := js "user-1"
  scope := ⟨.issueRefund, js "order-1"⟩
  policyVersion := currentPolicyVersion
  expiresAt := t
  approvedAt := js "2026-08-22T09:00:00.000Z"
  status := .active

/-- The request that approval is for. -/
def approvedRequest : ApprovalRequest := ⟨js "sha256:plan", .issueRefund, js "order-1"⟩

/-- An expiry that does not parse is no expiry to `checkApproval`. -/
theorem checkApproval_of_unparseable {t : JsString} (hparse : Host.dateParse t = none)
    (now : Instant) : checkApproval (approvalExpiringAt t) approvedRequest now = .ok () := by
  refine checkApproval_eq_ok_iff.2 ⟨rfl, ?_, rfl, rfl, rfl⟩
  intro expiresAt hexpiresAt
  rw [show (approvalExpiringAt t).expiresAt = t from rfl, hparse] at hexpiresAt
  cases hexpiresAt

/-- The time checks fail closed on exactly the timestamps that parse: the approval
    and policy comparisons accept every other one. -/
theorem failsClosed_iff (t : JsString) (now : Instant) :
    FailsClosed t now ↔ (Host.dateParse t).isSome = true := by
  constructor
  · intro h
    cases hparse : Host.dateParse t with
    | some expiresAt => rfl
    | none =>
      -- an active approval with this expiry is accepted at any time
      obtain ⟨expiresAt, hexpiresAt, -⟩ :=
        h.checkApproval _ _ rfl (checkApproval_of_unparseable hparse now)
      rw [hparse] at hexpiresAt
      cases hexpiresAt
  · intro hparses
    constructor
    case checkApproval =>
      intro approval request ht hcheck
      subst ht
      exact expiresAfter_of_checkApproval hparses hcheck
    case consumeApproval =>
      intro approval request consumed ht hconsume
      subst ht
      exact expiresAfter_of_checkApproval hparses (checkApproval_of_consumeApproval hconsume)
    case validateCapability =>
      intro capability request ht hcheck
      subst ht
      exact validateCapability_failsClosed hcheck
    case assertCapabilityActive =>
      intro capability ht hcheck
      subst ht
      exact assertCapabilityActive_failsClosed hcheck
    case evaluatePolicy =>
      intro input ttl ttlMs hnow hcreatedAt httl hvalue houtcome
      subst hnow
      exact createdWithin_of_outcome hparses hcreatedAt httl hvalue houtcome

end

/-! ## A timestamp that does not parse -/

namespace Sample

attribute [local instance] node

/-- A ticket request of the owner, with an age bound of zero. -/
def agedInput (createdAt : JsString) : PolicyInput where
  principal := some ⟨js "user-1", js "operator", js "t1"⟩
  actionType := js "create_internal_ticket"
  resource := ⟨js "workspace-1", js "user-1", js "t1", js "active"⟩
  evidenceRefs := []
  environment :=
    { now := 0
      knownEvidenceIds := []
      intentTtlMs := some (.ofNat 0)
      intentCreatedAt := some createdAt }

/-- Node reads no instant in `soon`; an approval with that expiry passes
    `checkApproval` and `consumeApproval`, and an intent created then is allowed. -/
theorem soon_accepted :
    ¬ FailsClosed (js "soon") 0 ∧
      (checkApproval (approvalExpiringAt (js "soon")) approvedRequest 0).isOk = true ∧
      (consumeApproval (approvalExpiringAt (js "soon")) approvedRequest 0).isOk = true ∧
      (evaluatePolicy (agedInput (js "soon"))).outcome = .allow := by
  have hparse : Host.dateParse (js "soon") = none := by decide
  refine ⟨?_, by decide, by decide, by decide⟩
  intro h
  obtain ⟨expiresAt, hexpiresAt, -⟩ :=
    h.checkApproval _ _ rfl (checkApproval_of_unparseable hparse 0)
  rw [hparse] at hexpiresAt
  cases hexpiresAt

end Sample

end ActionHarbor
