import ActionHarbor.Model.Ledger
import ActionHarbor.Model.Node

/-!
# Redaction

What `redactPayload` leaves at each path of a payload. A string is judged by its
own shape and by its nearest enclosing key. An array hands the key on to its
elements; an object starts over with its own keys.

## Key results

- `reach_redactValue`: a redacted value path by path
- `redactPayload_hides_iff`: which strings under a secret key or of a secret shape are hidden
- `redactPayload_touches_strings`: one pass is enough, and changes no more than strings
-/

namespace ActionHarbor

/-! ## Paths -/

/-- One step down a value: an object key or an array index. -/
inductive PathStep where
  | key (name : JsString)
  | index (i : Nat)
deriving DecidableEq, Repr

/-- The value one step down. -/
def JsValue.child (value : JsValue) : PathStep → Option JsValue
  | .key name =>
    match value with
    | .object props | .classInstance _ props => props.lookup name
    | _ => none
  | .index i =>
    match value with
    | .array items => items[i]?
    | _ => none

/-- The value at the end of a path. -/
def JsValue.reach (value : JsValue) : List PathStep → Option JsValue
  | [] => some value
  | step :: rest => (value.child step).bind fun inner => inner.reach rest

/-- The object keys on a path, outermost first. -/
def pathKeys : List PathStep → List JsString
  | [] => []
  | .key name :: rest => name :: pathKeys rest
  | .index _ :: rest => pathKeys rest

/-! ## A redacted value, path by path -/

/-- What redaction makes of one string. -/
theorem redactValue_string (key s : JsString) :
    redactValue key (.string s) =
      .string (if isSecretKey key || isSecretShapedValue s then redacted else s) := by
  unfold redactValue
  split <;> rfl

/-- A redacted payload has its properties redacted under their own keys; `__proto__`
    is lost. -/
theorem lookup_redactPayload (props : List (JsString × JsValue)) (name : JsString) :
    (redactPayload props).lookup name =
      if name = protoKey then none else (props.lookup name).map (redactValue name) := by
  induction props with
  | nil => simp [redactPayload]
  | cons prop rest ih =>
    obtain ⟨key, value⟩ := prop
    have hother : name ≠ key → ((key, value) :: rest).lookup name = rest.lookup name := by
      intro hname
      simp [List.lookup_cons, beq_eq_false_iff_ne.2 hname]
    rw [redactPayload]
    by_cases hproto : key = protoKey
    · rw [if_pos hproto, ih]
      -- the field is dropped, and its name is looked up in vain
      by_cases hname : name = protoKey
      · simp [hname]
      · rw [hother (by rwa [hproto])]
    · rw [if_neg hproto]
      by_cases hname : name = key
      · subst hname
        simp [hproto]
      · rw [hother hname, ← ih]
        simp [List.lookup_cons, beq_eq_false_iff_ne.2 hname]

/-- The elements of a redacted array. -/
theorem getElem?_redactItems (key : JsString) (items : List JsValue) (i : Nat) :
    (redactItems key items)[i]? = items[i]?.map (redactValue key) := by
  induction items generalizing i with
  | nil => simp [redactItems]
  | cons item rest ih =>
    cases i with
    | zero => simp [redactItems]
    | succ i => simp [redactItems, ih]

/-- One key down, the value is redacted under that key. -/
theorem child_key_redactValue (key name : JsString) (value : JsValue) :
    (redactValue key value).child (.key name) =
      if name = protoKey then none else (value.child (.key name)).map (redactValue name) := by
  cases value with
  | object props | classInstance className props =>
    simp only [redactValue, JsValue.child]
    exact lookup_redactPayload props name
  | string s => simp [redactValue_string, JsValue.child]
  | array items => simp [redactValue, JsValue.child]
  | _ => simp [redactValue, JsValue.child]

/-- One index down, it is redacted under the key of the array. -/
theorem child_index_redactValue (key : JsString) (i : Nat) (value : JsValue) :
    (redactValue key value).child (.index i) = (value.child (.index i)).map (redactValue key) := by
  cases value with
  | array items =>
    simp only [redactValue, JsValue.child]
    exact getElem?_redactItems key items i
  | string s => simp [redactValue_string, JsValue.child]
  | _ => simp [redactValue, JsValue.child]

/-- At the end of a path stands the original redacted under the last key of the path,
    unless the path goes through `__proto__`. -/
theorem reach_redactValue (key : JsString) (value : JsValue) (path : List PathStep) :
    (redactValue key value).reach path =
      if protoKey ∈ pathKeys path then none
      else (value.reach path).map (redactValue ((pathKeys path).getLastD key)) := by
  induction path generalizing key value with
  | nil => simp [JsValue.reach, pathKeys]
  | cons step rest ih =>
    cases step with
    | key name =>
      rw [JsValue.reach, child_key_redactValue]
      by_cases hname : name = protoKey
      · simp [hname, pathKeys]
      · rw [if_neg hname, JsValue.reach]
        cases hchild : value.child (.key name) with
        | none => simp
        | some inner =>
          have hmem : protoKey ∈ name :: pathKeys rest ↔ protoKey ∈ pathKeys rest := by
            simp [Ne.symm hname]
          simp only [Option.map_some, Option.bind_some, ih, pathKeys, hmem, List.getLastD_cons]
    | index i =>
      -- an array hands its own key on to its elements
      rw [JsValue.reach, child_index_redactValue, JsValue.reach]
      cases hchild : value.child (.index i) with
      | none => simp
      | some inner => simp [pathKeys, ih]

/-- A payload with a string at the end of a path is entered through a key. -/
theorem pathKeys_ne_nil {payload : List (JsString × JsValue)} {path : List PathStep} {s : JsString}
    (h : (JsValue.object payload).reach path = some (.string s)) : pathKeys path ≠ [] := by
  cases path with
  | nil => cases h
  | cons step rest =>
    cases step with
    | key name => simp [pathKeys]
    | index i => cases h

/-! ## Secrets -/

/-- A string at a path is a secret: some key on the way is called like one, or the
    string has the shape of one. -/
def SecretAt (path : List PathStep) (s : JsString) : Prop :=
  (∃ key ∈ pathKeys path, isSecretKey key = true) ∨ isSecretShapedValue s = true

/-- The string at a path of a payload is `[REDACTED]`. -/
def Hides (payload : List (JsString × JsValue)) (path : List PathStep) : Prop :=
  (JsValue.object payload).reach path = some (.string redacted)

/-- The string is hidden in the redacted payload and in every row built from it. -/
def HiddenEverywhere [Host] (payload : List (JsString × JsValue)) (path : List PathStep) : Prop :=
  Hides (redactPayload payload) path ∧
    ∀ input sequence prevHash stamp entry, input.payload = payload →
      buildLedgerEntry input sequence prevHash stamp = .ok entry → Hides entry.payload path

/-- A row carries the redacted payload of its input. -/
theorem payload_of_buildLedgerEntry [Host] {input : AuditEventInput} {sequence : Nat}
    {prevHash : JsString} {stamp : Stamp} {entry : AuditLedgerEntry}
    (h : buildLedgerEntry input sequence prevHash stamp = .ok entry) :
    entry.payload = redactPayload input.payload := by
  rw [buildLedgerEntry] at h
  generalize computeEntryHash _ = hashed at h
  cases hashed with
  | error error => cases h
  | ok hash =>
    cases h
    rfl

/-- A secret is hidden exactly when its nearest key is called like one or its shape gives
    it away, and no key on the way is `__proto__`. Secret names further out do not count. -/
theorem redactPayload_hides_iff [Host] {payload : List (JsString × JsValue)}
    {path : List PathStep} {s : JsString}
    (hleaf : (JsValue.object payload).reach path = some (.string s)) :
    SecretAt path s →
      (HiddenEverywhere payload path ↔
        protoKey ∉ pathKeys path ∧
          ((∃ key ∈ (pathKeys path).getLast?, isSecretKey key = true) ∨
            isSecretShapedValue s = true ∨ s = redacted)) := by
  intro _
  -- the innermost key decides, whatever the keys above it are
  obtain ⟨nearest, hnearest⟩ : ∃ nearest, (pathKeys path).getLast? = some nearest :=
    Option.ne_none_iff_exists'.1 (mt List.getLast?_eq_none_iff.1 (pathKeys_ne_nil hleaf))
  have hreach : (JsValue.object (redactPayload payload)).reach path =
      if protoKey ∈ pathKeys path then none else some (redactValue nearest (.string s)) := by
    have hpath := reach_redactValue [] (.object payload) path
    rwa [hleaf, List.getLastD_eq_getLast?, hnearest] at hpath
  have hrow : HiddenEverywhere payload path ↔ Hides (redactPayload payload) path := by
    refine ⟨And.left, fun h => ⟨h, ?_⟩⟩
    rintro input sequence prevHash stamp entry rfl hbuild
    rwa [payload_of_buildLedgerEntry hbuild]
  rw [hrow, Hides, hreach, hnearest]
  by_cases hproto : protoKey ∈ pathKeys path
  · simp [hproto]
  rw [if_neg hproto, redactValue_string]
  by_cases hkey : isSecretKey nearest = true
  · simp [hproto, hkey]
  by_cases hshape : isSecretShapedValue s = true
  · simp [hproto, hshape]
  · simp [hproto, hkey, hshape]

/-! ## What is kept -/

/-- `[REDACTED]` is redacted to itself. -/
theorem redactValue_redacted (key : JsString) :
    redactValue key (.string redacted) = .string redacted := by
  rw [redactValue_string, ite_self]

mutual

/-- Redacting once more changes nothing. -/
theorem redactValue_redactValue (key : JsString) (value : JsValue) :
    redactValue key (redactValue key value) = redactValue key value := by
  match value with
  | .string s =>
    rw [redactValue_string]
    split
    · exact redactValue_redacted key
    · rename_i hkept
      rw [redactValue_string, if_neg hkept]
  | .array items => rw [redactValue, redactValue, redactItems_redactItems key items]
  | .object props => rw [redactValue, redactValue, redactPayload_redactPayload props]
  | .classInstance className props =>
    rw [redactValue, redactValue, redactPayload_redactPayload props]
  | .undefined | .null | .bool _ | .number _ | .bigint _ | .symbol _ | .function _ | .hole => rfl

/-- Nor in the elements of an array. -/
theorem redactItems_redactItems (key : JsString) (items : List JsValue) :
    redactItems key (redactItems key items) = redactItems key items := by
  match items with
  | [] => rfl
  | item :: rest =>
    rw [redactItems, redactItems, redactValue_redactValue key item,
      redactItems_redactItems key rest]

/-- Nor in the properties of an object. -/
theorem redactPayload_redactPayload (props : List (JsString × JsValue)) :
    redactPayload (redactPayload props) = redactPayload props := by
  match props with
  | [] => rfl
  | (key, value) :: rest =>
    rw [redactPayload]
    split
    · exact redactPayload_redactPayload rest
    · rename_i hproto
      rw [redactPayload, if_neg hproto, redactValue_redactValue key value,
        redactPayload_redactPayload rest]

end

mutual

/-- A value of nested plain objects, arrays and scalars, with no key called `__proto__`. -/
def isPayloadValue : JsValue → Bool
  | .array items => isPayloadItems items
  | .object props => isPayload props
  | .classInstance _ _ => false
  | _ => true

/-- Every element is one. -/
def isPayloadItems : List JsValue → Bool
  | [] => true
  | item :: rest => isPayloadValue item && isPayloadItems rest

/-- Every property is one, under another name than `__proto__`. -/
def isPayload : List (JsString × JsValue) → Bool
  | [] => true
  | (key, value) :: rest => key ≠ protoKey && isPayloadValue value && isPayload rest

end

/-- No key of a payload is `__proto__`. -/
theorem isPayload_key_ne {props : List (JsString × JsValue)} (h : isPayload props = true) :
    ∀ p ∈ props, p.1 ≠ protoKey := by
  induction props with
  | nil => simp
  | cons p rest ih =>
    obtain ⟨key, value⟩ := p
    simp only [isPayload, Bool.and_eq_true, decide_eq_true_eq] at h
    exact List.forall_mem_cons.mpr ⟨h.1.1, ih h.2⟩

/-- What is one step down is such a value, and the step is not `__proto__`. -/
theorem isPayloadValue_child {value inner : JsValue} {step : PathStep}
    (h : isPayloadValue value = true) (hinner : value.child step = some inner) :
    isPayloadValue inner = true ∧ step ≠ .key protoKey := by
  cases value with
  | object props =>
    cases step with
    | key name =>
      rw [isPayloadValue] at h
      change props.lookup name = some inner at hinner
      constructor
      · -- the property that is found first is checked like every other
        induction props with
        | nil => cases hinner
        | cons p rest ih =>
          obtain ⟨key, value⟩ := p
          simp only [isPayload, Bool.and_eq_true, decide_eq_true_eq] at h
          rw [List.lookup_cons] at hinner
          split at hinner
          · exact Option.some.inj hinner ▸ h.1.2
          · exact ih h.2 hinner
      · rintro ⟨⟩
        obtain ⟨pre, post, rfl, -⟩ := List.lookup_eq_some_iff.mp hinner
        exact isPayload_key_ne h (protoKey, inner) (by simp) rfl
    | index i => cases hinner
  | array items =>
    cases step with
    | key name => cases hinner
    | index i =>
      rw [isPayloadValue] at h
      change items[i]? = some inner at hinner
      refine ⟨?_, by simp⟩
      induction items generalizing i with
      | nil => cases hinner
      | cons item rest ih =>
        rw [isPayloadItems, Bool.and_eq_true] at h
        cases i with
        | zero => exact Option.some.inj hinner ▸ h.1
        | succ i => exact ih h.2 i hinner
  | classInstance className props => cases h
  | _ => cases step <;> cases hinner

/-- No path into such a value goes through `__proto__`, and at its end is such a value. -/
theorem isPayloadValue_reach {value inner : JsValue} {path : List PathStep}
    (h : isPayloadValue value = true) (hinner : value.reach path = some inner) :
    isPayloadValue inner = true ∧ protoKey ∉ pathKeys path := by
  induction path generalizing value with
  | nil =>
    cases hinner
    exact ⟨h, List.not_mem_nil⟩
  | cons step rest ih =>
    obtain ⟨next, hnext, hrest⟩ := Option.bind_eq_some_iff.mp hinner
    obtain ⟨hvalue, hstep⟩ := isPayloadValue_child h hnext
    obtain ⟨hinner, hkeys⟩ := ih hvalue hrest
    refine ⟨hinner, ?_⟩
    cases step with
    | key name =>
      rw [pathKeys, List.mem_cons, not_or]
      exact ⟨fun heq => hstep (heq ▸ rfl), hkeys⟩
    | index i => exact hkeys

/-- The nearest key of a string is called like a secret, or the string looks like one. -/
def CountsAsSecret (path : List PathStep) (s : JsString) : Prop :=
  (∃ key ∈ (pathKeys path).getLast?, isSecretKey key = true) ∨ isSecretShapedValue s = true

/-- A value without parts that is no string. -/
def isScalar : JsValue → Bool
  | .string _ | .array _ | .object _ | .classInstance _ _ => false
  | _ => true

/-- What redaction makes of the value at the end of a path. -/
inductive Redacts (path : List PathStep) : JsValue → JsValue → Prop
  /-- an object keeps its keys, in their order -/
  | object (props props' : List (JsString × JsValue))
      (hkeys : props'.map Prod.fst = props.map Prod.fst) :
      Redacts path (.object props) (.object props')
  /-- an array keeps its length -/
  | array (items items' : List JsValue) (hlength : items'.length = items.length) :
      Redacts path (.array items) (.array items')
  | scalar (value : JsValue) (hscalar : isScalar value = true) : Redacts path value value
  | kept (s : JsString) (hplain : ¬ CountsAsSecret path s) : Redacts path (.string s) (.string s)
  | hidden (s : JsString) (hsecret : CountsAsSecret path s) :
      Redacts path (.string s) (.string redacted)

/-- The keys of a redacted payload. -/
theorem map_fst_redactPayload {props : List (JsString × JsValue)} (h : isPayload props = true) :
    (redactPayload props).map Prod.fst = props.map Prod.fst := by
  induction props with
  | nil => rfl
  | cons p rest ih =>
    obtain ⟨key, value⟩ := p
    simp only [isPayload, Bool.and_eq_true, decide_eq_true_eq] at h
    rw [redactPayload, if_neg h.1.1, List.map_cons, ih h.2, List.map_cons]

/-- The length of a redacted array. -/
theorem length_redactItems (key : JsString) (items : List JsValue) :
    (redactItems key items).length = items.length := by
  induction items with
  | nil => rfl
  | cons item rest ih => rw [redactItems, List.length_cons, ih, List.length_cons]

/-- A value redacted under the nearest key of its path. -/
theorem redacts_redactValue {path : List PathStep} {nearest : JsString}
    (hnearest : (pathKeys path).getLast? = some nearest) {value : JsValue}
    (h : isPayloadValue value = true) : Redacts path value (redactValue nearest value) := by
  cases value with
  | object props =>
    rw [redactValue]
    exact .object _ _ (map_fst_redactPayload h)
  | array items =>
    rw [redactValue]
    exact .array _ _ (length_redactItems _ _)
  | string s =>
    have hsecret : CountsAsSecret path s ↔
        (isSecretKey nearest || isSecretShapedValue s) = true := by
      simp [CountsAsSecret, hnearest]
    rw [redactValue_string]
    split
    · rename_i hhidden
      exact .hidden s (hsecret.mpr hhidden)
    · rename_i hkept
      exact .kept s fun h => hkept (hsecret.mp h)
  | classInstance className props => cases h
  | _ => exact .scalar _ rfl

/-- Redaction is done after one pass, and what it touches are strings: along every path the
    payload keeps its keys, lengths and scalars, and the strings that are no secrets. -/
theorem redactPayload_touches_strings {payload : List (JsString × JsValue)}
    (h : isPayload payload = true) :
    redactPayload (redactPayload payload) = redactPayload payload ∧
      ∀ path value, (JsValue.object payload).reach path = some value →
        ∃ value', (JsValue.object (redactPayload payload)).reach path = some value' ∧
          Redacts path value value' := by
  refine ⟨redactPayload_redactPayload payload, fun path value hvalue => ?_⟩
  have hroot : isPayloadValue (.object payload) = true := h
  obtain ⟨hpayload, hkeys⟩ := isPayloadValue_reach hroot hvalue
  have hreach := reach_redactValue [] (.object payload) path
  rw [if_neg hkeys, hvalue, List.getLastD_eq_getLast?] at hreach
  refine ⟨_, hreach, ?_⟩
  cases hnearest : (pathKeys path).getLast? with
  | some nearest => exact redacts_redactValue hnearest hpayload
  | none =>
    -- only the payload itself stands under no key
    cases path with
    | nil =>
      cases hvalue
      rw [redactValue]
      exact .object _ _ (map_fst_redactPayload h)
    | cons step rest =>
      cases step with
      | key name => simp [pathKeys] at hnearest
      | index i => cases hvalue

/-! ## Secrets that stay -/

namespace Sample

attribute [local instance] node

/-- A credential object with an innocuous inner key. -/
def nestedSecret : List (JsString × JsValue) :=
  [(js "credentials", .object [(js "value", .string (js "hunter2"))])]

/-- Where its secret is. -/
def nestedPath : List PathStep := [.key (js "credentials"), .key (js "value")]

/-- The secret is written to the ledger as it is. -/
theorem nestedSecret_stays :
    SecretAt nestedPath (js "hunter2") ∧
      (JsValue.object nestedSecret).reach nestedPath = some (.string (js "hunter2")) ∧
      ¬ Hides (redactPayload nestedSecret) nestedPath ∧
      ¬ HiddenEverywhere nestedSecret nestedPath := by
  have hleaf : (JsValue.object nestedSecret).reach nestedPath = some (.string (js "hunter2")) := rfl
  have hsecret : SecretAt nestedPath (js "hunter2") := .inl ⟨js "credentials", by decide, by decide⟩
  have hstays : ¬ Hides (redactPayload nestedSecret) nestedPath := by
    intro h
    have hvalue : (JsValue.object (redactPayload nestedSecret)).reach nestedPath =
        some (.string (js "hunter2")) := by
      rfl
    rw [Hides, hvalue] at h
    injection h with h
    injection h with h
    exact absurd h (by decide)
  exact ⟨hsecret, hleaf, hstays, fun h => hstays h.1⟩

/-- A string in a list of lists under a token name. -/
def listedSecret : List (JsString × JsValue) :=
  [(js "session", .object [(js "accessTokens", .array [.array [.string (js "t-1")]])])]

/-- Arrays keep the key, so the string is hidden. -/
theorem listedSecret_hidden :
    HiddenEverywhere listedSecret
      [.key (js "session"), .key (js "accessTokens"), .index 0, .index 0] :=
  (redactPayload_hides_iff rfl (.inl ⟨js "accessTokens", by decide, by decide⟩)).2
      ⟨by decide, .inl ⟨js "accessTokens", by decide, by decide⟩⟩

/-- Redacting the nested secret once more changes nothing. -/
theorem nestedSecret_redacted_once :
    redactPayload (redactPayload nestedSecret) = redactPayload nestedSecret :=
  (redactPayload_touches_strings (by decide)).1

end Sample

end ActionHarbor
