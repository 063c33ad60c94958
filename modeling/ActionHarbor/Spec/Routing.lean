import ActionHarbor.Spec.Bodies
import Mathlib.Data.List.TakeWhile

/-!
# From the client to its handler

A function of the client sends a request, and the server finds the route, the run id and
the body in it again. Run ids may hold anything but lone surrogates: percent encoding
keeps every other unit from being taken for a slash, and the patterns of the table have
no request in common.

## Key results

- `decodeURIComponent_encodeURIComponent`: a run id survives the path
- `execPattern_route`: a pattern compares segment by segment
- `findRoute_eq_some_iff`: the order of the table does not matter
- `serve_sent`: every request arrives at the function it is for
-/

namespace ActionHarbor

/-! ## Percent encoding -/

/-- The units of a percent-encoded text. -/
def IsPathUnit (u : UInt16) : Prop := u = 0x25 ∨ u ∈ uriUnreserved

instance (u : UInt16) : Decidable (IsPathUnit u) :=
  inferInstanceAs (Decidable (u = 0x25 ∨ u ∈ uriUnreserved))

private theorem upperHexDigit_spec {n : Nat} (h : n < 16) :
    hexValue (upperHexDigit n) = some n ∧ upperHexDigit n ∈ uriUnreserved := by
  interval_cases n <;> decide

/-- The escape of a byte, inside a sequence or not. -/
private theorem decodeFrom_percentByte (state : Option Utf.Partial) (b : UInt8)
    (rest : JsString) :
    decodeURIComponentFrom state (percentByte b ++ rest) =
      match Utf.step state b with
      | some (.done n) => (decodeURIComponentFrom none rest).map (Utf.units n ++ ·)
      | some (.more state) => decodeURIComponentFrom (some state) rest
      | none => none := by
  have hb : b.toNat < 0x100 := b.toNat_lt
  have hhigh := (upperHexDigit_spec (n := b.toNat / 16) (by omega)).1
  have hlow := (upperHexDigit_spec (n := b.toNat % 16) (by omega)).1
  have hbyte : (b.toNat / 16 * 16 + b.toNat % 16).toUInt8 = b := by
    rw [Nat.div_add_mod']
    simp
  rw [percentByte, List.cons_append, List.cons_append, List.cons_append, List.nil_append,
    decodeURIComponentFrom]
  simp only [if_true, hhigh, hlow, bind, Option.bind, hbyte]
  cases Utf.step state b with
  | none => rfl
  | some progress => cases progress <;> rfl

/-- An escape sequence is read as its code point. -/
private theorem decodeFrom_of_reads {state : Option Utf.Partial} {bytes : List UInt8} {n : Nat}
    (h : Utf.Reads state bytes n) (rest : JsString) :
    decodeURIComponentFrom state (bytes.flatMap percentByte ++ rest) =
      (decodeURIComponentFrom none rest).map (Utf.units n ++ ·) := by
  induction h with
  | done state b n hstep =>
    rw [List.flatMap_singleton, decodeFrom_percentByte, hstep]
  | more state b state' bytes n hstep _ ih =>
    rw [List.flatMap_cons, List.append_assoc, decodeFrom_percentByte, hstep]
    exact ih

/-- `%` is escaped. -/
private theorem ne_percent_of_mem {u : UInt16} (h : u ∈ uriUnreserved) : u ≠ 0x25 := by
  rintro rfl
  revert h
  decide

/-- Any other unit outside a sequence stays. -/
private theorem decodeFrom_plain {u : UInt16} (h : u ≠ 0x25) (rest : JsString) :
    decodeURIComponentFrom none (u :: rest) = (decodeURIComponentFrom none rest).map (u :: ·) := by
  match rest with
  | [] | [_] | _ :: _ :: _ => simp [decodeURIComponentFrom, h]

/-- What the fold leaves of one code point: itself, its escapes, or the error. -/
private theorem encodePoint_cases {n : Nat} {rest : Option JsString} {enc : JsString}
    (h : (if n.toUInt16 ∈ uriUnreserved ∧ n < 0x10000 then rest.map (n.toUInt16 :: ·)
      else if Utf.IsScalar n then rest.map ((utf8Bytes n).flatMap percentByte ++ ·)
      else none) = some enc) :
    ∃ tail, rest = some tail ∧
      (n.toUInt16 ∈ uriUnreserved ∧ n < 0x10000 ∧ enc = n.toUInt16 :: tail ∨
        Utf.IsScalar n ∧ enc = (Utf.encode n).flatMap percentByte ++ tail) := by
  split at h
  · rename_i hunreserved
    obtain ⟨tail, htail, rfl⟩ := Option.map_eq_some_iff.mp h
    exact ⟨tail, htail, .inl ⟨hunreserved.1, hunreserved.2, rfl⟩⟩
  split at h
  · rename_i hscalar
    obtain ⟨tail, htail, rfl⟩ := Option.map_eq_some_iff.mp h
    exact ⟨tail, htail, .inr ⟨hscalar, by rw [utf8Bytes_eq]⟩⟩
  · cases h

/-- What is encoded is decoded. -/
theorem decodeURIComponent_encodeURIComponent {text enc : JsString}
    (h : encodeURIComponent text = some enc) : decodeURIComponent enc = some text := by
  rw [encodeURIComponent] at h
  rw [decodeURIComponent, ← Utf.flatMap_units_codePoints text]
  generalize Utf.codePoints text = points at h
  induction points generalizing enc with
  | nil =>
    obtain rfl := Option.some.inj h
    rfl
  | cons n points ih =>
    rw [List.foldr_cons] at h
    obtain ⟨tail, htail, ⟨hmem, hsmall, rfl⟩ | ⟨hscalar, rfl⟩⟩ := encodePoint_cases h
    · have hunits : Utf.units n = [n.toUInt16] := by rw [Utf.units, if_pos hsmall]
      rw [decodeFrom_plain (ne_percent_of_mem hmem), ih htail, List.flatMap_cons, hunits]
      rfl
    · rw [decodeFrom_of_reads (Utf.reads_encode hscalar), ih htail]
      rfl

/-- Only lone surrogates cannot be encoded. -/
theorem encodeURIComponent_isSome_iff (text : JsString) :
    (encodeURIComponent text).isSome ↔ Utf.WellFormed text := by
  rw [encodeURIComponent, Utf.WellFormed]
  induction Utf.codePoints text with
  | nil => simp
  | cons n points ih =>
    have hunreserved : n.toUInt16 ∈ uriUnreserved ∧ n < 0x10000 → Utf.IsScalar n := by
      rintro ⟨hmem, hsmall⟩
      have hascii : IsAscii uriUnreserved := by decide
      have hlt : n.toUInt16.toNat < 0x80 := UInt16.lt_iff_toNat_lt.mp (hascii _ hmem)
      have htoNat : n.toUInt16.toNat = n := UInt16.toNat_ofNat_of_lt hsmall
      exact .inl (by omega)
    rw [List.foldr_cons, List.forall_mem_cons, ← ih]
    split
    · rename_i h
      simp [hunreserved h]
    split
    · rename_i hscalar
      simp [hscalar]
    · rename_i hscalar
      simp [hscalar]

/-- An encoded text holds nothing else. -/
theorem isPathUnit_of_mem {text enc : JsString} (h : encodeURIComponent text = some enc) :
    ∀ u ∈ enc, IsPathUnit u := by
  have hbyte : ∀ b : UInt8, ∀ u ∈ percentByte b, IsPathUnit u := by
    intro b u hu
    have hb : b.toNat < 0x100 := b.toNat_lt
    simp only [percentByte, List.mem_cons, List.not_mem_nil, or_false] at hu
    rcases hu with rfl | rfl | rfl
    · exact .inl rfl
    · exact .inr (upperHexDigit_spec (by omega)).2
    · exact .inr (upperHexDigit_spec (by omega)).2
  rw [encodeURIComponent] at h
  generalize Utf.codePoints text = points at h
  induction points generalizing enc with
  | nil =>
    obtain rfl := Option.some.inj h
    exact fun u hu => by cases hu
  | cons n points ih =>
    rw [List.foldr_cons] at h
    obtain ⟨tail, htail, ⟨hmem, -, rfl⟩ | ⟨-, rfl⟩⟩ := encodePoint_cases h
    · rintro u (_ | ⟨_, hu⟩)
      · exact .inr hmem
      · exact ih htail u hu
    · intro u hu
      rcases List.mem_append.mp hu with hu | hu
      · obtain ⟨b, -, hu⟩ := List.mem_flatMap.mp hu
        exact hbyte b u hu
      · exact ih htail u hu

/-- A slash is escaped. -/
theorem slash_notMem_of_encode {text enc : JsString} (h : encodeURIComponent text = some enc) :
    slash ∉ enc := by
  intro hmem
  have hnot : ¬ IsPathUnit slash := by
    rintro (hslash | hslash) <;> revert hslash <;> decide
  exact hnot (isPathUnit_of_mem h _ hmem)

/-! ## Patterns -/

/-- A path of the table against the segments of a pathname: the captures of its parameters. -/
def matchSegments : List JsString → List JsString → Option (List JsString)
  | [], [] => some []
  | segment :: segments, text :: texts =>
    if (paramName segment).isSome then
      if text = [] then none else (matchSegments segments texts).map (text :: ·)
    else if text = segment then matchSegments segments texts
    else none
  | _, _ => none

/-- The part of the pattern for a segment. -/
def segmentPart (segment : JsString) : PatternPart :=
  if (paramName segment).isSome then .segment else .text segment

/-- Behind a segment stands the end or a slash. -/
private theorem exec_text {parts : List PatternPart} {segment text tail : JsString}
    (hsegment : slash ∉ segment) (htext : slash ∉ text)
    (hparts : parts = [] ∨ ∃ rest, parts = .text [slash] :: rest)
    (htail : tail = [] ∨ ∃ rest, tail = slash :: rest) :
    execPattern (.text segment :: parts) (text ++ tail) =
      if text = segment then execPattern parts tail else none := by
  rw [execPattern]
  by_cases heq : text = segment
  · subst heq
    simp
  · rw [if_neg heq]
    split
    · rename_i hlead
      rw [List.isPrefixOf_iff_prefix] at hlead
      -- a longer segment would have to go on with the slash
      rcases List.prefix_or_prefix_of_prefix hlead (List.prefix_append text tail) with
        ⟨more, rfl⟩ | ⟨more, rfl⟩
      · cases more with
        | nil => simp at heq
        | cons u more =>
          rw [List.append_assoc, List.drop_left]
          have hu : u ≠ slash := by
            rintro rfl
            exact htext (by simp)
          rcases hparts with rfl | ⟨rest, rfl⟩
          · rfl
          · rw [execPattern]
            simp [hu.symm]
      · have hmore := (List.prefix_append_right_inj text).mp hlead
        rcases htail with rfl | ⟨rest, rfl⟩
        · obtain rfl := List.prefix_nil.mp hmore
          simp at heq
        · cases more with
          | nil => simp at heq
          | cons u more =>
            obtain ⟨rfl, -⟩ := List.cons_prefix_cons.mp hmore
            exact absurd (by simp) hsegment
    · rfl

/-- A group takes a segment. -/
private theorem exec_segment {parts : List PatternPart} {text tail : JsString}
    (htext : slash ∉ text) (htail : tail = [] ∨ ∃ rest, tail = slash :: rest) :
    execPattern (.segment :: parts) (text ++ tail) =
      if text = [] then none else (execPattern parts tail).map (text :: ·) := by
  have hall : ∀ u ∈ text, decide (u ≠ slash) = true := by
    intro u hu
    exact decide_eq_true fun h => htext (h ▸ hu)
  have htake : (text ++ tail).takeWhile (· ≠ slash) = text := by
    rw [List.takeWhile_append_of_pos hall]
    rcases htail with rfl | ⟨rest, rfl⟩ <;> simp
  have hdrop : (text ++ tail).dropWhile (· ≠ slash) = tail := by
    rw [List.dropWhile_append_of_pos hall]
    rcases htail with rfl | ⟨rest, rfl⟩ <;> simp
  rw [execPattern, htake, hdrop]
  simp

/-- Either part of a pattern. -/
private theorem exec_part (parts : List PatternPart) {segment text tail : JsString}
    (hsegment : slash ∉ segment) (htext : slash ∉ text)
    (hparts : parts = [] ∨ ∃ rest, parts = .text [slash] :: rest)
    (htail : tail = [] ∨ ∃ rest, tail = slash :: rest) :
    execPattern (segmentPart segment :: parts) (text ++ tail) =
      if (paramName segment).isSome then
        if text = [] then none else (execPattern parts tail).map (text :: ·)
      else if text = segment then execPattern parts tail
      else none := by
  unfold segmentPart
  split
  · exact exec_segment htext htail
  · exact exec_text hsegment htext hparts htail

/-- The first segment of a pathname. -/
private theorem exists_segment (pathname : JsString) :
    ∃ text tail, pathname = text ++ tail ∧ slash ∉ text ∧
      (tail = [] ∨ ∃ rest, tail = slash :: rest) := by
  refine ⟨pathname.takeWhile (· ≠ slash), pathname.dropWhile (· ≠ slash),
    List.takeWhile_append_dropWhile.symm, fun hmem => ?_, ?_⟩
  · simpa using List.mem_takeWhile_imp hmem
  · cases hdrop : pathname.dropWhile (· ≠ slash) with
    | nil => exact .inl rfl
    | cons u rest =>
      have hu := List.head_dropWhile_not (fun u => decide (u ≠ slash)) (l := pathname)
        (by rw [hdrop]; simp)
      simp only [hdrop, List.head_cons, decide_eq_false_iff_not, not_not] at hu
      exact .inr ⟨rest, by rw [hu]⟩

/-- A pattern compares segment by segment. -/
theorem execPattern_segments (segment : JsString) (segments : List JsString)
    (hsegments : ∀ s ∈ segment :: segments, slash ∉ s) (pathname : JsString) :
    execPattern (((segment :: segments).map segmentPart).intersperse (.text [slash])) pathname =
      matchSegments (segment :: segments) (pathname.splitOn slash) := by
  induction segments generalizing segment pathname with
  | nil =>
    obtain ⟨text, tail, rfl, htext, htail⟩ := exists_segment pathname
    -- with its last segment the pattern ends, and so must the pathname
    have hpart := exec_part [] (hsegments segment List.mem_cons_self) htext (.inl rfl) htail
    rw [List.map_singleton, List.intersperse_singleton, hpart]
    rcases htail with rfl | ⟨rest, rfl⟩
    · rw [List.append_nil, List.splitOn_eq_singleton htext]
      rfl
    · rw [List.splitOn_append_cons_self_of_not_mem htext]
      obtain ⟨next, texts, hnext⟩ := List.exists_cons_of_ne_nil (List.splitOn_ne_nil slash rest)
      rw [hnext]
      rfl
  | cons next segments ih =>
    obtain ⟨text, tail, rfl, htext, htail⟩ := exists_segment pathname
    have hpart := exec_part _ (hsegments segment List.mem_cons_self) htext
      (.inr ⟨((next :: segments).map segmentPart).intersperse (.text [slash]), rfl⟩) htail
    rw [List.map_cons, List.map_cons, List.intersperse_cons_cons, ← List.map_cons, hpart]
    rcases htail with rfl | ⟨rest, rfl⟩
    · -- the pathname ends, the pattern does not
      rw [List.append_nil, List.splitOn_eq_singleton htext]
      simp [execPattern, matchSegments]
    · have hrest := ih next (fun s hs => hsegments s (List.mem_cons_of_mem _ hs)) rest
      rw [List.splitOn_append_cons_self_of_not_mem htext, execPattern]
      simp only [List.isPrefixOf_cons_cons_self, List.isPrefixOf_nil_left, if_true, List.length_singleton,
        List.drop_one, List.tail_cons, hrest]
      rfl

/-- No segment holds a slash. -/
private theorem slash_notMem_of_mem_splitOn (text : JsString) :
    ∀ segment ∈ text.splitOn slash, slash ∉ segment := by
  induction text with
  | nil => simp
  | cons u rest ih =>
    obtain ⟨head, tail, hsplit⟩ := List.exists_cons_of_ne_nil (List.splitOn_ne_nil slash rest)
    rw [List.splitOn_cons_eq_if_modifyHead, hsplit]
    rw [hsplit] at ih
    split
    · rintro segment (_ | ⟨_, hmem⟩)
      · exact List.not_mem_nil
      · exact ih segment hmem
    · rename_i hu
      have hu : slash ≠ u := fun h => hu (by simp [h])
      rintro segment (_ | ⟨_, hmem⟩)
      · exact List.not_mem_cons_of_ne_of_not_mem hu (ih head List.mem_cons_self)
      · exact ih segment (List.mem_cons_of_mem _ hmem)

/-- The pattern of a route. -/
theorem execPattern_route (method path : JsString) (handler : Endpoint) (pathname : JsString) :
    execPattern (route method path handler).pattern pathname =
      matchSegments (path.splitOn slash) (pathname.splitOn slash) := by
  obtain ⟨segment, segments, hsplit⟩ := List.exists_cons_of_ne_nil (List.splitOn_ne_nil slash path)
  have hslash := slash_notMem_of_mem_splitOn path
  rw [hsplit] at hslash ⊢
  rw [← execPattern_segments segment segments hslash, route, hsplit]
  rfl

/-! ## The table -/

/-- The method, path and handler of each route. -/
def routeTable : List (JsString × JsString × Endpoint) :=
  [(js "GET", js "/api/scenarios", .listScenarios), (js "GET", js "/api/runs", .listRuns),
    (js "POST", js "/api/runs", .createRun), (js "GET", js "/api/runs/:id", .getRun),
    (js "POST", js "/api/runs/:id/approve", .approveRun),
    (js "POST", js "/api/runs/:id/simulate-drift", .simulateDrift),
    (js "POST", js "/api/runs/:id/replay", .replayRun),
    (js "POST", js "/api/runs/:id/reconcile", .reconcileRun),
    (js "POST", js "/api/runs/:id/ledger/verify", .verifyRunLedger),
    (js "POST", js "/api/ledger/verify-preview", .verifyLedgerPreview)]

theorem routes_eq : routes = routeTable.map fun entry => route entry.1 entry.2.1 entry.2.2 := rfl

/-- Two paths some pathname could match both of: nowhere two different texts. -/
def Overlap : List JsString → List JsString → Prop :=
  List.Forall₂ fun s t => (paramName s).isSome ∨ (paramName t).isSome ∨ s = t

/-- Paths with a pathname in common overlap. -/
private theorem overlap_of_match {segments segments' texts captures captures' : List JsString}
    (h : matchSegments segments texts = some captures)
    (h' : matchSegments segments' texts = some captures') : Overlap segments segments' := by
  induction segments generalizing segments' texts captures captures' with
  | nil =>
    cases texts with
    | nil =>
      cases segments' with
      | nil => exact .nil
      | cons => cases h'
    | cons => cases h
  | cons segment segments ih =>
    cases texts with
    | nil => cases h
    | cons text texts =>
      cases segments' with
      | nil => cases h'
      | cons segment' segments' =>
        -- what is left of each is matched against what is left of the pathname
        have hrest : ∀ {segment segments captures},
            matchSegments (segment :: segments) (text :: texts) = some captures →
            (∃ rest, matchSegments segments texts = some rest) ∧
              ((paramName segment).isSome ∨ text = segment) := by
          intro segment segments captures h
          rw [matchSegments] at h
          split at h
          · rename_i hparam
            split at h
            · cases h
            · obtain ⟨rest, hrest, -⟩ := Option.map_eq_some_iff.mp h
              exact ⟨⟨rest, hrest⟩, .inl hparam⟩
          split at h
          · rename_i htext
            exact ⟨⟨captures, h⟩, .inr htext⟩
          · cases h
        obtain ⟨⟨rest, hleft⟩, hhead⟩ := hrest h
        obtain ⟨⟨rest', hright⟩, hhead'⟩ := hrest h'
        refine .cons ?_ (ih hleft hright)
        rcases hhead with hparam | rfl
        · exact .inl hparam
        rcases hhead' with hparam | rfl
        · exact .inr (.inl hparam)
        · exact .inr (.inr rfl)

instance (segments segments' : List JsString) : Decidable (Overlap segments segments') :=
  inferInstanceAs (Decidable (List.Forall₂ _ _ _))

/-- No two routes of one method overlap. -/
private theorem routeTable_apart : ∀ entry ∈ routeTable, ∀ entry' ∈ routeTable,
    entry.1 = entry'.1 → Overlap (entry.2.1.splitOn slash) (entry'.2.1.splitOn slash) →
      entry = entry' := by
  decide +kernel

/-- What the loop asks of a candidate. -/
private theorem candidate_eq_some_iff {method pathname : JsString} {candidate : Route}
    (found : Route × List JsString) :
    (if candidate.method ≠ method then none
      else (execPattern candidate.pattern pathname).map fun captures => (candidate, captures)) =
        some found ↔
      found.1 = candidate ∧ candidate.method = method ∧
        execPattern candidate.pattern pathname = some found.2 := by
  obtain ⟨found, captures⟩ := found
  by_cases hmethod : candidate.method = method
  · rw [if_neg (not_not.mpr hmethod), Option.map_eq_some_iff]
    simp [hmethod, and_comm, eq_comm]
  · simp [hmethod]

/-- At most one route answers a request, so the order of the table does not matter. -/
theorem findRoute_eq_some_iff {method pathname : JsString} {candidate : Route}
    {captures : List JsString} :
    findRoute method pathname = some (candidate, captures) ↔
      candidate ∈ routes ∧ candidate.method = method ∧
        execPattern candidate.pattern pathname = some captures := by
  constructor
  · intro h
    obtain ⟨entry, hmem, hentry⟩ := List.exists_of_findSome?_eq_some h
    obtain ⟨rfl, hmethod, hexec⟩ := (candidate_eq_some_iff _).mp hentry
    exact ⟨hmem, hmethod, hexec⟩
  · rintro ⟨hmem, hmethod, hexec⟩
    cases hfind : findRoute method pathname with
    | none =>
      have hnone := List.findSome?_eq_none_iff.mp hfind candidate hmem
      have hsome := (candidate_eq_some_iff (candidate, captures)).mpr ⟨rfl, hmethod, hexec⟩
      exact absurd (hnone.symm.trans hsome) (by simp)
    | some found =>
      -- a route before it would match the same pathname
      obtain ⟨other, hother, hsome⟩ := List.exists_of_findSome?_eq_some hfind
      obtain ⟨hfound, hmethod', hexec'⟩ := (candidate_eq_some_iff _).mp hsome
      rw [routes_eq] at hmem hother
      obtain ⟨entry, hentry, rfl⟩ := List.mem_map.mp hmem
      obtain ⟨entry', hentry', rfl⟩ := List.mem_map.mp hother
      have hoverlap := overlap_of_match ((execPattern_route _ _ _ _).symm.trans hexec)
        ((execPattern_route _ _ _ _).symm.trans hexec')
      obtain rfl := routeTable_apart entry hentry entry' hentry' (hmethod.trans hmethod'.symm)
        hoverlap
      have hcaptures : captures = found.2 := Option.some.inj (hexec.symm.trans hexec')
      rw [hcaptures, ← hfound]

/-! ## From end to end -/

/-- The segments the URL standard drops from a path. -/
def dotSegments : List JsString :=
  [js ".", js "%2e", js "%2E", js "..", js ".%2e", js ".%2E", js "%2e.", js "%2E.", js "%2e%2e",
    js "%2e%2E", js "%2E%2e", js "%2E%2E"]

/-- Only units that a path keeps. -/
def OnPath (text : JsString) : Prop := ∀ u ∈ text, u = slash ∨ IsPathUnit u

instance (text : JsString) : Decidable (OnPath text) :=
  List.decidableBAll (fun u => u = slash ∨ IsPathUnit u) text

/-- A path in which the URL standard has nothing to parse: one slash in front, only units that
    a path keeps, no dot segments. -/
structure PlainPath (target : JsString) : Prop where
  rooted : ∃ u rest, target = slash :: u :: rest ∧ u ≠ slash
  units : OnPath target
  segments : ∀ segment ∈ target.splitOn slash, segment ∉ dotSegments

/-- Node's URL parser takes such a path as it is. -/
def KeepsPlainPaths (urlPathname : JsString → Option JsString) : Prop :=
  ∀ target, PlainPath target → urlPathname target = some target

/-- What stands behind a run id in a path. -/
structure PlainSuffix (tail : JsString) : Prop where
  closes : tail = [] ∨ tail.head? = some slash
  units : OnPath tail
  segments : ∀ segment ∈ (tail.splitOn slash).tail,
    paramName segment = none ∧ segment ∉ dotSegments

/-- The segments of the path of a run. -/
private theorem splitOn_runPath {enc tail : JsString} (henc : slash ∉ enc)
    (htail : tail = [] ∨ tail.head? = some slash) :
    (js "/api/runs/" ++ enc ++ tail).splitOn slash =
      [[], js "api", js "runs", enc] ++ (tail.splitOn slash).tail := by
  have hpath : js "/api/runs/" ++ enc ++ tail =
      [] ++ slash :: (js "api" ++ slash :: (js "runs" ++ slash :: (enc ++ tail))) := by
    have hlead : js "/api/runs/" =
        [] ++ slash :: (js "api" ++ slash :: (js "runs" ++ slash :: [])) := by decide
    rw [hlead]
    simp
  rw [hpath, List.splitOn_append_cons_self_of_not_mem List.not_mem_nil,
    List.splitOn_append_cons_self_of_not_mem (by decide),
    List.splitOn_append_cons_self_of_not_mem (by decide)]
  rcases htail with rfl | htail
  · rw [List.append_nil, List.splitOn_eq_singleton henc]
    rfl
  · obtain ⟨rest, rfl⟩ := List.head?_eq_some_iff.mp htail
    have hrest := List.splitOn_append_cons_self_of_not_mem (List.not_mem_nil (a := slash)) rest
    rw [List.nil_append] at hrest
    rw [List.splitOn_append_cons_self_of_not_mem henc, hrest]
    rfl

/-- Segments without parameters match themselves. -/
private theorem matchSegments_self {segments : List JsString}
    (h : ∀ segment ∈ segments, paramName segment = none) :
    matchSegments segments segments = some [] := by
  induction segments with
  | nil => rfl
  | cons segment segments ih =>
    rw [matchSegments, h segment List.mem_cons_self]
    simpa using ih fun s hs => h s (List.mem_cons_of_mem _ hs)

section
variable {runId enc tail : JsString}

/-- The route of a run finds the encoded id. -/
private theorem exec_runPath (method : JsString) (handler : Endpoint) (henc : slash ∉ enc)
    (hne : enc ≠ []) (htail : PlainSuffix tail) :
    execPattern (route method (js "/api/runs/" ++ js ":id" ++ tail) handler).pattern
      (js "/api/runs/" ++ enc ++ tail) = some [enc] := by
  have hself := matchSegments_self fun segment hmem => (htail.segments segment hmem).1
  have hparams : paramName [] = none ∧ paramName (js "api") = none ∧
      paramName (js "runs") = none ∧ (paramName (js ":id")).isSome = true := by decide
  obtain ⟨hempty, hapi, hruns, hid⟩ := hparams
  rw [execPattern_route, splitOn_runPath (by decide) htail.closes, splitOn_runPath henc htail.closes]
  simp [matchSegments, hempty, hapi, hruns, hid, hne, hself]

/-- Its one parameter is the id. -/
private theorem paramNames_runPath (method : JsString) (handler : Endpoint)
    (htail : PlainSuffix tail) :
    (route method (js "/api/runs/" ++ js ":id" ++ tail) handler).paramNames = [js "id"] := by
  have hplain : (tail.splitOn slash).tail.filterMap paramName = [] :=
    List.filterMap_eq_nil_iff.mpr fun segment hmem => (htail.segments segment hmem).1
  have hhead : [[], js "api", js "runs", js ":id"].filterMap paramName = [js "id"] := by decide
  simp only [route, splitOn_runPath (by decide : slash ∉ js ":id") htail.closes,
    List.filterMap_append, hplain, hhead, List.append_nil]

/-- Only the two ids that are dot segments themselves are encoded as one. -/
private theorem encode_notMem_dotSegments (henc : encodeURIComponent runId = some enc)
    (hid : runId ≠ js "." ∧ runId ≠ js "..") : enc ∉ dotSegments := by
  intro hmem
  have hdots : ∀ segment ∈ dotSegments, decodeURIComponent segment = some (js ".") ∨
      decodeURIComponent segment = some (js "..") := by decide +kernel
  have hdecoded := decodeURIComponent_encodeURIComponent henc
  rcases hdots enc hmem with hdot | hdot
  · exact hid.1 (Option.some.inj (hdecoded.symm.trans hdot))
  · exact hid.2 (Option.some.inj (hdecoded.symm.trans hdot))

/-- Nothing else is encoded as nothing. -/
private theorem encode_ne_nil (henc : encodeURIComponent runId = some enc) (hid : runId ≠ []) :
    enc ≠ [] := by
  rintro rfl
  exact hid (Option.some.inj (decodeURIComponent_encodeURIComponent henc)).symm

/-- The URL parser has nothing to do on the path of a run. -/
private theorem plainPath_run (henc : encodeURIComponent runId = some enc)
    (hid : runId ≠ js "." ∧ runId ≠ js "..") (htail : PlainSuffix tail) :
    PlainPath (js "/api/runs/" ++ enc ++ tail) where
  rooted := ⟨0x61, js "pi/runs/" ++ enc ++ tail, rfl, by decide⟩
  units u hu := by
    have hlead : OnPath (js "/api/runs/") := by decide
    rw [List.mem_append, List.mem_append] at hu
    rcases hu with (hu | hu) | hu
    · exact hlead u hu
    · exact .inr (isPathUnit_of_mem henc u hu)
    · exact htail.units u hu
  segments segment hmem := by
    have hlead : ∀ segment ∈ [[], js "api", js "runs"], segment ∉ dotSegments := by decide
    rw [splitOn_runPath (slash_notMem_of_encode henc) htail.closes, List.mem_append] at hmem
    rcases hmem with hmem | hmem
    · rw [show [[], js "api", js "runs", enc] = [[], js "api", js "runs"] ++ [enc] from rfl,
        List.mem_append, List.mem_singleton] at hmem
      rcases hmem with hmem | rfl
      · exact hlead segment hmem
      · exact encode_notMem_dotSegments henc hid
    · exact (htail.segments segment hmem).2

/-- No route is for a preflight. -/
private theorem method_ne_options : ∀ candidate ∈ routes, candidate.method ≠ js "OPTIONS" := by
  decide +kernel

/-- A request for a run arrives at its route, with the id that was asked for. -/
private theorem serve_run [Host] {urlPathname : JsString → Option JsString}
    (hurl : KeepsPlainPaths urlPathname) (henc : encodeURIComponent runId = some enc)
    (hid : runId ∉ [[], js ".", js ".."]) {method : JsString} {endpoint : Endpoint}
    (hroute : route method (js "/api/runs/" ++ js ":id" ++ tail) endpoint ∈ routes)
    (htail : PlainSuffix tail) (chunks : List (List UInt8)) :
    serve urlPathname ⟨method, js "/api/runs/" ++ enc ++ tail, chunks⟩ =
      endpoint.call runId chunks := by
  simp only [List.mem_cons, List.not_mem_nil, or_false, not_or] at hid
  have hfind : findRoute method (js "/api/runs/" ++ enc ++ tail) =
      some (route method (js "/api/runs/" ++ js ":id" ++ tail) endpoint, [enc]) :=
    findRoute_eq_some_iff.mpr ⟨hroute, rfl, exec_runPath method endpoint
      (slash_notMem_of_encode henc) (encode_ne_nil henc hid.1) htail⟩
  have hmethod : method ≠ js "OPTIONS" := method_ne_options _ hroute
  have hparams : [enc].mapM decodeURIComponent = some [runId] := by
    simp [decodeURIComponent_encodeURIComponent henc]
  rw [serve, hurl _ (plainPath_run henc hid.2 htail)]
  simp only [if_neg hmethod, hfind, hparams, paramNames_runPath method endpoint htail]
  simp [route]

end

/-- A request for a path without parameters arrives at its route. -/
private theorem serve_fixed [Host] {urlPathname : JsString → Option JsString}
    (hurl : KeepsPlainPaths urlPathname) {method path : JsString} (endpoint : Endpoint)
    (hpath : PlainPath path) (hroute : route method path endpoint ∈ routes)
    (hexec : execPattern (route method path endpoint).pattern path = some [])
    (chunks : List (List UInt8)) :
    serve urlPathname ⟨method, path, chunks⟩ = endpoint.call [] chunks := by
  have hfind : findRoute method path = some (route method path endpoint, []) :=
    findRoute_eq_some_iff.mpr ⟨hroute, rfl, hexec⟩
  have hmethod : method ≠ js "OPTIONS" := method_ne_options _ hroute
  rw [serve, hurl _ hpath]
  simp [hmethod, hfind, route]

/-- What the page may ask for. A run id is text, and no dot segment of its own; the entries
    of a preview are JSON whose numbers the server reads as they were printed. -/
def ClientCall.Sendable [Host] : ClientCall → Prop
  | .getRun runId | .approveRun runId | .simulateDrift runId | .replayRun runId
  | .reconcileRun runId | .verifyRunLedger runId =>
    Utf.WellFormed runId ∧ runId ∉ [[], js ".", js ".."]
  | .verifyLedgerPreview entries =>
    isJsonData entries = true ∧
      ∀ c, jsonData (.object [(js "entries", entries)]) = .ok (some c) → c.ReadExactly
  | .listScenarios | .listRuns | .createRun _ => True

/-- The call of the server for one of the page: the same, the entries up to key order. -/
def ClientCall.ReceivedAs : ClientCall → ClientCall → Prop
  | .verifyLedgerPreview entries, received =>
    ∃ copy, received = .verifyLedgerPreview copy ∧ isJsonData copy = true ∧ SameJson entries copy
  | call, received => received = call

/-- The bytes of a request's body. -/
def ClientRequest.bytes (request : ClientRequest) : List UInt8 :=
  (request.body.map utf8).getD []

/-- The answer to a request whose bytes make up the right call. -/
def arrival (bytes : List UInt8) (received : ClientCall) : Except ServeError ClientCall :=
  if maxBodyBytes < bytes.length then
    .error (.request (.orchestrator .invalidState (js "request body too large")))
  else .ok received

/-- The page sends a call, and the server makes it. -/
def Arrives [Host] (urlPathname : JsString → Option JsString) (call : ClientCall) : Prop :=
  ∃ request received, call.request = some request ∧ call.ReceivedAs received ∧
    ∀ chunks, [] ∉ chunks → chunks.flatten = request.bytes →
      serve urlPathname ⟨request.method, request.path, chunks⟩ = arrival request.bytes received

section
variable [Host] {urlPathname : JsString → Option JsString} (hurl : KeepsPlainPaths urlPathname)
include hurl

/-- A call about a run, by the route it goes to. -/
private theorem arrives_run {runId : JsString} {suffix : String} {call : ClientCall}
    {method : JsString} (endpoint : Endpoint)
    (hcall : call.request = (runPath runId suffix).map fun path => ⟨method, path, none⟩)
    (hreceived : call.ReceivedAs call) (hendpoint : ∀ chunks, endpoint.call runId chunks = .ok call)
    (hroute : route method (js "/api/runs/" ++ js ":id" ++ js suffix) endpoint ∈ routes)
    (hsuffix : PlainSuffix (js suffix))
    (hid : Utf.WellFormed runId ∧ runId ∉ [[], js ".", js ".."]) : Arrives urlPathname call := by
  obtain ⟨enc, henc⟩ := Option.isSome_iff_exists.mp ((encodeURIComponent_isSome_iff runId).mpr hid.1)
  refine ⟨_, call, by rw [hcall, runPath, henc]; rfl, hreceived, fun chunks _ _ => ?_⟩
  rw [serve_run hurl henc hid.2 hroute hsuffix, hendpoint]
  rfl

/-- A call with a JSON body, by the endpoint that reads it. -/
private theorem arrives_json {path : JsString} {call : ClientCall} (endpoint : Endpoint)
    (body : JsValue) (hcall : call.request = ClientRequest.postJson path body)
    (hbody : isJsonData body = true)
    (hexact : ∀ c, jsonData body = .ok (some c) → c.ReadExactly)
    (hpath : PlainPath path) (hroute : route (js "POST") path endpoint ∈ routes)
    (hexec : execPattern (route (js "POST") path endpoint).pattern path = some [])
    (hlarge : ∀ chunks error, readJsonBody chunks = .error error →
      endpoint.call [] chunks = .error (.request error))
    (hreads : ∀ copy, isJsonData copy = true → SameJson body copy → ∃ received,
      call.ReceivedAs received ∧
      ∀ chunks, readJsonBody chunks = .ok copy → endpoint.call [] chunks = .ok received) :
    Arrives urlPathname call := by
  obtain ⟨text, copy, htext, hcopy, hsame, hread⟩ := readJsonBody_sent hbody hexact
  obtain ⟨received, hreceived, hreads⟩ := hreads copy hcopy hsame
  refine ⟨⟨js "POST", path, some text⟩, received, ?_, hreceived, fun chunks hchunks hbytes => ?_⟩
  · rw [hcall, ClientRequest.postJson, htext]
  · have hread := hread chunks hchunks hbytes
    rw [serve_fixed hurl endpoint hpath hroute hexec, arrival]
    show _ = if maxBodyBytes < (utf8 text).length then _ else _
    split
    · rename_i hsize
      exact hlarge chunks _ (hread.trans (if_pos hsize))
    · rename_i hsize
      exact hreads chunks (hread.trans (if_neg hsize))

end

/-- The path of a fixed route. -/
private theorem plainPath_scenarios : PlainPath (js "/api/scenarios") where
  rooted := ⟨_, _, rfl, by decide⟩
  units := by decide
  segments := by decide

private theorem plainPath_runs : PlainPath (js "/api/runs") where
  rooted := ⟨_, _, rfl, by decide⟩
  units := by decide
  segments := by decide

private theorem plainPath_preview : PlainPath (js "/api/ledger/verify-preview") where
  rooted := ⟨_, _, rfl, by decide⟩
  units := by decide
  segments := by decide

/-- Data with one property has its copies in that shape. -/
private theorem exists_of_sameJson_singleton {key : JsString} {value copy : JsValue}
    (hcopy : isJsonData copy = true) (h : SameJson (.object [(key, value)]) copy) :
    ∃ value', copy = .object [(key, value')] ∧ isJsonData value' = true ∧
      SameJson value value' := by
  obtain ⟨h, h'⟩ := h
  cases copy with
  | object props =>
    simp only [sameJson, Bool.and_eq_true, decide_eq_true_eq] at h h'
    obtain ⟨⟨key', value'⟩, rfl⟩ := List.length_eq_one_iff.mp h.1.symm
    obtain ⟨⟨other, hother, hsame⟩, -⟩ := sameProps_cons.mp h.2
    obtain ⟨⟨back, hback, hsame'⟩, -⟩ := sameProps_cons.mp h'.2
    rw [List.lookup_cons] at hother hback
    by_cases hkey : key = key'
    · subst hkey
      simp only [beq_self_eq_true, Option.some.injEq] at hother hback
      subst hother hback
      obtain ⟨-, hdata⟩ := isJsonData_object.mp hcopy
      exact ⟨value', rfl, (isJsonProps_cons.mp hdata).2.1, hsame, hsame'⟩
    · rw [beq_false_of_ne hkey] at hother
      cases hother
  | _ => cases h

/-- The rows to check arrive as the same data. -/
theorem arrives_preview [Host] {urlPathname : JsString → Option JsString}
    (hurl : KeepsPlainPaths urlPathname) {entries : JsValue}
    (hcall : (ClientCall.verifyLedgerPreview entries).Sendable) :
    Arrives urlPathname (.verifyLedgerPreview entries) := by
  have hbody : isJsonData (.object [(js "entries", entries)]) = true := by
    simp [isJsonProps, AssocList.keys, hcall.1]
    decide
  refine arrives_json hurl .verifyLedgerPreview (.object [(js "entries", entries)])
    rfl hbody hcall.2 plainPath_preview (by decide +kernel) (by decide +kernel) ?_ ?_
  · intro chunks error herror
    simp [Endpoint.call, herror, Except.mapError, bind, Except.bind]
  · intro copy hcopy hsame
    obtain ⟨value, rfl, hdata, hvalue⟩ := exists_of_sameJson_singleton hcopy hsame
    refine ⟨.verifyLedgerPreview value, ⟨value, rfl, hdata, hvalue⟩, fun chunks hread => ?_⟩
    rw [Endpoint.call, hread]
    rfl

/-- Every request of the page arrives at the function it is for, with its arguments, unless
    its body is too large. -/
theorem serve_sent [Host] {urlPathname : JsString → Option JsString}
    (hurl : KeepsPlainPaths urlPathname) (call : ClientCall) (hcall : call.Sendable) :
    Arrives urlPathname call := by
  cases call with
  | listScenarios =>
    refine ⟨_, _, rfl, rfl, fun chunks _ _ => ?_⟩
    rw [ClientRequest.get, serve_fixed hurl .listScenarios plainPath_scenarios
      (by decide +kernel) (by decide +kernel)]
    rfl
  | listRuns =>
    refine ⟨_, _, rfl, rfl, fun chunks _ _ => ?_⟩
    rw [ClientRequest.get, serve_fixed hurl .listRuns plainPath_runs
      (by decide +kernel) (by decide +kernel)]
    rfl
  | createRun scenario =>
    have hbody : isJsonData (.object [(js "scenario", .string scenario)]) = true := by
      simp [isJsonProps, isJsonData, AssocList.keys]
      decide
    refine arrives_json hurl .createRun (.object [(js "scenario", .string scenario)])
      rfl hbody ?_ plainPath_runs (by decide +kernel) (by decide +kernel) ?_ ?_
    -- there is no number in the body
    · rintro c hc
      obtain rfl := Option.some.inj (Except.ok.inj hc)
      exact ⟨trivial, trivial⟩
    · intro chunks error herror
      simp [Endpoint.call, herror, Except.mapError, bind, Except.bind]
    · intro copy hcopy hsame
      obtain ⟨value, rfl, -, hvalue⟩ := exists_of_sameJson_singleton hcopy hsame
      have hvalue : value = .string scenario := by
        cases value with
        | string text => exact congrArg JsValue.string (of_decide_eq_true hvalue.2)
        | _ => cases hvalue.1
      refine ⟨.createRun scenario, rfl, fun chunks hread => ?_⟩
      rw [Endpoint.call, hread, hvalue]
      rfl
  | verifyLedgerPreview entries => exact arrives_preview hurl hcall
  -- the others carry their run id, in the path
  | getRun runId =>
    exact arrives_run hurl .getRun rfl rfl (fun _ => rfl) (by decide +kernel)
      (⟨by decide, by decide, by decide⟩ : PlainSuffix (js "")) hcall
  | approveRun runId =>
    exact arrives_run hurl .approveRun rfl rfl (fun _ => rfl) (by decide +kernel)
      (⟨by decide, by decide, by decide⟩ : PlainSuffix (js "/approve")) hcall
  | simulateDrift runId =>
    exact arrives_run hurl .simulateDrift rfl rfl (fun _ => rfl) (by decide +kernel)
      (⟨by decide, by decide, by decide⟩ : PlainSuffix (js "/simulate-drift")) hcall
  | replayRun runId =>
    exact arrives_run hurl .replayRun rfl rfl (fun _ => rfl) (by decide +kernel)
      (⟨by decide, by decide, by decide⟩ : PlainSuffix (js "/replay")) hcall
  | reconcileRun runId =>
    exact arrives_run hurl .reconcileRun rfl rfl (fun _ => rfl) (by decide +kernel)
      (⟨by decide, by decide, by decide⟩ : PlainSuffix (js "/reconcile")) hcall
  | verifyRunLedger runId =>
    exact arrives_run hurl .verifyRunLedger rfl rfl (fun _ => rfl) (by decide +kernel)
      (⟨by decide, by decide, by decide⟩ : PlainSuffix (js "/ledger/verify")) hcall

namespace Sample

/-- A slash in a run id. -/
theorem approve_arrives : @Arrives node some (.approveRun (js "run 1/2")) :=
  @serve_sent node some (fun _ _ => rfl) (.approveRun (js "run 1/2"))
    ⟨IsAscii.wellFormed (by decide), by decide⟩

end Sample

end ActionHarbor
