import ActionHarbor.ForStd.Utf
import ActionHarbor.Model.Json
import ActionHarbor.Model.Orchestrator

/-!
# HTTP

What the page's `client.ts` sends and how `server.ts` takes it apart: the percent-encoded
path, the bytes of the body in whatever chunks they arrive, the JSON in it, and the table
of routes with the orchestrator's function behind each. Sockets, headers and Node's URL
parser stay outside; the last is a parameter.

## Key definitions

- `jsonText`: `JSON.stringify`
- `encodeURIComponent`, `decodeURIComponent`
- `readJsonBody`: a body, chunk by chunk
- `ClientCall.request`: the request of each function of the client
- `serve`: from a request to the function it calls
-/

namespace ActionHarbor

/-! ## JSON.stringify -/

mutual

/-- What `JSON.stringify` prints of a value, `none` for nothing. The error is the `TypeError`
    of a bigint. A class instance prints as its own properties: none here has a `toJSON`. -/
def jsonData : JsValue → Except JsString (Option Canonical)
  | .undefined | .symbol _ | .function _ => .ok none
  | .null => .ok (some .null)
  | .bool b => .ok (some (.bool b))
  | .number n => .ok (some (.number n))
  | .string s => .ok (some (.string s))
  | .bigint _ => .error (js "Do not know how to serialize a BigInt")
  | .hole => .ok (some .hole)
  | .array items => (jsonItems items).map fun items => some (.array items)
  | .object props | .classInstance _ props => (jsonProps props).map fun props => some (.object props)

/-- The elements of an array: one that prints nothing prints `null`. -/
def jsonItems : List JsValue → Except JsString (List Canonical)
  | [] => .ok []
  | item :: rest => do
    let item ← jsonData item
    let rest ← jsonItems rest
    .ok (item.getD .null :: rest)

/-- The members of an object: one that prints nothing is left out. -/
def jsonProps : List (JsString × JsValue) → Except JsString (List (JsString × Canonical))
  | [] => .ok []
  | (key, value) :: rest => do
    let value ← jsonData value
    let rest ← jsonProps rest
    .ok ((value.map fun value => (key, value)).toList ++ rest)

end

/-- `JSON.stringify(value)`, `none` for `undefined`. -/
def jsonText (value : JsValue) : Except JsString (Option JsString) :=
  (jsonData value).map fun data => data.map stringify

/-! ## Percent encoding -/

/-- The units `encodeURIComponent` leaves alone. -/
def uriUnreserved : JsString :=
  js "ABCDEFGHIJKLMNOPQRSTUVWXYZabcdefghijklmnopqrstuvwxyz0123456789-_.!~*'()"

/-- An uppercase hexadecimal digit. -/
def upperHexDigit (n : Nat) : UInt16 := (if n < 10 then 0x30 + n else 0x37 + n).toUInt16

/-- `%XX` of a byte. -/
def percentByte (b : UInt8) : JsString :=
  [0x25, upperHexDigit (b.toNat / 16), upperHexDigit (b.toNat % 16)]

/-- `encodeURIComponent(text)`, code point by code point; `none` is the `URIError` of a lone
    surrogate. -/
def encodeURIComponent (text : JsString) : Option JsString :=
  (Utf.codePoints text).foldr (fun n rest =>
    if n.toUInt16 ∈ uriUnreserved ∧ n < 0x10000 then rest.map (n.toUInt16 :: ·)
    else if Utf.IsScalar n then rest.map ((utf8Bytes n).flatMap percentByte ++ ·)
    else none) (some [])

/-- The loop of `decodeURIComponent`, inside an escape sequence or not; `none` is the
    `URIError` of a malformed one. -/
def decodeURIComponentFrom : Option Utf.Partial → JsString → Option JsString
  | none, [] => some []
  | some _, [] => none
  | state, u :: rest =>
    if u = 0x25 then
      match rest with
      | high :: low :: rest => do
        let high ← hexValue high
        let low ← hexValue low
        match ← Utf.step state (high * 16 + low).toUInt8 with
        | .done n => (decodeURIComponentFrom none rest).map (Utf.units n ++ ·)
        | .more state => decodeURIComponentFrom (some state) rest
      | _ => none
    else if state.isNone then (decodeURIComponentFrom none rest).map (u :: ·)
    else none

/-- `decodeURIComponent(text)` -/
def decodeURIComponent (text : JsString) : Option JsString := decodeURIComponentFrom none text

/-! ## Bodies -/

/-- `MAX_BODY_BYTES` -/
def maxBodyBytes : Nat := 64 * 1024

/-- `Buffer.toString("utf8")` -/
def utf8Text (bytes : List UInt8) : JsString := (Utf.decode none bytes).flatMap Utf.units

/-- The `for await` loop over the chunks of a request. -/
def readChunks (total : Nat) (chunks : List (List UInt8)) :
    List (List UInt8) → Except RequestError (List (List UInt8))
  | [] => .ok chunks
  | chunk :: rest =>
    let total := total + chunk.length
    if maxBodyBytes < total then
      .error (.orchestrator .invalidState (js "request body too large"))
    else readChunks total (chunks ++ [chunk]) rest

section
variable [Host]

/-- `readJsonBody` -/
def readJsonBody (req : List (List UInt8)) : Except RequestError JsValue := do
  let chunks ← readChunks 0 [] req
  if chunks.length = 0 then .ok (.object [])
  else
    match jsonParse (utf8Text chunks.flatten) with
    | some value => .ok value
    | none => .error (.orchestrator .invalidState (js "request body is not valid JSON"))

end

mutual

/-- `String(value)` of what `JSON.parse` returns; `none` is the `TypeError` of an object
    whose own `toString` hides the inherited one. -/
def stringOf : JsValue → Option JsString
  | .string s => some s
  | .null => some (js "null")
  | .bool b => some (if b then js "true" else js "false")
  | .number n => some n.toText
  | .array items => (stringsOf items).map fun texts => joinCommas texts
  | .object props =>
    if (props.lookup (js "toString")).isSome then none else some (js "[object Object]")
  -- the other values are none that a text denotes
  | _ => some (js "undefined")

/-- The elements as `join` prints them: `null` is empty. -/
def stringsOf : List JsValue → Option (List JsString)
  | [] => some []
  | item :: rest => do
    let text ← if item matches .null then some [] else stringOf item
    let texts ← stringsOf rest
    some (text :: texts)

end

/-! ## Routes -/

/-- A part of a route's pattern: a text, or `([^/]+)`. -/
inductive PatternPart where
  | text (text : JsString)
  | segment
deriving DecidableEq, Repr

/-- `/` -/
def slash : UInt16 := 0x2F

/-- `pattern.exec(text)`: the captures of a match of the whole text. A group takes all units
    up to the next slash, since a slash or the end follows it in every pattern. -/
def execPattern : List PatternPart → JsString → Option (List JsString)
  | [], text => if text.isEmpty then some [] else none
  | .text part :: rest, text =>
    if part.isPrefixOf text then execPattern rest (text.drop part.length) else none
  | .segment :: rest, text =>
    let segment := text.takeWhile (· ≠ slash)
    if segment.isEmpty then none
    else (execPattern rest (text.dropWhile (· ≠ slash))).map (segment :: ·)

/-- What the handler of a route calls. -/
inductive Endpoint where
  | listScenarios
  | listRuns
  | createRun
  | getRun
  | approveRun
  | simulateDrift
  | replayRun
  | reconcileRun
  | verifyRunLedger
  | verifyLedgerPreview
deriving DecidableEq, Repr

/-- `Route` -/
structure Route where
  method : JsString
  pattern : List PatternPart
  paramNames : List JsString
  handler : Endpoint
deriving DecidableEq, Repr

/-- The name of a segment that is a parameter. -/
def paramName (segment : JsString) : Option JsString :=
  if (js ":").isPrefixOf segment then some (segment.drop 1) else none

/-- `route(method, path, handler)` -/
def route (method path : JsString) (handler : Endpoint) : Route :=
  let segments := path.splitOn slash
  { method := method
    pattern := (segments.map fun segment =>
      if (paramName segment).isSome then .segment else .text segment).intersperse (.text [slash])
    paramNames := segments.filterMap paramName
    handler := handler }

/-- `ROUTES` -/
def routes : List Route :=
  [route (js "GET") (js "/api/scenarios") .listScenarios,
    route (js "GET") (js "/api/runs") .listRuns,
    route (js "POST") (js "/api/runs") .createRun,
    route (js "GET") (js "/api/runs/:id") .getRun,
    route (js "POST") (js "/api/runs/:id/approve") .approveRun,
    route (js "POST") (js "/api/runs/:id/simulate-drift") .simulateDrift,
    route (js "POST") (js "/api/runs/:id/replay") .replayRun,
    route (js "POST") (js "/api/runs/:id/reconcile") .reconcileRun,
    route (js "POST") (js "/api/runs/:id/ledger/verify") .verifyRunLedger,
    route (js "POST") (js "/api/ledger/verify-preview") .verifyLedgerPreview]

/-- `errorStatus` -/
def errorStatus : RequestError → Nat
  | .orchestrator .notFound _ => 404
  | .orchestrator .unknownScenario _ | .orchestrator .invalidState _ => 400
  | .illegalTransition _ _ | .internal _ | .call _ => 500

/-- Why a request ends before it reaches the orchestrator. -/
inductive ServeError where
  /-- an `OPTIONS` request -/
  | preflight
  | noRoute
  /-- a `TypeError` or `URIError` -/
  | internal
  | request (error : RequestError)
deriving DecidableEq, Repr

/-- The status such a request is answered with. -/
def ServeError.status : ServeError → Nat
  | .preflight => 204
  | .noRoute => 404
  | .internal => 500
  | .request error => errorStatus error

/-- The candidate the loop over `ROUTES` stops at, with the captures of its pattern. -/
def findRoute (method pathname : JsString) : Option (Route × List JsString) :=
  routes.findSome? fun candidate =>
    if candidate.method ≠ method then none
    else (execPattern candidate.pattern pathname).map fun captures => (candidate, captures)

/-! ## Calls -/

/-- A function of the client, with its arguments; on the server, the function a handler
    calls, with its own. -/
inductive ClientCall where
  | listScenarios
  | listRuns
  | createRun (scenario : JsString)
  | getRun (runId : JsString)
  | approveRun (runId : JsString)
  | simulateDrift (runId : JsString)
  | replayRun (runId : JsString)
  | reconcileRun (runId : JsString)
  | verifyRunLedger (runId : JsString)
  | verifyLedgerPreview (entries : JsValue)

/-- A request as it is sent; a body is a text. -/
structure ClientRequest where
  method : JsString
  path : JsString
  body : Option JsString

/-- `request(path)` -/
def ClientRequest.get (path : JsString) : ClientRequest := ⟨js "GET", path, none⟩

/-- `post(path)` -/
def ClientRequest.post (path : JsString) : ClientRequest := ⟨js "POST", path, none⟩

/-- `post(path, body)`; `none` is the `TypeError` of `JSON.stringify`. -/
def ClientRequest.postJson (path : JsString) (body : JsValue) : Option ClientRequest :=
  match jsonText body with
  | .error _ => none
  | .ok text => some ⟨js "POST", path, text⟩

/-- The path of a run, and of what is done to it. -/
def runPath (runId : JsString) (suffix : String) : Option JsString :=
  (encodeURIComponent runId).map fun id => js "/api/runs/" ++ id ++ js suffix

/-- The request a function of the client sends; `none` when it throws instead. -/
def ClientCall.request : ClientCall → Option ClientRequest
  | .listScenarios => some (.get (js "/api/scenarios"))
  | .listRuns => some (.get (js "/api/runs"))
  | .createRun scenario =>
    ClientRequest.postJson (js "/api/runs") (.object [(js "scenario", .string scenario)])
  | .getRun runId => (runPath runId "").map .get
  | .approveRun runId => (runPath runId "/approve").map .post
  | .simulateDrift runId => (runPath runId "/simulate-drift").map .post
  | .replayRun runId => (runPath runId "/replay").map .post
  | .reconcileRun runId => (runPath runId "/reconcile").map .post
  | .verifyRunLedger runId => (runPath runId "/ledger/verify").map .post
  | .verifyLedgerPreview entries =>
    ClientRequest.postJson (js "/api/ledger/verify-preview") (.object [(js "entries", entries)])

/-- A request as it arrives: the target of its first line, and the chunks of its body. -/
structure HttpRequest where
  method : JsString
  target : JsString
  chunks : List (List UInt8)

/-- `"key" in body ? body[key] : undefined` for a parsed body that is an object. An array
    has the key when `Array.prototype` does. -/
def bodyField (body : JsValue) (key : JsString) : JsValue :=
  match body with
  | .object props => propOf props key
  | .array _ => if key = js "entries" then .function key else .undefined
  | _ => .undefined

section
variable [Host]

/-- What the handler of an endpoint calls, given its parameters and the chunks of the body. -/
def Endpoint.call (endpoint : Endpoint) (id : JsString) (chunks : List (List UInt8)) :
    Except ServeError ClientCall :=
  match endpoint with
  | .listScenarios => .ok .listScenarios
  | .listRuns => .ok .listRuns
  | .createRun => do
    let body ← (readJsonBody chunks).mapError .request
    -- an absent scenario reads as the empty string
    match bodyField body (js "scenario") with
    | .undefined => .ok (.createRun [])
    | scenario =>
      match stringOf scenario with
      | some scenario => .ok (.createRun scenario)
      | none => .error .internal
  | .getRun => .ok (.getRun id)
  | .approveRun => .ok (.approveRun id)
  | .simulateDrift => .ok (.simulateDrift id)
  | .replayRun => .ok (.replayRun id)
  | .reconcileRun => .ok (.reconcileRun id)
  | .verifyRunLedger => .ok (.verifyRunLedger id)
  | .verifyLedgerPreview => do
    let body ← (readJsonBody chunks).mapError .request
    .ok (.verifyLedgerPreview (bodyField body (js "entries")))

/-- `createHttpServer`, from a request to the call of its handler. `urlPathname` is
    `new URL(target, "http://localhost").pathname`, `none` where the constructor throws. -/
def serve (urlPathname : JsString → Option JsString) (req : HttpRequest) :
    Except ServeError ClientCall :=
  match urlPathname req.target with
  | none => .error .internal
  | some pathname =>
    if req.method = js "OPTIONS" then .error .preflight
    else
      match findRoute req.method pathname with
      | none => .error .noRoute
      | some (candidate, captures) =>
        -- `params[name] = decodeURIComponent(match[index + 1])`
        match captures.mapM decodeURIComponent with
        | none => .error .internal
        | some params =>
          candidate.handler.call
            (((candidate.paramNames.zip params).lookup (js "id")).getD []) req.chunks

end

end ActionHarbor
