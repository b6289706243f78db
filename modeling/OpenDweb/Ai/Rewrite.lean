import OpenDweb.Ai.UriTemplate
import OpenDweb.Lib.Except

/-!
# OpenDweb — the upstream request

`opendweb-ext-ai/src/provider/rewrite.mjs`: from a request of a peer to the URL and the headers that
go upstream, with the credential of the provider.

* **`routeRequest`** — the first route that matches, and the path it gives.
* **`rewritePath`** — strip, append and base path, and then dot segments.
* **`upstreamHeaders`** — request headers, credential, slots, script, and the guard behind them.
* **`buildUpstreamRequest`** — the plan, behind its two assertions.
-/

namespace Dweb

/-! ## Configuration -/

inductive RouteForm where
  | openaiChat
  | openaiResponses
  | anthropic
deriving DecidableEq

inductive RouteMode where
  | byPrefix
  | byPattern
deriving DecidableEq

structure ServiceRoute where
  forms : List RouteForm
  mode : Option RouteMode
  localPrefix : Option (List Char)
  upstreamPrefix : Option (List Char)
  matchPattern : Option (List Char)
  template : Option (List Char)
deriving DecidableEq

structure ServiceRewrite where
  host : Option (List Char)
  pathPrefixStrip : Option (List Char)
  pathPrefixAppend : Option (List Char)
deriving DecidableEq

structure ScriptBinding where
  script : List Char
  args : Option (List (List Char × List Char))
deriving DecidableEq

inductive CredentialSource where
  | secret (name : List Char)
  | script (binding : ScriptBinding)
  | literal (value : List Char)
deriving DecidableEq

structure CredentialSlot where
  source : CredentialSource
  bearer : Option Bool
deriving DecidableEq

/-- An object of headers: its entries, each name once. -/
abbrev HeaderMap := List (List Char × List Char)

structure HeadersSlot where
  remove : List (List Char)
  set : HeaderMap
  script : Option ScriptBinding
deriving DecidableEq

/-- What a service says about its upstream. No routes and an empty list of them are the same. -/
structure UpstreamService where
  upstream : List Char
  rewrite : ServiceRewrite
  auth : Option CredentialSlot
  headers : Option HeadersSlot
  hooks : Option ScriptBinding
  routes : List ServiceRoute
deriving DecidableEq

structure UpstreamRequest where
  method : List Char
  path : List Char
  headers : HeaderMap
  contentType : Option (List Char)
deriving DecidableEq

structure HeaderIncrement where
  set : HeaderMap
  remove : List (List Char)

structure ScriptContext where
  method : List Char
  path : List Char
  headers : HeaderMap

/-- The platform, the store of secrets, and the scripts. -/
structure RewritePlatform extends UrlPlatform where
  secrets : List Char → Option (List Char)
  /-- A pattern compiled, if it does compile: of a URL its groups. -/
  urlPattern : List Char → Option (List Char → Option TemplateVars)
  /-- Whether a script exports `onRequestBearerAuthentication`, and `onRequestHeaders`. -/
  stages : List Char → Bool × Bool
  resolveStageAuth : ScriptBinding → ScriptContext → Option (List Char)
  resolveStageHeaders : ScriptBinding → ScriptContext → Option HeaderIncrement

inductive RewriteFailure where
  | store (message : String)
  | rewrite (message : String)
  | pathNotOffered
  | secretMissing
  | hookMissing
  | hookStage
  | matchPattern
  | template (failure : TemplateFailure)
deriving DecidableEq

/-! ## Paths -/

/-- What `normalizeDotSegments` takes a segment for. -/
def frameKind (seg : List Char) : SegmentKind :=
  if seg = ['.'] ∨ seg = [] then .dot else if seg = ['.', '.'] then .dotDot else .name

def dotNormal (path : List Char) : List (List Char) :=
  resolveSegments frameKind [] (path.splitOn '/')

def normalizeDotSegments (path : List Char) : List Char := '/' :: ['/'].intercalate (dotNormal path)

def splitQuery (raw : List Char) : List Char × List Char :=
  (raw.takeWhile (· ≠ '?'), (raw.dropWhile (· ≠ '?')).tail)

def assertFramePathShape (path : List Char) : Except RewriteFailure Unit :=
  let pathPart := (splitQuery path).1
  if ¬ ['/'] <+: path ∨ ['/', '/'] <+: path ∨ ['/', '\\'] <+: path then
    .error (.rewrite "request path must start with a single '/'")
  else if '\\' ∈ path then .error (.rewrite "request path must not contain backslash")
  else if "://".toList <:+: pathPart then
    .error (.rewrite "request path must not contain a scheme")
  else if ∃ seg ∈ (pathPart.splitOn '/').tail, seg = ['.'] ∨ seg = ['.', '.'] then
    .error (.rewrite "request path must not contain '.' or '..' segments")
  else .ok ()

def dropTrailingSlashes (text : List Char) : List Char :=
  (text.reverse.dropWhile (· = '/')).reverse

/-- `text === head || text.startsWith(head + "/")`. -/
def underPrefix (text head : List Char) : Bool := text = head || (head ++ ['/']).isPrefixOf text

def pathHasPrefix (finalPath basePath : List Char) : Bool :=
  if basePath = ['/'] ∨ basePath = [] then true
  else if finalPath = basePath then true
  else
    let base := if basePath.getLast? = some '/' then basePath.dropLast else basePath
    (base ++ ['/']).isPrefixOf finalPath

/-! ## Routes -/

/-- `ROUTE_LOCAL_PREFIX`. -/
def routeLocalPrefixOf : RouteForm → List Char
  | .openaiChat => "/v1".toList
  | .openaiResponses => "/v1".toList
  | .anthropic => "/anthropic".toList

def routeLocalPrefix (route : ServiceRoute) : List Char :=
  route.localPrefix.getD (routeLocalPrefixOf (route.forms.headD .openaiChat))

def routeRoot (route : ServiceRoute) : List Char :=
  let up := route.upstreamPrefix.getD []
  if up = [] then ['/'] else up

section

variable (platform : RewritePlatform)

def matchRequestPath (exec : List Char → Option TemplateVars) (pathname search : List Char) :
    Option TemplateVars :=
  exec ("http://localhost".toList ++
    (if ['/'] <+: pathname then pathname else '/' :: pathname) ++
    if search = [] then [] else '?' :: search)

/-- The path and the query behind a route, if it matches. -/
def matchRoute (route : ServiceRoute) (path query : List Char) :
    Except RewriteFailure (Option (List Char × List Char)) :=
  if route.mode = some .byPattern then
    match route.matchPattern.bind (platform.urlPattern <| normalizeMatchPatternSyntax ·) with
    | none => .error .matchPattern
    | some exec =>
      match matchRequestPath exec path query, route.template with
      | none, _ => .ok none
      | some _, none => .error (.template .typeError)
      | some groups, some template =>
        match expandUriTemplate template (groups ++ parseQueryVars query) with
        | .error failure => .error (.template failure)
        | .ok assembled =>
          if '?' ∈ assembled then .ok (some (splitQuery assembled))
          else .ok (some (assembled, query))
  else
    let localPath := routeLocalPrefix route
    if underPrefix path localPath then
      let rest := path.drop localPath.length
      let routed := if rest = [] then routeRoot route else route.upstreamPrefix.getD [] ++ rest
      .ok (some (routed, query))
    else .ok none

def routeRequest : List ServiceRoute → List Char → List Char →
    Except RewriteFailure (Option (ServiceRoute × List Char × List Char))
  | [], _, _ => .ok none
  | route :: routes, path, query => do
    match ← matchRoute platform route path query with
    | some result => return some (route, result)
    | none => routeRequest routes path query

/-! ## The URL -/

def parseUpstreamUrl (upstream : List Char) : Except RewriteFailure WebUrl :=
  let scheme := ((cleanUrlInput upstream).takeWhile (· ≠ ':')).map Char.toLower
  let invalid := .error (.store ("error: invalid upstream URL: " ++ String.ofList upstream))
  if scheme ≠ "http".toList ∧ scheme ≠ "https".toList then
    if platform.isOther upstream then
      .error (.store "error: upstream URL scheme must be http or https")
    else invalid
  else
    match parseAbsolute platform.toUrlPlatform upstream with
    | none => invalid
    | some url =>
      if url.authority.username ≠ [] ∨ url.authority.password ≠ [] then
        .error (.store "error: upstream URL must not embed credentials (user:pass@)")
      else if url.authority.hostname = [] then
        .error (.store "error: upstream URL must have a hostname")
      else if url.query.getD [] ≠ [] ∨ url.fragment.getD [] ≠ [] then
        .error (.store "error: upstream URL must not contain query or fragment")
      else .ok url

def rewritePath (rewrite : ServiceRewrite) (upstream : WebUrl) (path : List Char) : List Char :=
  let stripped :=
    match rewrite.pathPrefixStrip with
    | none => path
    | some strip =>
      if underPrefix path strip then
        let rest := path.drop strip.length
        if rest = [] then ['/'] else rest
      else path
  let appended :=
    match rewrite.pathPrefixAppend with
    | none => stripped
    | some append => dropTrailingSlashes (normalizeDotSegments append) ++ stripped
  let base := normalizeDotSegments upstream.pathname
  normalizeDotSegments (if base = ['/'] then appended else dropTrailingSlashes base ++ appended)

def urlInput (finalPath query : List Char) : List Char :=
  finalPath ++ if query = [] then [] else '?' :: query

/-! ## Headers -/

def FORBIDDEN_REQ_HEADER_NAMES : List String :=
  ["authorization", "proxy-authorization", "cookie", "host", "content-type"]

def HOP_BY_HOP_HEADER_NAMES : List String :=
  ["connection", "keep-alive", "proxy-connection", "transfer-encoding", "te", "trailer", "upgrade"]

def DEFENSIVE_STRIP : List (List Char) :=
  (FORBIDDEN_REQ_HEADER_NAMES ++ HOP_BY_HOP_HEADER_NAMES ++ ["content-length"]).map String.toList

def GUARD_STRIP : List (List Char) :=
  (HOP_BY_HOP_HEADER_NAMES ++ ["host", "content-length"]).map String.toList

def lowerName (name : List Char) : List Char := name.map jsLower

/-- `headers[name] = value`. -/
def HeaderMap.assign (headers : HeaderMap) (name value : List Char) : HeaderMap :=
  if name = "__proto__".toList then headers
  else if headers.any (·.1 = name) then
    headers.map fun entry => if entry.1 = name then (name, value) else entry
  else headers ++ [(name, value)]

def HeaderMap.assignAll (headers entries : HeaderMap) : HeaderMap :=
  entries.foldl (fun headers entry => headers.assign entry.1 entry.2) headers

/-- `delete headers[name]`. -/
def HeaderMap.remove (headers : HeaderMap) (names : List (List Char)) : HeaderMap :=
  headers.filter fun entry => entry.1 ∉ names

def applyBearerPrefix (value : Option (List Char)) (bearer : Option Bool) : Option (List Char) :=
  if bearer = some false then value
  else
    let text := value.getD "undefined".toList
    if (text.take 6).map Char.toLower = "bearer".toList ∧ (text.drop 6).head?.any isJsSpace then
      some text
    else some ("Bearer ".toList ++ text)

def resolveLiteralHeaderValue (value : List Char) : Except RewriteFailure (Option (List Char)) :=
  if value = [] then .ok none
  else if "$env:".toList <+: value then .error .secretMissing
  else if "$secret:".toList <+: value then
    match platform.secrets (value.drop "$secret:".length) with
    | none => .error .secretMissing
    | some [] => .error .secretMissing
    | some resolved => .ok (some resolved)
  else .ok (some value)

def resolveAuthSlotValue (auth : CredentialSlot) (context : ScriptContext) :
    Except RewriteFailure (Option (List Char)) := do
  let value ←
    match auth.source with
    | .secret name =>
      match platform.secrets name with
      | none => .error .secretMissing
      | some [] => .error .secretMissing
      | some value => .ok (some value)
    | .script binding =>
      match platform.resolveStageAuth binding context with
      | none => .error .hookMissing
      | some value => .ok (some value)
    | .literal value => resolveLiteralHeaderValue platform value
  return applyBearerPrefix value auth.bearer

def effectiveLifecycleSlots (service : UpstreamService) :
    Option CredentialSlot × Option ScriptBinding :=
  let script := service.headers.bind (·.script)
  match service.hooks with
  | none => (service.auth, script)
  | some preset =>
    let (exportsAuth, exportsHeaders) := platform.stages preset.script
    (service.auth <|> if exportsAuth then some ⟨.script preset, none⟩ else none,
      script <|> if exportsHeaders then some preset else none)

def requestHeaders (req : UpstreamRequest) : HeaderMap :=
  let kept := HeaderMap.assignAll [] (req.headers.filter fun entry => entry.1 ∉ DEFENSIVE_STRIP)
  match req.contentType with
  | none => kept
  | some [] => kept
  | some contentType => kept.assign "content-type".toList contentType

/-- The entries of `headers.set` with their values; empty ones are left out. -/
def resolveHeaderSet (set : HeaderMap) : Except RewriteFailure HeaderMap := do
  let resolved ← set.mapM fun entry => do
    return (entry.1, ← resolveLiteralHeaderValue platform entry.2)
  return resolved.filterMap fun entry => entry.2.map (entry.1, ·)

def authorizedHeaders (service : UpstreamService) (req : UpstreamRequest) :
    Except RewriteFailure HeaderMap :=
  let headers := requestHeaders req
  match (effectiveLifecycleSlots platform service).1 with
  | none => .ok headers
  | some auth => do
    match ← resolveAuthSlotValue platform auth ⟨req.method, req.path, headers⟩ with
    | none => return headers
    | some value => return headers.assign "authorization".toList value

def slotHeaders (service : UpstreamService) (req : UpstreamRequest) :
    Except RewriteFailure HeaderMap := do
  let authorized ← authorizedHeaders platform service req
  match service.headers with
  | none => return authorized
  | some slot =>
    let set ← resolveHeaderSet platform slot.set
    return (authorized.remove slot.remove).assignAll set

def headersIncrement (service : UpstreamService) (req : UpstreamRequest) (headers : HeaderMap) :
    Except RewriteFailure HeaderIncrement :=
  match (effectiveLifecycleSlots platform service).2 with
  | none => .ok ⟨[], []⟩
  | some script =>
    match platform.resolveStageHeaders script ⟨req.method, req.path, headers⟩ with
    | none => .error .hookStage
    | some increment => .ok increment

def upstreamHeaders (service : UpstreamService) (req : UpstreamRequest) :
    Except RewriteFailure HeaderMap := do
  let headers ← slotHeaders platform service req
  let increment ← headersIncrement platform service req headers
  let removed := headers.remove (increment.remove.map lowerName)
  let set := removed.assignAll (increment.set.map fun entry => (lowerName entry.1, entry.2))
  return set.remove GUARD_STRIP

def isWebSocketUpgradeRequest (headers : HeaderMap) : Bool :=
  match headers.lookup "connection".toList, headers.lookup "upgrade".toList with
  | some connection, some upgrade =>
    ((connection.splitOn ',').map fun token => lowerName (jsTrim token)).contains
      "upgrade".toList && lowerName (jsTrim upgrade) = "websocket".toList
  | _, _ => false

/-! ## The plan -/

structure UpstreamPlan where
  url : WebUrl
  headers : HeaderMap
  host : List Char
  isWebSocketUpgrade : Bool
deriving DecidableEq

/-- The route that is taken, if the service declares any, with the path and the query behind it. -/
def routedRequest (service : UpstreamService) (req : UpstreamRequest) :
    Except RewriteFailure (Option ServiceRoute × List Char × List Char) := do
  assertFramePathShape req.path
  let (path, query) := splitQuery req.path
  if service.routes = [] then return (none, path, query)
  else
    match ← routeRequest platform service.routes path query with
    | none => .error .pathNotOffered
    | some (route, result) => return (some route, result)

def buildUpstreamRequest (service : UpstreamService) (req : UpstreamRequest) :
    Except RewriteFailure UpstreamPlan := do
  let upstream ← parseUpstreamUrl platform service.upstream
  let (_, path, query) ← routedRequest platform service req
  let finalPath := rewritePath service.rewrite upstream path
  match parseReference platform.toUrlPlatform (urlInput finalPath query) upstream with
  | none =>
    .error (.rewrite "cannot build upstream URL from service config and request path")
  | some url =>
    if url.origin ≠ upstream.origin then
      .error (.rewrite ("upstream origin assertion failed (" ++ String.ofList url.origin ++
        " != " ++ String.ofList upstream.origin ++ ")"))
    else if ¬ pathHasPrefix finalPath (normalizeDotSegments upstream.pathname) then
      .error (.rewrite "upstream base path prefix assertion failed")
    else do
      let headers ← upstreamHeaders platform service req
      return ⟨url, headers, service.rewrite.host.getD upstream.host,
        isWebSocketUpgradeRequest req.headers⟩

end

end Dweb
