import OpenDweb.Ext.PortAccess
import OpenDweb.Lib.Bytes
import OpenDweb.Lib.Updates

/-!
# OpenDweb — what the port proxy passes on

A local request crosses `opendweb-ext-ports/src/proxy.mjs` on one machine and `provider.mjs` on the
other; its headers (`headers.mjs`) are an object, an array, an object again, and so are those of the
response. An object is its own properties; their order is left out.

* **`arrayHeadersToNode`** — reads members that every object inherits: `out["constructor"]`.
* **`getElem?_arrayHeadersToNode`** — what it holds under a name, from the values of that name.
* **`port_proxy_transparent_iff`** — a request and its response pass unchanged exactly if none of
  their headers has the name of such a member.
-/

namespace Dweb

open Std (ExtTreeMap LawfulEqCmp ReflCmp)
open List Option Std.ExtTreeMap

namespace Ports

/-! ## Headers -/

structure HttpHeader where
  name : String
  value : String
  deriving DecidableEq

/-- A property of a header object. -/
inductive NodeValue where
  | undefined
  | single (value : String)
  | many (values : List String)
  deriving DecidableEq

abbrev NodeObject := ExtTreeMap String NodeValue

def jsLowerCase (name : String) : String := String.ofList (name.toList.map jsLower)

def HOP_BY_HOP_HEADERS : List String := ["connection", "keep-alive", "transfer-encoding", "upgrade"]
def HOP_BY_HOP_PREFIXES : List String := ["proxy-"]
def SERVER_ECHO : String := "opendweb-ports"

def isHopByHop (name : String) : Bool :=
  let n := jsLowerCase name
  n ∈ HOP_BY_HOP_HEADERS || HOP_BY_HOP_PREFIXES.any fun p => p.toList.isPrefixOf n.toList

def forwardRequestHeaders (headers : List HttpHeader) : List HttpHeader :=
  headers.filter fun h => !isHopByHop h.name

/-- The headers that `forwardResponseHeaders` passes on. -/
def echoes (name : String) : Bool :=
  let n := jsLowerCase name
  !(isHopByHop n || n = "content-length" || n = "server" || n = "via")

def forwardResponseHeaders (headers : List HttpHeader) : List HttpHeader :=
  (headers.filter fun h => echoes h.name) ++ [⟨"server", SERVER_ECHO⟩]

def NodeValue.values : NodeValue → List String
  | .undefined => []
  | .single value => [value]
  | .many values => values

def entriesToArray (entries : List (String × NodeValue)) : List HttpHeader :=
  entries.flatMap fun e => e.2.values.map fun value => ⟨e.1, value⟩

def nodeHeadersToArray (nodeHeaders : NodeObject) : List HttpHeader :=
  entriesToArray nodeHeaders.toList

/-- The functions of `Object.prototype`. -/
def OBJECT_FUNCTIONS : List String :=
  ["__defineGetter__", "__defineSetter__", "hasOwnProperty", "__lookupGetter__", "__lookupSetter__",
    "isPrototypeOf", "propertyIsEnumerable", "toString", "valueOf", "toLocaleString"]

/-- The member of that name that an object inherits, as a template writes it. -/
def objectMember (name : String) : Option String :=
  let native := fun f => "function " ++ f ++ "() \x7b [native code] \x7d"
  if name = "__proto__" then some "[object Object]"
  else if name = "constructor" then some (native "Object")
  else if name ∈ OBJECT_FUNCTIONS then some (native name)
  else none

/-- What a template writes for `out[name]`, if that is not `undefined`. -/
def memberText (name : String) : Option NodeValue → Option String
  | some .undefined => none
  | some (.single value) => some value
  | some (.many values) => some (",".intercalate values)
  | none => objectMember name

/-- `out[name] = value`: a string does not become a prototype. -/
def setMember (out : NodeObject) (name : String) (value : NodeValue) : NodeObject :=
  if name = "__proto__" then out else out.insert name value

/-- What `out[n]`, so far `held`, becomes with one more value. -/
def assigned (n : String) (held : Option NodeValue) (value : String) : NodeValue :=
  if n = "set-cookie" then
    match held with
    | some (.many existing) => .many (existing ++ [value])
    | _ => .many [value]
  else
    match memberText n held with
    | none => .single value
    | some text => .single (text ++ ", " ++ value)

def addHeader (out : NodeObject) (h : HttpHeader) : NodeObject :=
  let n := jsLowerCase h.name
  setMember out n (assigned n out[n]? h.value)

def arrayHeadersToNode (headers : List HttpHeader) : NodeObject := headers.foldl addHeader ∅

def headerValue (headers : List HttpHeader) (name : String) : Option String :=
  (headers.find? fun h => jsLowerCase h.name = jsLowerCase name).map HttpHeader.value

/-! ## The consumer -/

/-- `req.headers` of Node: names in lower case, the cookies to be set in an array. -/
structure NodeHeaders where
  own : NodeObject
  lower : ∀ name ∈ own, jsLowerCase name = name
  shape : ∀ name value, own[name]? = some value →
    if name = "set-cookie" then ∃ v vs, value = .many (v :: vs) else ∃ v, value = .single v

structure LocalRequest where
  method : String
  target : List Char
  headers : NodeHeaders
  chunks : List Bytes

def LocalRequest.total (req : LocalRequest) : Nat := req.chunks.flatten.length

structure FetchRequest where
  method : String
  path : List Char
  headers : List HttpHeader
  body : Option (List Bytes)

/-- How `handle` ends without a fetch. -/
inductive LocalEnd where
  | answered (status : Nat) (code : String)
  | destroyed
  deriving DecidableEq

def isDigits (cs : List Char) : Bool := cs ≠ [] ∧ cs.all Char.isDigit

/-- `none` is `"invalid"`, `some none` is `null`. -/
def parseContentLength : Option NodeValue → Option (Option Nat)
  | none | some .undefined => some none
  | some v =>
    match v.values with
    | [] => none
    | s :: _ => if isDigits s.toList then some (some (Nat.ofDigitChars 10 s.toList 0)) else none

/-- The total, if no chunk takes it over the limit: `readBoundedBody`, and the loop over `bodyNext`. -/
def readBody (limitBytes : Nat) : List Bytes → Nat → Option Nat
  | [], total => some total
  | chunk :: rest, total =>
    if limitBytes < total + chunk.length then none
    else readBody limitBytes rest (total + chunk.length)

def TRANSPORT_MAX_FRAME_BYTES : Nat := 1024 * 1024

/-- The elements that `rechunkForFrames` pushes for one chunk. -/
def rechunk (c : Bytes) : List Bytes :=
  if c.length ≤ TRANSPORT_MAX_FRAME_BYTES then [c]
  else c.take TRANSPORT_MAX_FRAME_BYTES :: rechunk (c.drop TRANSPORT_MAX_FRAME_BYTES)
termination_by c.length
decreasing_by
  rw [length_drop]
  have : 0 < TRANSPORT_MAX_FRAME_BYTES := by decide
  omega

def rechunkForFrames (chunks : List Bytes) : List Bytes := chunks.flatMap rechunk

def PROXY_PATH_PREFIX : List Char := "/wpk1/ports/proxy/".toList

def proxyPath (remotePort : Nat) (requestUrl : List Char) : List Char :=
  let suffix := if requestUrl.head? = some '/' then requestUrl else '/' :: requestUrl
  PROXY_PATH_PREFIX ++ Nat.toDigits 10 remotePort ++ suffix

def localhost (remotePort : Nat) : HttpHeader := ⟨"host", s!"localhost:{remotePort}"⟩

/-- The loop of `buildFetchRequestHeaders`: `out` and `hasHost`. -/
def rewriteHost (remotePort : Nat) : List HttpHeader → Bool → List HttpHeader × Bool
  | [], hasHost => ([], hasHost)
  | h :: rest, hasHost =>
    let n := jsLowerCase h.name
    if n = "host" then
      let (out, seen) := rewriteHost remotePort rest true
      (if hasHost then out else localhost remotePort :: out, seen)
    else if n = "content-length" then rewriteHost remotePort rest hasHost
    else
      let (out, seen) := rewriteHost remotePort rest hasHost
      (h :: out, seen)

def buildFetchRequestHeaders (nodeHeaders : NodeObject) (remotePort total : Nat)
    (hadBodyIndication : Bool) : List HttpHeader :=
  let (out, hasHost) :=
    rewriteHost remotePort (forwardRequestHeaders (nodeHeadersToArray nodeHeaders)) false
  let out := if hasHost then out else localhost remotePort :: out
  if hadBodyIndication || 0 < total then out ++ [⟨"content-length", toString total⟩] else out

/-- `content-length` or `transfer-encoding` announces a body. -/
def LocalRequest.announced (req : LocalRequest) : Bool :=
  req.headers.own.contains "content-length" || req.headers.own.contains "transfer-encoding"

/-- `handle` up to the fetch: `ticket` and `session` say whether there is a place in the budget and
a session to the peer. -/
def handle (remotePort limitBytes : Nat) (ticket session : Bool) (req : LocalRequest) :
    Except LocalEnd FetchRequest :=
  match parseContentLength req.headers.own["content-length"]? with
  | none => .error (.answered 400 "invalid-content-length")
  | some contentLength =>
    if contentLength.any (limitBytes < ·) then .error (.answered 413 "body-too-large")
    else if ticket = false then .error (.answered 429 "concurrency-budget-exhausted")
    else
      match readBody limitBytes req.chunks 0 with
      | none => .error .destroyed
      | some total =>
        if session = false then .error (.answered 502 "peer-unavailable")
        else .ok
          { method := req.method
            path := proxyPath remotePort req.target
            headers := buildFetchRequestHeaders req.headers.own remotePort total req.announced
            body := if 0 < total then some (rechunkForFrames req.chunks) else none }

/-! ## The provider -/

def isLineTerminator (c : Char) : Bool :=
  c = '\n' || c = '\r' || c = '\u2028' || c = '\u2029'

/-- `PROXY_PATH_RE`: up to five digits, then the end or a slash and no line terminator. -/
def parseProxyPath (requestPath : List Char) : Option (Nat × List Char) :=
  if PROXY_PATH_PREFIX.isPrefixOf requestPath then
    let rest := requestPath.drop PROXY_PATH_PREFIX.length
    let digits := rest.takeWhile Char.isDigit
    let suffix := rest.dropWhile Char.isDigit
    if digits = [] ∨ 5 < digits.length then none
    else if suffix ≠ [] ∧ (suffix.head? ≠ some '/' ∨ suffix.any isLineTerminator) then none
    else
      let remotePort := Nat.ofDigitChars 10 digits 0
      if isValidPort remotePort then some (remotePort, if suffix = [] then ['/'] else suffix)
      else none
  else none

structure HandlerRequest where
  method : String
  path : List Char
  headers : List HttpHeader
  chunks : List Bytes

structure UpstreamRequest where
  port : Nat
  method : String
  path : List Char
  headers : NodeObject
  chunks : List Bytes

/-- `portsProxyHandler` up to the request it makes; `allowed` is what the ledger says of a port, if
it can be read. -/
def portsProxyHandler (limitBytes : Nat) (allowed : Nat → Option Bool) (req : HandlerRequest) :
    Except (Nat × String) UpstreamRequest :=
  match parseProxyPath req.path with
  | none => .error (404, "not-found")
  | some (remotePort, upstreamPath) =>
    match allowed remotePort with
    | none => .error (500, "allowlist-unavailable")
    | some false => .error (403, "access-denied")
    | some true =>
      let contentLengthHeader := headerValue req.headers "content-length"
      if contentLengthHeader.any fun v =>
          isDigits v.toList && limitBytes < Nat.ofDigitChars 10 v.toList 0 then
        .error (413, "body-too-large")
      else
        match readBody limitBytes req.chunks 0 with
        | none => .error (413, "body-too-large")
        | some total =>
          let upstreamHeaders :=
            (arrayHeadersToNode (forwardRequestHeaders req.headers)).erase "content-length"
          .ok
            { port := remotePort
              method := req.method
              path := upstreamPath
              headers :=
                if 0 < total || contentLengthHeader.isSome then
                  upstreamHeaders.insert "content-length" (.single (toString total))
                else upstreamHeaders
              chunks := req.chunks }

/-- The head that `sendHead` writes for the headers of the upstream response. -/
def localHead (response : NodeHeaders) : NodeObject :=
  arrayHeadersToNode
    (forwardResponseHeaders (forwardResponseHeaders (nodeHeadersToArray response.own)))

/-! ## What is to hold -/

/-- A request that is served, over a transport that cuts the body anew, and what it is answered. -/
structure ProxyCall where
  remotePort : Nat
  validPort : isValidPort remotePort = true
  limitBytes : Nat
  providerLimit : Nat
  request : LocalRequest
  slash : request.target.head? = some '/'
  oneLine : ∀ c ∈ request.target, isLineTerminator c = false
  fits : request.total ≤ limitBytes ∧ request.total ≤ providerLimit
  framed : parseContentLength request.headers.own["content-length"]? = some none ∨
    parseContentLength request.headers.own["content-length"]? = some (some request.total)
  pull : List Bytes → List Bytes
  pull_flatten : ∀ body, (pull body).flatten = body.flatten
  response : NodeHeaders

namespace ProxyCall

def upstream (c : ProxyCall) : Option UpstreamRequest :=
  match handle c.remotePort c.limitBytes true true c.request with
  | .error _ => none
  | .ok f =>
    (portsProxyHandler c.providerLimit (fun _ => some true)
      ⟨f.method, f.path, f.headers, c.pull (f.body.getD [])⟩).toOption

structure RequestTransparent (c : ProxyCall) (u : UpstreamRequest) : Prop where
  port : u.port = c.remotePort
  method : u.method = c.request.method
  path : u.path = c.request.target
  body : u.chunks.flatten = c.request.chunks.flatten
  host : u.headers["host"]? = some (.single s!"localhost:{c.remotePort}")
  contentLength : u.headers["content-length"]? =
    if c.request.announced || 0 < c.request.total then some (.single (toString c.request.total))
    else none
  hopByHop : ∀ name, isHopByHop name → u.headers[name]? = none
  other : ∀ name, name ≠ "host" → name ≠ "content-length" → isHopByHop name = false →
    u.headers[name]? = c.request.headers.own[name]?

structure ResponseTransparent (response : NodeHeaders) (out : NodeObject) : Prop where
  server : out["server"]? = some (.single SERVER_ECHO)
  dropped : ∀ name, name ≠ "server" → echoes name = false → out[name]? = none
  other : ∀ name, echoes name → out[name]? = response.own[name]?

def Transparent (c : ProxyCall) : Prop :=
  (∃ u, c.upstream = some u ∧ RequestTransparent c u) ∧
    ResponseTransparent c.response (localHead c.response)

end ProxyCall

/-! ## The values of a name -/

def valuesOf (name : String) (headers : List HttpHeader) : List String :=
  (headers.filter fun h => jsLowerCase h.name = name).map HttpHeader.value

section

variable {name value : String} {headers : List HttpHeader}

theorem jsLowerCase_idem (name : String) : jsLowerCase (jsLowerCase name) = jsLowerCase name := by
  rw [jsLowerCase, jsLowerCase, String.toList_ofList, List.map_map]
  exact congrArg String.ofList (map_congr_left fun c _ => jsLower_jsLower c)

theorem isHopByHop_lower (name : String) : isHopByHop (jsLowerCase name) = isHopByHop name := by
  rw [isHopByHop, jsLowerCase_idem, isHopByHop]

theorem echoes_lower (name : String) : echoes (jsLowerCase name) = echoes name := by
  rw [echoes, jsLowerCase_idem, echoes]

theorem valuesOf_cons (h : HttpHeader) (headers : List HttpHeader) :
    valuesOf name (h :: headers)
      = if jsLowerCase h.name = name then h.value :: valuesOf name headers
        else valuesOf name headers := by
  rw [valuesOf, filter_cons]
  split <;> simp_all [valuesOf]

theorem valuesOf_append (a b : List HttpHeader) :
    valuesOf name (a ++ b) = valuesOf name a ++ valuesOf name b := by
  rw [valuesOf, filter_append, map_append, valuesOf, valuesOf]

/-- A filter that does not look at the case keeps all values of a name, or none. -/
theorem valuesOf_filter {p : String → Bool} (hp : ∀ name, p (jsLowerCase name) = p name) :
    valuesOf name (headers.filter fun h => p h.name)
      = if p name then valuesOf name headers else [] := by
  rw [valuesOf, List.filter_filter]
  split
  · next hyes =>
    refine congrArg _ (filter_congr fun h _ => ?_)
    by_cases hname : jsLowerCase h.name = name
    · rw [← hname, hp] at hyes
      simp [hname, hyes]
    · simp [hname]
  · next hno =>
    rw [map_eq_nil_iff, filter_eq_nil_iff]
    intro h _ hboth
    simp only [Bool.and_eq_true, decide_eq_true_eq] at hboth
    exact hno (by rw [← hboth.1, hp, hboth.2])

theorem valuesOf_request (headers : List HttpHeader) :
    valuesOf name (forwardRequestHeaders headers)
      = if isHopByHop name then [] else valuesOf name headers := by
  rw [forwardRequestHeaders, @valuesOf_filter _ _ (fun n => !isHopByHop n)
    fun n => congrArg _ (isHopByHop_lower n)]
  cases isHopByHop name <;> rfl

theorem valuesOf_response (headers : List HttpHeader) :
    valuesOf name (forwardResponseHeaders headers)
      = (if echoes name then valuesOf name headers else [])
        ++ if name = "server" then [SERVER_ECHO] else [] := by
  rw [forwardResponseHeaders, valuesOf_append, valuesOf_filter echoes_lower, valuesOf_cons,
    show jsLowerCase "server" = "server" by decide]
  exact congrArg _ (if_congr eq_comm rfl rfl)

theorem headerValue_eq (hname : jsLowerCase name = name) :
    headerValue headers name = (valuesOf name headers).head? := by
  rw [headerValue, valuesOf, head?_map, head?_filter, hname]

theorem valuesOf_entry (v : NodeValue) (n : String) (hn : jsLowerCase n = n) :
    valuesOf name (v.values.map fun value => ⟨n, value⟩) = if n = name then v.values else [] := by
  rw [valuesOf, List.filter_map, List.map_map]
  split
  · next heq => simp [Function.comp_def, hn.trans heq]
  · next hne => simp [Function.comp_def, hn, hne]

theorem valuesOf_entries {entries : List (String × NodeValue)} {v : NodeValue}
    (hlower : ∀ e ∈ entries, jsLowerCase e.1 = e.1) (hkeys : (entries.map Prod.fst).Nodup)
    (hmem : (name, v) ∈ entries) : valuesOf name (entriesToArray entries) = v.values := by
  obtain ⟨pre, post, rfl⟩ := append_of_mem hmem
  rw [map_append, map_cons, nodup_middle, nodup_cons] at hkeys
  have hnone : ∀ l : List (String × NodeValue), l ⊆ pre ++ post →
      valuesOf name (entriesToArray l) = [] := by
    intro l hl
    rw [valuesOf, map_eq_nil_iff, filter_eq_nil_iff]
    intro h hh
    obtain ⟨e, he, hv⟩ := mem_flatMap.mp hh
    obtain ⟨value, -, rfl⟩ := List.mem_map.mp hv
    have hin := hl he
    rw [decide_eq_true_eq, hlower e (by simp only [mem_append, mem_cons] at hin ⊢; tauto)]
    intro heq
    refine hkeys.1 ?_
    rw [← map_append]
    exact List.mem_map.mpr ⟨e, hin, heq⟩
  rw [entriesToArray, flatMap_append, flatMap_cons, valuesOf_append, valuesOf_append,
    valuesOf_entry _ _ (hlower _ hmem), if_pos rfl]
  have hpre := hnone pre (subset_append_left pre post)
  have hpost := hnone post (subset_append_right pre post)
  rw [entriesToArray] at hpre hpost
  rw [hpre, hpost, nil_append, append_nil]

/-- The array has the values of the object. -/
theorem NodeHeaders.valuesOf_eq (m : NodeHeaders) (name : String) :
    valuesOf name (nodeHeadersToArray m.own) = (m.own[name]?.map NodeValue.values).getD [] := by
  have hlower : ∀ e ∈ m.own.toList, jsLowerCase e.1 = e.1 := fun e he =>
    m.lower e.1 (mem_iff_isSome_getElem?.mpr
      (isSome_of_eq_some (mem_toList_iff_getElem?_eq_some.mp he)))
  cases hget : m.own[name]? with
  | some v =>
    refine valuesOf_entries hlower ?_ (mem_toList_iff_getElem?_eq_some.mpr hget)
    exact pairwise_map.mpr ((distinct_keys_toList (t := m.own)).imp
      fun hne heq => hne (by rw [heq]; exact ReflCmp.compare_self))
  | none =>
    rw [valuesOf, map_none, getD_none, map_eq_nil_iff, filter_eq_nil_iff]
    intro h hh
    obtain ⟨e, he, hv⟩ := mem_flatMap.mp hh
    obtain ⟨value, -, rfl⟩ := List.mem_map.mp hv
    rw [decide_eq_true_eq, hlower e he]
    rintro rfl
    rw [mem_toList_iff_getElem?_eq_some.mp he] at hget
    cases hget

/-! ## Array to object -/

/-- What a further value of a name makes of its property. -/
def addValue (name : String) (held : Option NodeValue) (value : String) : Option NodeValue :=
  if name = "__proto__" then held else some (assigned name held value)

theorem getElem?_addHeader (out : NodeObject) (h : HttpHeader) (name : String) :
    (addHeader out h)[name]? =
      if jsLowerCase h.name = name then addValue name out[name]? h.value else out[name]? := by
  rw [addHeader, setMember, addValue]
  by_cases hname : jsLowerCase h.name = name
  · rw [if_pos hname, hname]
    split
    · rfl
    · exact getElem?_insert_self
  · rw [if_neg hname]
    split
    · rfl
    · rw [ExtTreeMap.getElem?_insert, if_neg (mt LawfulEqCmp.eq_of_compare hname)]

/-- **Every value goes to its own name**, and what an object inherits under it goes before. -/
theorem getElem?_arrayHeadersToNode (headers : List HttpHeader) (name : String) :
    (arrayHeadersToNode headers)[name]? = (valuesOf name headers).foldl (addValue name) none := by
  have hrun : ∀ out : NodeObject, (headers.foldl addHeader out)[name]?
      = (valuesOf name headers).foldl (addValue name) out[name]? := by
    induction headers with
    | nil => exact fun out => rfl
    | cons h rest ih =>
      intro out
      rw [foldl_cons, ih, getElem?_addHeader, valuesOf_cons]
      split <;> rfl
  rw [arrayHeadersToNode, hrun]
  rfl

theorem foldl_cookies (existing values : List String) :
    values.foldl (addValue "set-cookie") (some (.many existing))
      = some (.many (existing ++ values)) := by
  induction values generalizing existing with
  | nil => rw [append_nil]; rfl
  | cons v vs ih => rw [foldl_cons, append_cons, ← ih]; rfl

/-- **A property survives the array and the way back** unless every object has a member of its
name. -/
theorem foldl_values_iff (m : NodeHeaders) (name : String) :
    ((m.own[name]?.map NodeValue.values).getD []).foldl (addValue name) none = m.own[name]? ↔
      (name ∈ m.own → objectMember name = none) := by
  rw [mem_iff_isSome_getElem?]
  cases hget : m.own[name]? with
  | none => simp
  | some value =>
    have hshape := m.shape name value hget
    split at hshape
    · next hcookie =>
      obtain ⟨v, vs, rfl⟩ := hshape
      subst hcookie
      exact iff_of_true (foldl_cookies [v] vs) fun _ => by decide
    · next hcookie =>
      obtain ⟨v, rfl⟩ := hshape
      simp only [map_some, getD_some, NodeValue.values, foldl_cons,
        foldl_nil, isSome_some, true_imp_iff]
      have htext : memberText name none = objectMember name := rfl
      simp only [addValue, assigned, if_neg hcookie, htext]
      cases hmember : objectMember name with
      | none =>
        have hproto : name ≠ "__proto__" := by
          rintro rfl
          cases hmember
        exact iff_of_true (if_neg hproto) rfl
      | some text =>
        refine iff_of_false (fun h => ?_) (some_ne_none text)
        split at h
        · cases h
        · -- the text of the member stands before the value
          injection some.inj h with h
          have hlen := congrArg String.length h
          simp only [String.length_append] at hlen
          have : (", " : String).length = 2 := rfl
          omega

theorem readBody_eq {limitBytes : Nat} {chunks : List Bytes} {total : Nat}
    (h : total + chunks.flatten.length ≤ limitBytes) :
    readBody limitBytes chunks total = some (total + chunks.flatten.length) := by
  induction chunks generalizing total with
  | nil => rfl
  | cons c rest ih =>
    rw [flatten_cons, length_append] at h ⊢
    rw [readBody, if_neg (by omega), ih (by omega), Nat.add_assoc]

theorem rechunk_flatten (c : Bytes) : (rechunk c).flatten = c := by
  fun_induction rechunk c with
  | case1 c hle => exact append_nil c
  | case2 c hgt ih => rw [flatten_cons, ih, take_append_drop]

theorem rechunkForFrames_flatten (chunks : List Bytes) :
    (rechunkForFrames chunks).flatten = chunks.flatten := by
  induction chunks with
  | nil => rfl
  | cons c rest ih =>
    rw [rechunkForFrames, flatMap_cons, flatten_append, rechunk_flatten,
      flatten_cons, ← ih, rechunkForFrames]

theorem isDigit_toDigits (n : Nat) : ∀ ch ∈ Nat.toDigits 10 n, ch.isDigit :=
  fun _ => Nat.isDigit_of_mem_toDigits (by decide) (by decide)

theorem parse_proxyPath {port : Nat} {target : List Char} (hport : isValidPort port = true)
    (hslash : target.head? = some '/') (hline : ∀ c ∈ target, isLineTerminator c = false) :
    parseProxyPath (proxyPath port target) = some (port, target) := by
  obtain ⟨rest, rfl⟩ : ∃ rest, target = '/' :: rest := by
    cases target with
    | nil => cases hslash
    | cons c rest => exact ⟨rest, by rw [some.inj hslash]⟩
  have hdigits := isDigit_toDigits port
  have hlen : (Nat.toDigits 10 port).length ≤ 5 :=
    (Nat.length_toDigits_le_iff (by decide) (by decide)).mpr (by
      have := (of_decide_eq_true hport).2
      rw [MAX_PORT] at this
      omega)
  have htake : (Nat.toDigits 10 port ++ '/' :: rest).takeWhile Char.isDigit
      = Nat.toDigits 10 port := by
    rw [takeWhile_append_of_pos hdigits, takeWhile_cons_of_neg (by decide),
      append_nil]
  have hdrop : (Nat.toDigits 10 port ++ '/' :: rest).dropWhile Char.isDigit = '/' :: rest := by
    rw [dropWhile_append_of_pos hdigits, dropWhile_cons_of_neg (by decide)]
  simp only [proxyPath, head?_cons, if_true]
  rw [parseProxyPath, append_assoc, if_pos (by simp),
    drop_left]
  dsimp only
  rw [htake, hdrop, if_neg (by simp [Nat.toDigits_ne_nil, hlen]), if_neg,
    Nat.ofDigitChars_ten_toDigits, if_pos hport, if_neg (cons_ne_nil _ _)]
  rintro ⟨-, hhead | hany⟩
  · exact hhead rfl
  · obtain ⟨c, hc, hterm⟩ := List.any_eq_true.mp hany
    rw [hline c hc] at hterm
    cases hterm

theorem rewriteHost_spec (port : Nat) (headers : List HttpHeader) (hasHost : Bool) :
    (rewriteHost port headers hasHost).2 = (hasHost || !(valuesOf "host" headers).isEmpty) ∧
    valuesOf name (rewriteHost port headers hasHost).1 =
      if name = "host" then
        if hasHost || (valuesOf "host" headers).isEmpty then [] else [s!"localhost:{port}"]
      else if name = "content-length" then [] else valuesOf name headers := by
  have hhost : jsLowerCase "host" = "host" := by decide
  induction headers generalizing hasHost with
  | nil => cases hasHost <;> simp [rewriteHost, valuesOf]
  | cons h rest ih =>
    rw [rewriteHost, @valuesOf_cons "host" h rest]
    by_cases hn : jsLowerCase h.name = "host"
    · obtain ⟨hseen, hvals⟩ := ih true
      simp only [if_pos hn, hseen, isEmpty_cons, Bool.true_or, Bool.not_false, Bool.or_true,
        true_and]
      cases hasHost with
      | true => grind [valuesOf_cons]
      | false => grind [valuesOf_cons, localhost]
    · obtain ⟨hseen, hvals⟩ := ih hasHost
      by_cases hl : jsLowerCase h.name = "content-length"
      · simp only [if_neg hn, if_pos hl, hseen, hvals, true_and]
        grind [valuesOf_cons]
      · simp only [if_neg hn, if_neg hl, hseen, valuesOf_cons, hvals, true_and]
        grind

theorem valuesOf_built (m : NodeHeaders) (port total : Nat) (indicated : Bool) :
    valuesOf name (buildFetchRequestHeaders m.own port total indicated)
      = if name = "host" then [s!"localhost:{port}"]
        else if name = "content-length" then
          if indicated || 0 < total then [toString total] else []
        else if isHopByHop name then [] else (m.own[name]?.map NodeValue.values).getD [] := by
  obtain ⟨hseen, hvals⟩ := @rewriteHost_spec name port
    (forwardRequestHeaders (nodeHeadersToArray m.own)) false
  have hrest := @valuesOf_request name (nodeHeadersToArray m.own)
  rw [m.valuesOf_eq] at hrest
  have hhost : jsLowerCase "host" = "host" := by decide
  have hlength : jsLowerCase "content-length" = "content-length" := by decide
  have hmiddle : ∀ headers : List HttpHeader, valuesOf name
      (if indicated || 0 < total then headers ++ [⟨"content-length", toString total⟩] else headers)
        = valuesOf name headers ++
          if name = "content-length" then if indicated || 0 < total then [toString total] else []
          else [] := by
    intro headers
    split
    · rw [valuesOf_append, valuesOf_cons, hlength]
      exact congrArg _ (if_congr eq_comm rfl rfl)
    · rw [ite_self, append_nil]
  rw [buildFetchRequestHeaders]
  dsimp only
  rw [hmiddle]
  generalize rewriteHost port (forwardRequestHeaders (nodeHeadersToArray m.own)) false = r
    at hseen hvals ⊢
  by_cases hn : name = "host"
  · subst hn
    have hne : ("host" : String) ≠ "content-length" := by decide
    rw [if_pos rfl] at hvals ⊢
    rw [if_neg hne, append_nil]
    split
    · next hhas => rw [hvals, if_neg (by simpa [hseen] using hhas)]
    · next hhas =>
      rw [valuesOf_cons, localhost, if_pos hhost, hvals, if_pos (by simpa [hseen] using hhas)]
  · rw [if_neg hn] at hvals ⊢
    have hsame : valuesOf name (if r.2 then r.1 else localhost port :: r.1) = valuesOf name r.1 := by
      split
      · rfl
      · rw [valuesOf_cons, localhost, hhost, if_neg (Ne.symm hn)]
    rw [hsame, hvals]
    split
    · rfl
    · rw [append_nil, hrest]

end

/-! ## The request that arrives -/

namespace ProxyCall

variable (c : ProxyCall)

def fetchHeaders : List HttpHeader :=
  buildFetchRequestHeaders c.request.headers.own c.remotePort c.request.total c.request.announced

def sentHeaders : NodeObject :=
  let upstreamHeaders :=
    (arrayHeadersToNode (forwardRequestHeaders c.fetchHeaders)).erase "content-length"
  if c.request.announced || 0 < c.request.total then
    upstreamHeaders.insert "content-length" (.single (toString c.request.total))
  else upstreamHeaders

theorem handle_eq : handle c.remotePort c.limitBytes true true c.request = .ok
    { method := c.request.method
      path := proxyPath c.remotePort c.request.target
      headers := c.fetchHeaders
      body := if 0 < c.request.total then some (rechunkForFrames c.request.chunks) else none } := by
  have hread : readBody c.limitBytes c.request.chunks 0 = some c.request.total := by
    rw [readBody_eq (by rw [Nat.zero_add]; exact c.fits.1), Nat.zero_add]
    rfl
  rw [handle]
  rcases c.framed with h | h
  · rw [h]
    dsimp only
    rw [hread]
    rfl
  · rw [h]
    dsimp only
    rw [if_neg (by simp [c.fits.1]), hread]
    rfl

theorem body_flatten : (c.pull ((if 0 < c.request.total then
    some (rechunkForFrames c.request.chunks) else none).getD [])).flatten
      = c.request.chunks.flatten := by
  rw [c.pull_flatten]
  split
  · exact rechunkForFrames_flatten _
  · next hzero => exact (eq_nil_of_length_eq_zero (Nat.eq_zero_of_not_pos hzero)).symm

/-- **The request is never lost**: method, path and body arrive. -/
theorem upstream_eq : c.upstream = some
    { port := c.remotePort
      method := c.request.method
      path := c.request.target
      headers := c.sentHeaders
      chunks := c.pull ((if 0 < c.request.total then
        some (rechunkForFrames c.request.chunks) else none).getD []) } := by
  have hlength : headerValue c.fetchHeaders "content-length"
      = if c.request.announced || 0 < c.request.total then some (toString c.request.total)
        else none := by
    rw [headerValue_eq (by decide), fetchHeaders, valuesOf_built, if_neg (by decide), if_pos rfl]
    split <;> rfl
  have hbody := congrArg List.length c.body_flatten
  rw [upstream, c.handle_eq]
  dsimp only
  rw [portsProxyHandler, parse_proxyPath c.validPort c.slash c.oneLine]
  dsimp only
  have hcount : c.request.total = c.request.chunks.flatten.length := rfl
  rw [hlength, readBody_eq (by rw [hbody, Nat.zero_add]; exact c.fits.2), hbody, Nat.zero_add,
    ← hcount, if_neg]
  · rw [sentHeaders]
    cases hind : c.request.announced || decide (0 < c.request.total) with
    | true => simp [Except.toOption]
    | false =>
      have hzero : ¬0 < c.request.total := by simpa using (Bool.or_eq_false_iff.mp hind).2
      simp [Except.toOption, hzero]
  · split
    · simp [Nat.toList_repr, Nat.ofDigitChars_ten_toDigits, c.fits.2]
    · simp

theorem getElem?_sentHeaders (name : String) : c.sentHeaders[name]? =
    if name = "content-length" then
      if c.request.announced || 0 < c.request.total then
        some (.single (toString c.request.total))
      else none
    else if isHopByHop name then none
    else if name = "host" then some (.single s!"localhost:{c.remotePort}")
    else ((c.request.headers.own[name]?.map NodeValue.values).getD []).foldl (addValue name) none := by
  have hback : ∀ hne : name ≠ "content-length",
      ((arrayHeadersToNode (forwardRequestHeaders c.fetchHeaders)).erase "content-length")[name]?
        = (valuesOf name (forwardRequestHeaders c.fetchHeaders)).foldl (addValue name) none := by
    intro hne
    rw [getElem?_erase, if_neg (mt LawfulEqCmp.eq_of_compare (Ne.symm hne)),
      getElem?_arrayHeadersToNode]
  rw [sentHeaders]
  by_cases hne : name = "content-length"
  · rw [if_pos hne, hne]
    split
    · exact getElem?_insert_self
    · exact getElem?_erase_self
  · rw [if_neg hne]
    refine (?_ : _ = (valuesOf name (forwardRequestHeaders c.fetchHeaders)).foldl (addValue name)
      none).trans ?_
    · split
      · rw [ExtTreeMap.getElem?_insert, if_neg (mt LawfulEqCmp.eq_of_compare (Ne.symm hne)),
          hback hne]
      · exact hback hne
    rw [valuesOf_request]
    split
    · rfl
    · next hhop =>
      rw [fetchHeaders, valuesOf_built, if_neg hne, if_neg hhop]
      split
      · next hhost =>
        rw [hhost]
        rfl
      · rfl

/-- A member of every object is no header that the proxy writes or takes away. -/
theorem ordinary_of_member {name text : String} (h : objectMember name = some text) :
    isHopByHop name = false ∧ echoes name ∧ name ≠ "host" ∧ name ≠ "content-length" := by
  have hall : ∀ name ∈ "__proto__" :: "constructor" :: OBJECT_FUNCTIONS,
      isHopByHop name = false ∧ echoes name ∧ name ≠ "host" ∧ name ≠ "content-length" := by
    decide +kernel
  refine hall name ?_
  rw [objectMember] at h
  by_contra hno
  simp only [mem_cons, not_or] at hno
  rw [if_neg hno.1, if_neg hno.2.1, if_neg hno.2.2] at h
  cases h

variable {c}

theorem requestTransparent_iff {u : UpstreamRequest} (hu : c.upstream = some u) :
    RequestTransparent c u ↔ ∀ name ∈ c.request.headers.own, objectMember name = none := by
  rw [c.upstream_eq] at hu
  cases hu
  constructor
  · intro h name hmem
    by_contra hsome
    obtain ⟨text, htext⟩ := ne_none_iff_exists'.mp hsome
    obtain ⟨hhop, -, hhost, hlength⟩ := ordinary_of_member htext
    have hother := h.other name hhost hlength hhop
    rw [getElem?_sentHeaders, if_neg hlength, if_neg (by rw [hhop]; decide), if_neg hhost] at hother
    exact hsome ((foldl_values_iff c.request.headers name).mp hother hmem)
  · intro h
    refine ⟨rfl, rfl, rfl, c.body_flatten, ?_, ?_, fun name hhop => ?_,
      fun name hhost hlength hhop => ?_⟩
    · exact c.getElem?_sentHeaders "host"
    · exact c.getElem?_sentHeaders "content-length"
    · have hlength : name ≠ "content-length" := by
        rintro rfl
        exact absurd hhop (by decide)
      exact (c.getElem?_sentHeaders name).trans ((if_neg hlength).trans (if_pos hhop))
    · dsimp only
      rw [getElem?_sentHeaders, if_neg hlength, if_neg (by rw [hhop]; decide), if_neg hhost]
      exact (foldl_values_iff c.request.headers name).mpr (h name)

theorem getElem?_localHead (response : NodeHeaders) (name : String) :
    (localHead response)[name]? =
      if name = "server" then some (.single SERVER_ECHO)
      else if echoes name then
        ((response.own[name]?.map NodeValue.values).getD []).foldl (addValue name) none
      else none := by
  rw [localHead, getElem?_arrayHeadersToNode, valuesOf_response, valuesOf_response,
    response.valuesOf_eq]
  by_cases hserver : name = "server"
  · subst hserver
    rfl
  · rw [if_neg hserver, if_neg hserver]
    split <;> simp

theorem responseTransparent_iff (response : NodeHeaders) :
    ResponseTransparent response (localHead response) ↔
      ∀ name ∈ response.own, objectMember name = none := by
  have hserver : ∀ name, echoes name → name ≠ "server" := by
    rintro name hechoes rfl
    exact absurd hechoes (by decide)
  constructor
  · intro h name hmem
    by_contra hsome
    obtain ⟨text, htext⟩ := ne_none_iff_exists'.mp hsome
    obtain ⟨-, hechoes, -⟩ := ordinary_of_member htext
    have hother := h.other name hechoes
    rw [getElem?_localHead, if_neg (hserver name hechoes), if_pos hechoes] at hother
    exact hsome ((foldl_values_iff response name).mp hother hmem)
  · intro h
    refine ⟨getElem?_localHead response "server", fun name hne hechoes => ?_, fun name hechoes => ?_⟩
    · rw [getElem?_localHead, if_neg hne, if_neg (by rw [hechoes]; decide)]
    · rw [getElem?_localHead, if_neg (hserver name hechoes), if_pos hechoes]
      exact (foldl_values_iff response name).mpr (h name)

end ProxyCall

/-- **What the proxy passes on is what it was given**, but for the headers it is to write or take
away, exactly if no header of the request or the response is named like a member of every object:
`constructor`, `__proto__`. -/
theorem port_proxy_transparent_iff (c : ProxyCall) : c.Transparent ↔
    (∀ name ∈ c.request.headers.own, objectMember name = none) ∧
      ∀ name ∈ c.response.own, objectMember name = none := by
  rw [ProxyCall.Transparent, ProxyCall.responseTransparent_iff]
  refine and_congr_left fun _ => ?_
  constructor
  · rintro ⟨u, hu, h⟩
    exact (ProxyCall.requestTransparent_iff hu).mp h
  · exact fun h => ⟨_, c.upstream_eq, (ProxyCall.requestTransparent_iff c.upstream_eq).mpr h⟩

/-! ## A header `constructor` -/

namespace SampleProxy

def headers : NodeHeaders where
  own := (∅ : NodeObject).insert "constructor" (.single "a")
  lower := by
    intro name hmem
    rw [ExtTreeMap.mem_insert] at hmem
    rcases hmem with heq | hmem
    · rw [← LawfulEqCmp.eq_of_compare heq]
      decide
    · exact absurd hmem not_mem_empty
  shape := by
    intro name value hget
    rcases getElem?_insert_cases hget with ⟨rfl, rfl⟩ | ⟨-, hget⟩
    · exact ⟨"a", rfl⟩
    · cases hget

/-- `GET /` to the port 8080, answered without a header. -/
def call : ProxyCall where
  remotePort := 8080
  validPort := by decide
  limitBytes := 1048576
  providerLimit := 1048576
  request := { method := "GET", target := ['/'], headers := headers, chunks := [] }
  slash := rfl
  oneLine := forall_mem_singleton.mpr (by decide)
  fits := ⟨Nat.zero_le _, Nat.zero_le _⟩
  framed := Or.inl rfl
  pull := id
  pull_flatten := fun _ => rfl
  response := ⟨∅, fun _ h => absurd h not_mem_empty, nofun⟩

/-- The text of a function comes before the value. -/
theorem constructor_is_read : ¬call.Transparent ∧
    call.sentHeaders["constructor"]? = some (.single "function Object() { [native code] }, a") := by
  refine ⟨?_, by decide +kernel⟩
  rintro ⟨⟨u, hu, h⟩, -⟩
  have hnone := (ProxyCall.requestTransparent_iff hu).mp h "constructor" ExtTreeMap.mem_insert_self
  exact absurd hnone (by decide)

end SampleProxy

end Ports

end Dweb
