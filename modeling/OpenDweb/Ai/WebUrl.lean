import OpenDweb.Lib.DotSegments
import OpenDweb.Lib.JsText

/-!
# OpenDweb — URLs of the web

`URL`, for `http:` and `https:`: an input is cleaned and split into authority, path, query and
fragment, and in the path dot segments are resolved, also percent-encoded ones.

* **`UrlPlatform`** — what is left to the platform: to read an authority, and other schemes.
* **`urlSegments`** — the segments of a path, before they are resolved.
* **`parseAbsolute`** — `new URL(input)`; **`parseReference`** — `new URL(input, base)`, for inputs
  with a slash in front.
* **`IsUrlSegment`** — what a segment of a parsed URL looks like.
-/

namespace Dweb

/-! ## Characters -/

def isC0OrSpace (c : Char) : Bool := c.toNat ≤ 0x20

def isTabOrNewline (c : Char) : Bool := c = '\t' || c = '\n' || c = '\r'

def cleanUrlInput (input : List Char) : List Char :=
  ((input.dropWhile isC0OrSpace).reverse.dropWhile isC0OrSpace).reverse.filter
    (!isTabOrNewline ·)

def isUrlSlash (c : Char) : Bool := c = '/' || c = '\\'

def endsUrlPath (c : Char) : Bool := c = '?' || c = '#'

def isControlOrBeyond (c : Char) : Bool := c.toNat ≤ 0x1F || 0x7E < c.toNat

def inPathSet (c : Char) : Bool := isControlOrBeyond c || " \"#<>?^`\x7b\x7d".toList.contains c

def inQuerySet (c : Char) : Bool := isControlOrBeyond c || " \"#<>\x27".toList.contains c

def inFragmentSet (c : Char) : Bool := isControlOrBeyond c || " \"<>`".toList.contains c

def percentByte (b : UInt8) : List Char :=
  let digit := fun n => (Nat.digitChar n).toUpper
  ['%', digit (b.toNat / 16), digit (b.toNat % 16)]

def percentEncode (inSet : Char → Bool) (text : List Char) : List Char :=
  text.flatMap fun c => if inSet c then (String.utf8EncodeChar c).flatMap percentByte else [c]

/-! ## Paths -/

def urlKind (seg : List Char) : SegmentKind :=
  let lower := String.ofList (seg.map Char.toLower)
  if lower = "." ∨ lower = "%2e" then .dot
  else if lower = ".." ∨ lower = ".%2e" ∨ lower = "%2e." ∨ lower = "%2e%2e" then .dotDot
  else .name

def urlSegments (text : List Char) : List (List Char) :=
  (text.splitOnP isUrlSlash).map (percentEncode inPathSet)

/-! ## URLs -/

structure UrlAuthority where
  username : List Char
  password : List Char
  hostname : List Char
  port : Option Nat
deriving DecidableEq

structure WebUrl where
  scheme : List Char
  authority : UrlAuthority
  path : List (List Char)
  query : Option (List Char)
  fragment : Option (List Char)
deriving DecidableEq

namespace WebUrl

def host (url : WebUrl) : List Char :=
  match url.authority.port with
  | none => url.authority.hostname
  | some port => url.authority.hostname ++ ':' :: Nat.toDigits 10 port

def origin (url : WebUrl) : List Char := url.scheme ++ "://".toList ++ url.host

def pathname (url : WebUrl) : List Char := url.path.flatMap ('/' :: ·)

end WebUrl

structure UrlPlatform where
  authority : List Char → List Char → Option UrlAuthority
  isOther : List Char → Bool

def splitUrlTail (text : List Char) : List Char × Option (List Char) × Option (List Char) :=
  let path := text.takeWhile (!endsUrlPath ·)
  match text.dropWhile (!endsUrlPath ·) with
  | [] => (path, none, none)
  | '?' :: tail =>
    match tail.dropWhile (· ≠ '#') with
    | [] => (path, some tail, none)
    | _ :: fragment => (path, some (tail.takeWhile (· ≠ '#')), some fragment)
  | _ :: fragment => (path, none, some fragment)

/-- `text` is what follows the first slash of the path. -/
def buildUrl (scheme : List Char) (authority : UrlAuthority) (text : List Char) : WebUrl :=
  let (path, query, fragment) := splitUrlTail text
  ⟨scheme, authority, resolvePath urlKind [] (urlSegments path),
    query.map (percentEncode inQuerySet), fragment.map (percentEncode inFragmentSet)⟩

section

variable (platform : UrlPlatform)

/-- The authority, and what follows the first slash behind it. -/
def readAuthority (scheme text : List Char) : Option (UrlAuthority × List Char) :=
  let ends := fun c => isUrlSlash c || endsUrlPath c
  let text := text.dropWhile isUrlSlash
  let tail := text.dropWhile (!ends ·)
  (platform.authority scheme (text.takeWhile (!ends ·))).map fun authority =>
    (authority, if tail.head?.any isUrlSlash then tail.tail else tail)

def parseAbsolute (input : List Char) : Option WebUrl :=
  let text := cleanUrlInput input
  let scheme := (text.takeWhile (· ≠ ':')).map Char.toLower
  (readAuthority platform scheme (text.dropWhile (· ≠ ':')).tail).map fun (authority, tail) =>
    buildUrl scheme authority tail

def readReference (base : WebUrl) (text : List Char) : Option (UrlAuthority × List Char) :=
  match text with
  | [] => none
  | _ :: tail =>
    if tail.head?.any isUrlSlash then readAuthority platform base.scheme tail
    else some (base.authority, tail)

def parseReference (input : List Char) (base : WebUrl) : Option WebUrl :=
  (readReference platform base (cleanUrlInput input)).map fun (authority, tail) =>
    buildUrl base.scheme authority tail

end

end Dweb
