import OpenDweb.Ai.WebUrl
import OpenDweb.Lib.Text

/-!
# OpenDweb — templates and patterns of routes

`opendweb-ext-ai/src/provider/uri-template.mjs`, the variables of a query, and the syntax of match
patterns.

* **`expandUriTemplate`** — literal text, and expressions in braces.
* **`parseQueryVars`** — the variables of a query string.
* **`normalizeMatchPatternSyntax`** — groups in braces become groups with a colon.
-/

namespace Dweb

/-! ## Variables -/

def inheritedNames : List String :=
  ["__proto__", "constructor", "hasOwnProperty", "isPrototypeOf", "propertyIsEnumerable",
    "toLocaleString", "toString", "valueOf", "__defineGetter__", "__defineSetter__",
    "__lookupGetter__", "__lookupSetter__"]

/-- The entries of an object, later ones in front. -/
abbrev TemplateVars := List (List Char × Option (List Char))

def hexDigit? (c : Char) : Option Nat :=
  if '0' ≤ c ∧ c ≤ '9' then some (c.toNat - '0'.toNat)
  else if 'a' ≤ c ∧ c ≤ 'f' then some (c.toNat - 'a'.toNat + 10)
  else if 'A' ≤ c ∧ c ≤ 'F' then some (c.toNat - 'A'.toNat + 10)
  else none

def percentDecode : List Char → Option (List UInt8)
  | '%' :: high :: low :: rest => do
    let high ← hexDigit? high
    let low ← hexDigit? low
    return UInt8.ofNat (16 * high + low) :: (← percentDecode rest)
  | '%' :: _ => none
  | c :: rest => do
    return String.utf8EncodeChar c ++ (← percentDecode rest)
  | [] => some []

def decodeURIComponent (text : List Char) : Option (List Char) := do
  let bytes ← percentDecode text
  return (← utf8Text? bytes).toList

def safeDecode (value : List Char) : List Char :=
  (decodeURIComponent (value.flatMap fun c => if c = '+' then "%20".toList else [c])).getD value

def parseQueryVar (vars : TemplateVars) (pair : List Char) : TemplateVars :=
  let name := pair.takeWhile (· ≠ '=')
  if name = "__proto__".toList then vars
  else
    match pair.dropWhile (· ≠ '=') with
    | [] => if pair = [] then vars else (pair, some []) :: vars
    | _ :: value => (name, some (safeDecode value)) :: vars

def parseQueryVars (query : List Char) : TemplateVars :=
  if query = [] then [] else (query.splitOn '&').foldl parseQueryVar []

/-! ## Expressions -/

/-- `OPERATORS`. -/
structure TemplateOperator where
  first : List Char
  sep : List Char
  named : Bool
  allowReserved : Bool

def templateOperator : Char → Option TemplateOperator
  | '+' => some ⟨[], [','], false, true⟩
  | '.' => some ⟨['.'], ['.'], false, false⟩
  | '/' => some ⟨['/'], ['/'], false, false⟩
  | ';' => some ⟨[';'], [';'], true, false⟩
  | '?' => some ⟨['?'], ['&'], true, false⟩
  | '&' => some ⟨['&'], ['&'], true, false⟩
  | '#' => some ⟨['#'], [','], false, true⟩
  | _ => none

def isUnreserved (c : Char) : Bool := c.isAlphanum || "-._~".toList.contains c

def isReserved (c : Char) : Bool :=
  isUnreserved c || ":/?#[]@!$&\x27()*+,;=".toList.contains c

def encodeValue (value : List Char) (allowReserved : Bool) : List Char :=
  value.flatMap fun c =>
    if isUnreserved c || (allowReserved && isReserved c) then [c]
    else (String.utf8EncodeChar c).flatMap percentByte

/-- `replace(/:\d+$/, "")`. -/
def dropPrefixModifier (raw : List Char) : List Char :=
  let back := raw.reverse
  match back.takeWhile Char.isDigit, back.dropWhile Char.isDigit with
  | _ :: _, ':' :: name => name.reverse
  | _, _ => raw

/-- `replace(/\*$/, "")`. -/
def dropExplode (raw : List Char) : List Char :=
  if raw.getLast? = some '*' then raw.dropLast else raw

def isVariableChar (c : Char) : Bool := c.isAlphanum || c = '_' || c = '.' || c = '%'

inductive TemplateFailure where
  | template (message : String)
  | typeError
deriving DecidableEq

def parseVariable (expr raw : List Char) : Except TemplateFailure (List Char) :=
  let name := jsTrim (dropExplode (dropPrefixModifier raw))
  if name = [] ∨ ¬ name.all isVariableChar then
    .error (.template ("invalid variable name '" ++ String.ofList raw ++ "' in expression '\x7b" ++
      String.ofList expr ++ "\x7d'"))
  else .ok name

def parseExpression (expr : List Char) :
    Except TemplateFailure (TemplateOperator × List (List Char)) := do
  let op := expr.head?.bind templateOperator
  let body := if op.isSome then expr.tail else expr
  let vars ← (body.splitOn ',').mapM (parseVariable expr)
  return (op.getD ⟨[], [','], false, false⟩, vars)

/-- The text of a variable, unless it is undefined or empty. -/
def expandVariable (op : TemplateOperator) (vars : TemplateVars) (name : List Char) :
    Except TemplateFailure (List (List Char)) :=
  let part := fun raw =>
    let value := encodeValue raw op.allowReserved
    if op.named then name ++ '=' :: value else value
  match vars.lookup name with
  | none => if String.ofList name ∈ inheritedNames then .error .typeError else .ok []
  | some none => .ok []
  | some (some []) => .ok []
  | some (some raw) => .ok [part raw]

def expandExpression (vars : TemplateVars) (expr : List Char) :
    Except TemplateFailure (List Char) := do
  let (op, names) ← parseExpression expr
  let parts ← names.mapM (expandVariable op vars)
  if parts.flatten = [] then return []
  else return op.first ++ op.sep.intercalate parts.flatten

/-- `expr` is what was read of an expression. -/
def expandLoop (template : List Char) (vars : TemplateVars) :
    List Char → Option (List Char) → Except TemplateFailure (List Char)
  | [], none => .ok []
  | [], some _ =>
    .error (.template ("unbalanced '\x7b' in template '" ++ String.ofList template ++ "'"))
  | c :: rest, none =>
    if c = '{' then expandLoop template vars rest (some [])
    else do return c :: (← expandLoop template vars rest none)
  | c :: rest, some expr =>
    if c = '}' then do
      let text ← expandExpression vars expr
      return text ++ (← expandLoop template vars rest none)
    else expandLoop template vars rest (some (expr ++ [c]))

def expandUriTemplate (template : List Char) (vars : TemplateVars) :
    Except TemplateFailure (List Char) :=
  expandLoop template vars template none

/-! ## Patterns -/

/-- The name of a group in braces at the head of a text. -/
def bracedGroup (text : List Char) : Option (List Char) :=
  let isWord := fun c : Char => c.isAlphanum || c = '_'
  match text with
  | '{' :: rest =>
    let name := rest.takeWhile isWord
    if name.head?.any (fun c => !c.isDigit) ∧ (rest.dropWhile isWord).head? = some '}' then
      some name
    else none
  | _ => none

/-- `skip` characters belong to a group that has been written. -/
def normalizeLoop : Nat → List Char → List Char
  | _, [] => []
  | skip + 1, _ :: rest => normalizeLoop skip rest
  | 0, c :: rest =>
    match bracedGroup (c :: rest) with
    | some name => ':' :: name ++ normalizeLoop (name.length + 1) rest
    | none => c :: normalizeLoop 0 rest

def normalizeMatchPatternSyntax (raw : List Char) : List Char := normalizeLoop 0 raw

example : normalizeMatchPatternSyntax "/v1/\x7bmodel\x7d/x".toList = "/v1/:model/x".toList := by
  decide +kernel

end Dweb
