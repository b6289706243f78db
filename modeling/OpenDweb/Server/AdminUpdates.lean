import OpenDweb.Lib.SnapshotService
import OpenDweb.Server.Codes
import OpenDweb.Server.Visitor

/-!
# OpenDweb — editing owners and visitors over the admin API

Embedding of the handlers of `dweb-server/src/access/admin/roles.rs` that edit what is already
registered: `patch_owner_metadata`, `renew_owner`, `patch_visitor_metadata`. Each loads the
published snapshot, merges the body into what it finds there, and hands final values to the
registry, which writes them under its own lock.

* **`patchOwnerMetadata`**, **`renewOwner`**, **`patchVisitorMetadata`** — with the snapshot they
  loaded as an argument of its own.
* **`AdminLedgers.service`** — any number of such calls over the two ledgers.
* **`Unaltered`** — what a call left out of its body, or counts from, is still what it loaded.
-/

namespace Dweb

namespace Admin

open Std (ExtTreeMap)

def ALIAS_MAX_BYTES : Nat := 32
def NOTE_MAX_BYTES : Nat := 256
def DAY_MS : UInt64 := 24 * 3600000

/-- `AdminError`; the text of an id that does not parse is `{label}: {e}`. -/
inductive AdminError where
  | invalidRequest (message : String)
  | invalidId (label : String) (e : IdError)
  | registry (message : String)
  | noMatch (message : String)
  deriving DecidableEq

/-! ## Checks and merges -/

def parseHexId (value label : String) : Except AdminError (BytesN 32) :=
  (parseOwnerHex value).mapError (.invalidId label)

/-- `validate_opt_len`. -/
def validateOptLen (value : Option String) (max : Nat) (label : String) :
    Except AdminError Unit :=
  match value with
  | some v =>
    if max < (utf8Bytes v).length then
      .error (.invalidRequest
        s!"{label} must be <= {max} UTF-8 bytes, got {(utf8Bytes v).length}")
    else .ok ()
  | none => .ok ()

/-- `u64::checked_mul`. -/
def checkedMul (a b : UInt64) : Option UInt64 :=
  if a.toNat * b.toNat < 2 ^ 64 then some (a * b) else none

/-- `expires_at_from_days`. -/
def expiresAtFromDays (days base : UInt64) : Except AdminError UInt64 :=
  if days < 1 then .error (.invalidRequest "expires_in_days must be >= 1 (0 is invalid)")
  else
    match (checkedMul days DAY_MS).bind fun ms => checkedAdd base ms with
    | none => .error (.invalidRequest "expires_at overflow")
    | some expiresAt => .ok expiresAt

/-- `merge_meta_field`: an empty text clears, an absent one keeps. -/
def mergeMetaField (incoming existing : Option String) : Option String :=
  match incoming with
  | some s => if s.isEmpty then none else some s
  | none => existing

structure MetaBody where
  aliasName : Option String
  note : Option String

structure RenewBody where
  expiresInDays : Option UInt64
  permanent : Option Bool

/-- `require_meta_body`, and the two lengths. -/
def checkMetaBody (body : MetaBody) : Except AdminError Unit := do
  if body.aliasName.isNone && body.note.isNone then
    throw (.invalidRequest "request body must specify at least one of alias or note")
  validateOptLen body.aliasName ALIAS_MAX_BYTES "alias"
  validateOptLen body.note NOTE_MAX_BYTES "note"

def noOwner (key : OwnerKey) : AdminError :=
  .noMatch (s!"no registry entry for (fabric {hexStr key.fabricId.toBytes}, "
    ++ s!"root {hexStr key.root.toBytes})")

def noVisitor (endpointId : BytesN 32) : AdminError :=
  .noMatch s!"no visitor entry for endpoint_id {hexStr endpointId.toBytes}"

/-- How a registry's answer is told: an error under `failed`, `false` as `absent`. -/
def answered (failed : String) (absent : AdminError) : Except String Bool → Except AdminError Unit
  | .error e => .error (.registry s!"{failed}: {e}")
  | .ok false => .error absent
  | .ok true => .ok ()

/-! ## Handlers

Each in two parts: what it works out from the snapshot `seen`, and the write. -/

/-- `patch_owner_metadata` up to its write: the owner and the final texts. -/
def ownerMetadata (seen : RegistrySnapshot) (fabricHex rootHex : String)
    (body : Except String MetaBody) :
    Except AdminError (OwnerKey × Option String × Option String) := do
  let body ← body.mapError .invalidRequest
  checkMetaBody body
  let fabricId ← parseHexId fabricHex "fabric_id"
  let root ← parseHexId rootHex "root"
  match seen.active[(⟨fabricId, root⟩ : OwnerKey)]? with
  | none => throw (noOwner ⟨fabricId, root⟩)
  | some existing =>
    return (⟨fabricId, root⟩, mergeMetaField body.aliasName existing.aliasName,
      mergeMetaField body.note existing.note)

def patchOwnerMetadata (seen : RegistrySnapshot) (s : OwnerRegistry) (fabricHex rootHex : String)
    (body : Except String MetaBody) (ts : UInt64) (o : Landing) :
    OwnerRegistry × Except AdminError Unit :=
  match ownerMetadata seen fabricHex rootHex body with
  | .error e => (s, .error e)
  | .ok (key, aliasName, note) =>
    let (s', result) := s.updateMetadata key.fabricId key.root aliasName note ts o
    (s', answered "owner metadata update failed" (noOwner key) result)

/-- Where a renewal of a lease counts from: its expiry, where that is still to come, else `now`. -/
def leaseBase (expiresAt : Option UInt64) (now : UInt64) : UInt64 :=
  (expiresAt.filter fun expires => now < expires).getD now

def renewBase (seen : RegistrySnapshot) (key : OwnerKey) (now : UInt64) : UInt64 :=
  leaseBase (seen.entryExpiresAt key) now

/-- `renew_owner` up to its write: the owner and the new expiry. -/
def ownerExpiry (seen : RegistrySnapshot) (fabricHex rootHex : String)
    (body : Except String RenewBody) (now : UInt64) :
    Except AdminError (OwnerKey × Option UInt64) := do
  let body ← body.mapError .invalidRequest
  if body.expiresInDays.isSome == body.permanent.isSome then
    throw (.invalidRequest
      "request body must specify exactly one of expires_in_days or permanent")
  let fabricId ← parseHexId fabricHex "fabric_id"
  let root ← parseHexId rootHex "root"
  match body.expiresInDays with
  | some days =>
    let expiresAt ← expiresAtFromDays days (renewBase seen ⟨fabricId, root⟩ now)
    return (⟨fabricId, root⟩, some expiresAt)
  -- whatever the flag says
  | none => return (⟨fabricId, root⟩, none)

def renewOwner (seen : RegistrySnapshot) (s : OwnerRegistry) (fabricHex rootHex : String)
    (body : Except String RenewBody) (now ts : UInt64) (o : Landing) :
    OwnerRegistry × Except AdminError Unit :=
  match ownerExpiry seen fabricHex rootHex body now with
  | .error e => (s, .error e)
  | .ok (key, expiresAt) =>
    let (s', result) := s.renew key.fabricId key.root expiresAt ts o
    (s', answered "owner renew failed" (noOwner key) result)

/-- `patch_visitor_metadata` up to its write. -/
def visitorMetadata (seen : ExtTreeMap (BytesN 32) VisitorEntry) (endpointHex : String)
    (body : Except String MetaBody) :
    Except AdminError (BytesN 32 × Option String × Option String) := do
  let body ← body.mapError .invalidRequest
  checkMetaBody body
  let endpointId ← parseHexId endpointHex "endpoint_id"
  match seen[endpointId]? with
  | none => throw (noVisitor endpointId)
  | some existing =>
    return (endpointId, mergeMetaField body.aliasName existing.aliasName,
      mergeMetaField body.note existing.note)

def patchVisitorMetadata (seen : ExtTreeMap (BytesN 32) VisitorEntry) (s : VisitorRegistry)
    (endpointHex : String) (body : Except String MetaBody) (ts : UInt64) (o : Landing) :
    VisitorRegistry × Except AdminError Unit :=
  match visitorMetadata seen endpointHex body with
  | .error e => (s, .error e)
  | .ok (endpointId, aliasName, note) =>
    let (s', result) := s.updateMetadata endpointId aliasName note ts o
    (s', answered "visitor metadata update failed" (noVisitor endpointId) result)

/-! ## Calls -/

inductive AdminRequest where
  | patchOwner (fabricHex rootHex : String) (body : Except String MetaBody)
  | renewOwner (fabricHex rootHex : String) (body : Except String RenewBody)
  | patchVisitor (endpointHex : String) (body : Except String MetaBody)

/-- A request, the clock as its handler starts and as it writes, and how its line lands. -/
structure AdminCall where
  request : AdminRequest
  now : UInt64
  ts : UInt64
  landing : Landing

structure AdminLedgers where
  owners : OwnerRegistry
  visitors : VisitorRegistry

structure AdminSnapshot where
  owners : RegistrySnapshot
  visitors : ExtTreeMap (BytesN 32) VisitorEntry

def AdminLedgers.snapshot (e : AdminLedgers) : AdminSnapshot :=
  { owners := e.owners.current, visitors := e.visitors.active }

def AdminCall.handle (c : AdminCall) (seen : AdminSnapshot) (e : AdminLedgers) : AdminLedgers :=
  match c.request with
  | .patchOwner fabricHex rootHex body =>
    { e with
      owners :=
        (patchOwnerMetadata seen.owners e.owners fabricHex rootHex body c.ts c.landing).1 }
  | .renewOwner fabricHex rootHex body =>
    { e with
      owners := (renewOwner seen.owners e.owners fabricHex rootHex body c.now c.ts c.landing).1 }
  | .patchVisitor endpointHex body =>
    { e with
      visitors :=
        (patchVisitorMetadata seen.visitors e.visitors endpointHex body c.ts c.landing).1 }

def AdminLedgers.service : SnapshotService AdminLedgers AdminSnapshot AdminCall where
  snapshot := AdminLedgers.snapshot
  handle := AdminCall.handle

/-! ## What a call relies on -/

def addressedOwner (fabricHex rootHex : String) : Option OwnerKey :=
  match parseOwnerHex fabricHex, parseOwnerHex rootHex with
  | .ok fabricId, .ok root => some ⟨fabricId, root⟩
  | _, _ => none

def addressedVisitor (endpointHex : String) : Option (BytesN 32) :=
  (parseOwnerHex endpointHex).toOption

def MetaBody.leftOut (body : MetaBody) (aliasName note : Option String) :
    Option String × Option String :=
  (if body.aliasName.isNone then aliasName else none, if body.note.isNone then note else none)

/-- What the call left out of its body, or counts from, is still what it loaded. -/
def Unaltered (c : AdminCall) (seen : AdminSnapshot) (e : AdminLedgers) : Prop :=
  match c.request with
  | .patchOwner fabricHex rootHex (.ok body) =>
    ∀ key ∈ addressedOwner fabricHex rootHex,
      (e.owners.current.active[key]?).map (fun m => body.leftOut m.aliasName m.note)
        = (seen.owners.active[key]?).map fun m => body.leftOut m.aliasName m.note
  | .renewOwner fabricHex rootHex (.ok { expiresInDays := some _, .. }) =>
    ∀ key ∈ addressedOwner fabricHex rootHex,
      renewBase e.owners.current key c.now = renewBase seen.owners key c.now
  | .patchVisitor endpointHex (.ok body) =>
    ∀ key ∈ addressedVisitor endpointHex,
      (e.visitors.active[key]?).map (fun v => body.leftOut v.aliasName v.note)
        = (seen.visitors[key]?).map fun v => body.leftOut v.aliasName v.note
  | _ => True

instance (c : AdminCall) (seen : AdminSnapshot) (e : AdminLedgers) :
    Decidable (Unaltered c seen e) :=
  match c with
  | ⟨.patchOwner fabricHex rootHex (.ok body), _, _, _⟩ =>
    inferInstanceAs (Decidable (∀ key ∈ addressedOwner fabricHex rootHex,
      (e.owners.current.active[key]?).map (fun m => body.leftOut m.aliasName m.note)
        = (seen.owners.active[key]?).map fun m => body.leftOut m.aliasName m.note))
  | ⟨.renewOwner fabricHex rootHex (.ok { expiresInDays := some _, .. }), now, _, _⟩ =>
    inferInstanceAs (Decidable (∀ key ∈ addressedOwner fabricHex rootHex,
      renewBase e.owners.current key now = renewBase seen.owners key now))
  | ⟨.patchVisitor endpointHex (.ok body), _, _, _⟩ =>
    inferInstanceAs (Decidable (∀ key ∈ addressedVisitor endpointHex,
      (e.visitors.active[key]?).map (fun v => body.leftOut v.aliasName v.note)
        = (seen.visitors[key]?).map fun v => body.leftOut v.aliasName v.note))
  | ⟨.patchOwner _ _ (.error _), _, _, _⟩ => .isTrue trivial
  | ⟨.renewOwner _ _ (.error _), _, _, _⟩ => .isTrue trivial
  | ⟨.renewOwner _ _ (.ok { expiresInDays := none, .. }), _, _, _⟩ => .isTrue trivial
  | ⟨.patchVisitor _ (.error _), _, _, _⟩ => .isTrue trivial

end Admin

end Dweb
