import OpenDweb.Ai.Limits
import OpenDweb.Lib.Except
import OpenDweb.Lib.JsText

/-!
# OpenDweb — the operations of the provider store

`ProviderStore` of `opendweb-ext-ai/src/provider/store.mjs`, up to its `save`: what each operation
checks, and what it does to the data in memory.

* **`StoreContent`** — services, groups, keys and the alias; `StoreData` adds the revision.
* **`StorePlatform`** — what the store has from outside: the checks of a service's slots (URLs,
  regular expressions, schemas, scripts) and the hash of a key.
* **`StoreOp.run`** — an operation from its call to its `save`. `none` is an answer without one.
* **`checkSave`** — the checks of `save`, against the baseline.
-/

namespace Dweb

/-! ## Data -/

inductive StoreErrorCode where
  | duplicate
  | notFound
  | invalid
  | conflict
deriving DecidableEq

structure StoreError where
  code : StoreErrorCode
  message : String
deriving DecidableEq

/-- The `auth` slot: the secret that it binds, and the rest. -/
structure AuthSlot (Auth : Type) where
  secret : Option String
  rest : Auth
deriving DecidableEq

/-- `slots` are the other fields: match rules, upstream, rewrite, scripts, routes, port. -/
structure Service (Slots Auth : Type) where
  serviceId : String
  name : String
  slots : Slots
  auth : Option (AuthSlot Auth)
  enabled : Bool
  keyEnv : Option String
deriving DecidableEq

structure ServiceGroup where
  name : String
  serviceIds : List String
  limits : Option GroupLimits
deriving DecidableEq

structure ProviderKey where
  keyId : String
  group : String
  hash : String
  name : Option String
  key : Option String
  createdAt : Nat
  revokedAt : Option Nat
deriving DecidableEq

structure StoreContent (Slots Auth : Type) where
  services : List (Service Slots Auth)
  groups : List ServiceGroup
  keys : List ProviderKey
  /-- `meta.alias`. -/
  metaAlias : Option String
deriving DecidableEq

structure StoreData (Slots Auth : Type) where
  revision : Nat
  content : StoreContent Slots Auth
deriving DecidableEq

def CATALOG_MAX_SERVICES : Nat := 256

/-- The environment and the secrets, at the time of a step. -/
structure StoreWorld where
  env : String → Bool
  secrets : String → Bool

/-- `input` of `addService`; `raw` is what becomes the slots. -/
structure ServiceInput (Raw : Type) where
  name : String
  raw : Raw
  hooks : Bool
  enabled : Option Bool
  keyEnv : Option String

structure StorePlatform (Raw Slots Auth : Type) where
  normalizeSlots : Raw → Except StoreError (Slots × Option (AuthSlot Auth))
  /-- `SERVICE_STORE_SCHEMA` and the slots' own checks. -/
  serviceSchema : Service Slots Auth → Bool
  hashKeyMaterial : String → String

section

variable {Raw Slots Auth : Type}

namespace StoreContent

variable (data : StoreContent Slots Auth)

def getService (serviceId : String) : Option (Service Slots Auth) :=
  data.services.find? (·.serviceId = serviceId)

def getServiceByName (name : String) : Option (Service Slots Auth) :=
  data.services.find? (·.name = name)

def getGroup (name : String) : Option ServiceGroup := data.groups.find? (·.name = name)

def getKey (keyId : String) : Option ProviderKey := data.keys.find? (·.keyId = keyId)

/-- The services of a group that are there, and enabled. -/
def groupServices (groupName : String) : List (Service Slots Auth) :=
  match data.getGroup groupName with
  | none => []
  | some group => (group.serviceIds.filterMap data.getService).filter (·.enabled)

/-- `#resolveServiceIds`. -/
def resolveServiceIds (serviceNames : List String) : Except StoreError (List String) :=
  serviceNames.foldlM (fun serviceIds svcName =>
    match data.getServiceByName svcName with
    | none => .error ⟨.notFound, s!"error: service '{svcName}' not found"⟩
    | some svc =>
      .ok (if svc.serviceId ∈ serviceIds then serviceIds else serviceIds ++ [svc.serviceId])) []

/-- At the first of the name, which `find` gives. -/
def setGroup (name : String) (group : ServiceGroup) : StoreContent Slots Auth :=
  { data with groups := data.groups.set (data.groups.findIdx (·.name = name)) group }

def setService (serviceId : String) (service : Service Slots Auth) : StoreContent Slots Auth :=
  { data with
    services := data.services.set (data.services.findIdx (·.serviceId = serviceId)) service }

end StoreContent

/-! ## The activation gate -/

def assertServiceActivatable (world : StoreWorld) (service : Service Slots Auth) :
    Except StoreError Unit :=
  if service.enabled = false then .ok ()
  else
    match service.keyEnv with
    | none => .ok ()
    | some keyEnv =>
      match service.auth.bind AuthSlot.secret with
      | none => .error ⟨.invalid,
          s!"error: service '{service.name}' uses preset keyEnv '{keyEnv}'; bind its " ++
          "credential via the \x7bsecret: <name>\x7d auth slot before enabling it"⟩
      | some secret =>
        if world.secrets secret = false then .error ⟨.invalid,
          s!"error: service '{service.name}' binds secret '{secret}' which is not in the " ++
          "secrets store; add it first"⟩
        else if world.env keyEnv then .error ⟨.conflict,
          s!"error: refusing to enable service '{service.name}': ambient environment variable " ++
          s!"'{keyEnv}' is set; move the credential into the secrets store and keep the " ++
          "\x7bsecret\x7d binding (values are never snapshotted from env)"⟩
        else .ok ()

/-- `securityProjection`, of a service that is enabled. -/
structure SecurityProjection (Auth : Type) where
  keyEnv : Option String
  auth : Option (AuthSlot Auth)
deriving DecidableEq

/-- `#persistedEnabled`: nothing for a service that is new, `none` for one that is disabled. -/
abbrev PersistedEnabled (Auth : Type) := String → Option (Option (SecurityProjection Auth))

def persistedEnabled (services : List (Service Slots Auth)) : PersistedEnabled Auth :=
  fun serviceId => (services.reverse.find? (·.serviceId = serviceId)).map fun s =>
    if s.enabled then some ⟨s.keyEnv, s.auth⟩ else none

variable (P : StorePlatform Raw Slots Auth)

/-- `save`, up to the revision. -/
def checkSave [DecidableEq Auth] (world : StoreWorld) (baseline : PersistedEnabled Auth)
    (data : StoreContent Slots Auth) : Except StoreError Unit := do
  data.services.forM fun service =>
    if P.serviceSchema service then .ok ()
    else .error ⟨.invalid, "error: service failed schema validation on save " ++
      "(public data mutations must stay valid)"⟩
  data.services.forM fun service =>
    if baseline service.serviceId = some (some ⟨service.keyEnv, service.auth⟩) then .ok ()
    else assertServiceActivatable world service

/-! ## Operations -/

/-- A service that was checked, but for its activation. -/
structure PreparedService (Slots Auth : Type) where
  name : String
  slots : Slots
  auth : Option (AuthSlot Auth)
  enabled : Bool
  keyEnv : Option String

/-- Random identifiers and the time of day come with the call; `pushService` is what is left of
an `addService` that has waited for its hooks. -/
inductive StoreOp (Raw Slots Auth : Type) where
  | addService (input : ServiceInput Raw) (serviceId : String)
  | pushService (prepared : PreparedService Slots Auth) (serviceId : String)
  | removeService (name : String)
  | setServiceEnabled (serviceId : String) (enabled : Bool)
  | setServiceAuth (serviceId : String) (auth : Except StoreError (Option (AuthSlot Auth)))
  | addGroup (name : String) (serviceNames : List String) (limits : Option GroupLimits)
  | setGroupServices (name : String) (serviceNames : List String)
  | setGroupLimits (name : String) (limits : Option GroupLimits)
  | removeGroup (name : String)
  | issueKey (groupName : String) (name : String) (keyId : String) (key : String)
      (createdAt : Nat)
  | revokeKey (keyId : String) (now : Nat)
  | setAlias (name : String)

/-- `addService`, up to its hooks. -/
def addServiceCheck (data : StoreContent Slots Auth) (input : ServiceInput Raw) :
    Except StoreError (PreparedService Slots Auth) := do
  let name := String.ofList (jsTrim input.name.toList)
  if name = "" ∨ 256 < utf16Length name then
    throw ⟨.invalid, "error: service name must be 1..256 chars"⟩
  if data.services.any (·.name = name) then
    throw ⟨.duplicate, s!"error: service '{name}' already exists"⟩
  if CATALOG_MAX_SERVICES ≤ data.services.length then
    throw ⟨.invalid, s!"error: catalog exceeds {CATALOG_MAX_SERVICES} services; remove a " ++
      s!"service before adding '{name}'"⟩
  let (slots, auth) ← P.normalizeSlots input.raw
  pure ⟨name, slots, auth, input.enabled.getD true, input.keyEnv⟩

/-- The rest of `addService`. -/
def addServicePush (world : StoreWorld) (data : StoreContent Slots Auth)
    (prepared : PreparedService Slots Auth) (serviceId : String) :
    Except StoreError (StoreContent Slots Auth) := do
  -- a draw that is in use is drawn again
  if data.services.any (·.serviceId = serviceId) then
    throw ⟨.duplicate, "service id in use"⟩
  let service : Service Slots Auth :=
    ⟨serviceId, prepared.name, prepared.slots, prepared.auth, prepared.enabled, prepared.keyEnv⟩
  assertServiceActivatable world service
  pure { data with services := data.services ++ [service] }

def validateLimits (limits : Option GroupLimits) : Except StoreError Unit :=
  match limits with
  | none => .ok ()
  | some limits =>
    if limits.maxConcurrency = some 0 then
      .error ⟨.invalid, "error: limit 'maxConcurrency' must be a positive integer"⟩
    else if limits.dailyRequests = some 0 then
      .error ⟨.invalid, "error: limit 'dailyRequests' must be a positive integer"⟩
    else .ok ()

/-- `KEY_NAME_SCHEMA`. -/
def isKeyName (name : String) : Bool :=
  let alnum (c : Char) := ('a' ≤ c && c ≤ 'z') || ('0' ≤ c && c ≤ '9')
  match name.toList with
  | [] => false
  | c :: cs => alnum c && cs.all fun c => alnum c || c = '.' || c = '_' || c = '-'

/-- An operation, up to its `save`. -/
def StoreOp.run (world : StoreWorld) (data : StoreContent Slots Auth) :
    StoreOp Raw Slots Auth → Except StoreError (Option (StoreContent Slots Auth))
  | .addService input serviceId => do
    let prepared ← addServiceCheck P data input
    return some (← addServicePush world data prepared serviceId)
  | .pushService prepared serviceId => do
    return some (← addServicePush world data prepared serviceId)
  | .removeService name => do
    let removed ← okOr (data.getServiceByName name)
      ⟨.notFound, s!"error: service '{name}' not found"⟩
    return some { data with
      services := data.services.eraseIdx (data.services.findIdx (·.name = name))
      groups := data.groups.map fun group =>
        { group with serviceIds := group.serviceIds.filter (· ≠ removed.serviceId) } }
  | .setServiceEnabled serviceId enabled => do
    let service ← okOr (data.getService serviceId)
      ⟨.notFound, s!"error: service '{serviceId}' not found"⟩
    if service.enabled = enabled then return none
    let next := { service with enabled }
    assertServiceActivatable world next
    return some (data.setService serviceId next)
  | .setServiceAuth serviceId auth => do
    let service ← okOr (data.getService serviceId)
      ⟨.notFound, s!"error: service '{serviceId}' not found"⟩
    let next := { service with auth := ← auth }
    assertServiceActivatable world next
    return some (data.setService serviceId next)
  | .addGroup name serviceNames limits => do
    let trimmed := String.ofList (jsTrim name.toList)
    if trimmed = "" ∨ 256 < utf16Length trimmed then
      throw ⟨.invalid, "error: group name must be 1..256 chars"⟩
    if data.groups.any (·.name = trimmed) then
      throw ⟨.duplicate, s!"error: group '{trimmed}' already exists"⟩
    let serviceIds ← data.resolveServiceIds serviceNames
    validateLimits limits
    return some { data with groups := data.groups ++ [⟨trimmed, serviceIds, limits⟩] }
  | .setGroupServices name serviceNames => do
    let group ← okOr (data.getGroup name) ⟨.notFound, s!"error: group '{name}' not found"⟩
    let serviceIds ← data.resolveServiceIds serviceNames
    return some (data.setGroup name { group with serviceIds })
  | .setGroupLimits name limits => do
    let group ← okOr (data.getGroup name) ⟨.notFound, s!"error: group '{name}' not found"⟩
    validateLimits limits
    return some (data.setGroup name { group with limits })
  | .removeGroup name => do
    let _ ← okOr (data.getGroup name) ⟨.notFound, s!"error: group '{name}' not found"⟩
    let activeKeys := data.keys.filter fun k => k.group = name && k.revokedAt = none
    if 0 < activeKeys.length then
      throw ⟨.conflict, s!"error: group '{name}' still has {activeKeys.length} active key(s) - " ++
        "revoke them first"⟩
    return some { data with
      groups := data.groups.eraseIdx (data.groups.findIdx (·.name = name)) }
  | .issueKey groupName name keyId key createdAt => do
    let _ ← okOr (data.getGroup groupName)
      ⟨.notFound, s!"error: group '{groupName}' not found"⟩
    if isKeyName name = false then
      throw ⟨.invalid, "error: key name must match /^[a-z0-9][a-z0-9._-]*$/"⟩
    -- a draw that is in use is drawn again
    if data.keys.any (·.keyId = keyId) then throw ⟨.duplicate, "key id in use"⟩
    return some { data with keys := data.keys ++
      [⟨keyId, groupName, P.hashKeyMaterial key, some name, some key, createdAt, none⟩] }
  | .revokeKey keyId now => do
    let found ← okOr (data.getKey keyId) ⟨.notFound, s!"error: key '{keyId}' not found"⟩
    if found.revokedAt ≠ none then return none
    return some { data with
      keys := data.keys.set (data.keys.findIdx (·.keyId = keyId))
        { found with revokedAt := some now } }
  | .setAlias name => do
    let trimmed := String.ofList (jsTrim name.toList)
    if trimmed = "" ∨ 256 < utf16Length trimmed then
      throw ⟨.invalid, "error: alias must be 1..256 chars"⟩
    return some { data with metaAlias := some trimmed }

/-! ## The file format -/

/-- `GROUP_STORE_SCHEMA`. -/
def groupSchema (group : ServiceGroup) : Bool :=
  let sized (s : String) (max : Nat) := 0 < utf16Length s && utf16Length s ≤ max
  sized group.name 256 && group.serviceIds.all (sized · 128)
    && group.serviceIds.length ≤ CATALOG_MAX_SERVICES
    && group.limits.all fun limits =>
      limits.maxConcurrency ≠ some 0 && limits.dailyRequests ≠ some 0

/-- `KEY_STORE_SCHEMA`. -/
def keySchema (key : ProviderKey) : Bool :=
  let sized (s : String) (min max : Nat) := min ≤ utf16Length s && utf16Length s ≤ max
  let hex (c : Char) := ('a' ≤ c && c ≤ 'f') || ('0' ≤ c && c ≤ '9')
  sized key.keyId 1 128 && sized key.group 1 256 && sized key.hash 64 64
    && key.hash.toList.all hex && key.name.all (sized · 1 128) && key.key.all (sized · 8 256)

/-- `STORE_FILE_SCHEMA`: what `open` reads. -/
def storeFileSchema (data : StoreContent Slots Auth) : Bool :=
  data.services.all P.serviceSchema && data.services.length ≤ CATALOG_MAX_SERVICES
    && data.groups.all groupSchema && data.groups.length ≤ 256
    && data.keys.all keySchema && data.keys.length ≤ 1024

end

end Dweb
