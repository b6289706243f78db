import OpenDweb.Fabric.Protocol
import OpenDweb.Lib.KeepMin

/-!
# OpenDweb — the signed-fact roster

Embedding of `dweb-fabric/src/roster.rs`: the fact store, the validation every fact goes
through, the member projection, and the two files a data directory holds
(`roster.facts`, rewritten whole; `invites.consumed`, append only).

A `Handle` is a roster in memory together with the directory it is bound to. Operations
that take `&mut self` return the handle they leave behind next to their result, because
an operation that fails in its persist keeps what it already inserted.
-/

namespace Dweb

open Std (ExtTreeMap)

/-! ## Files -/

/-- `std::io::Error`, by its kind. -/
inductive IoError where
  | notFound
  | timedOut (message : String)
  | other (message : String)
deriving DecidableEq

/-- The files of one data directory; `none` is a file that does not exist. -/
structure DataDir where
  path : String
  rosterFacts : Option Bytes
  rosterTmp : Option Bytes
  invitesConsumed : Option Bytes
deriving DecidableEq

def ROSTER_FILE_NAME : String := "roster.facts"
def CONSUMED_INVITES_FILE_NAME : String := "invites.consumed"

/-- `b"DWEBRST1"`. -/
def ROSTER_MAGIC : Bytes := [68, 87, 69, 66, 82, 83, 84, 49]

def QUARANTINE_SAMPLE_CAP : Nat := 16
def CONSUMED_RECORD_LEN : Nat := 24

/-- `blake3::OUT_LEN`. -/
def OUT_LEN : Nat := 32

namespace DataDir

def rosterFilePath (dir : DataDir) : String := dir.path ++ "/" ++ ROSTER_FILE_NAME
def rosterTmpPath (dir : DataDir) : String := dir.rosterFilePath ++ ".tmp"
def consumedInvitesFilePath (dir : DataDir) : String :=
  dir.path ++ "/" ++ CONSUMED_INVITES_FILE_NAME

end DataDir

variable [Crypto]

/-! ## Errors and reports -/

/-- `RosterError`, the variants construction, merging and persistence raise. -/
inductive RosterError where
  | protocol (e : ProtocolError)
  | notRoot (caller : EndpointId) (root : Option EndpointId)
  | invalidRevokeTarget (factId : FactId)
  | corrupted (path reason : String)
  | notFound (path : String)
  | alreadyExists (path : String)
  | dirFabricMismatch (path : String) (stored requested : FabricId)
  | persistence (path : String) (source : IoError)
deriving DecidableEq

structure Member where
  endpointId : EndpointId
  displayName : Option String
  sinceMs : UInt64
deriving DecidableEq

structure MergeReport where
  inserted : Nat
  duplicates : Nat
  quarantined : Nat
deriving DecidableEq

inductive RevokeTarget where
  | grant (factId : FactId)
  | allGrantsOf (subject : EndpointId)

inductive InsertOutcome where
  | inserted
  | duplicate
  | quarantined (reason : String)
deriving DecidableEq

/-- `{outcome:?}`. The quarantine reasons hold no character that `Debug` escapes. -/
def InsertOutcome.debug : InsertOutcome → String
  | inserted => "Inserted"
  | duplicate => "Duplicate"
  | quarantined reason => "Quarantined(\"" ++ reason ++ "\")"

/-! ## The store -/

structure Roster where
  fabricId : FabricId
  genesisFactId : Option FactId
  root : Option EndpointId
  facts : ExtTreeMap FactId SignedFact
  consumedInvites : Finset (BytesN 16)
  quarantineCount : Nat
  quarantineSamples : List String

/-- Which optional fields a fact of each kind may carry (step 2b of
`validate_and_insert`). -/
def Fact.shapeOk (f : Fact) : Bool :=
  match f.kind with
  | .genesis => f.issuer = f.subject ∧ f.displayName.isNone ∧ f.expiresAtMs.isNone ∧
      f.targetFactId.isNone
  | .grant | .join => f.targetFactId.isNone
  | .revoke => true

namespace Roster

/-- `Roster::empty`, given the consumed-invite log it loads. -/
def empty (fabricId : FabricId) (consumedInvites : Finset (BytesN 16)) : Roster where
  fabricId
  genesisFactId := none
  root := none
  facts := ∅
  consumedInvites
  quarantineCount := 0
  quarantineSamples := []

/-- `self.facts.values()`: the stored facts in ascending fact-id order. -/
def values (r : Roster) : List SignedFact := r.facts.toList.map Prod.snd

/-- Step 3 of `validate_and_insert`: why a Genesis with this id may not enter. -/
def genesisConflict (r : Roster) (signed : SignedFact) : Option String :=
  if signed.fact.kind = .genesis then
    match r.genesisFactId, r.facts[signed.factId]? with
    | some existingId, existing =>
      if existingId ≠ signed.factId then
        some "conflicting Genesis fact for this fabric rejected"
      else if existing.isSome ∧ existing ≠ some signed then
        some "Genesis id collision (same id, different content)"
      else none
    | none, some existing =>
      if existing ≠ signed then some "Genesis id collision (same id, different content)" else none
    | none, none => none
  else none

/-- The insert that ends `validate_and_insert`: the first Genesis fixes the root. -/
def insertFact (r : Roster) (signed : SignedFact) : Roster :=
  let r :=
    if signed.fact.kind = .genesis ∧ r.genesisFactId = none then
      { r with genesisFactId := some signed.factId, root := some signed.fact.issuer }
    else r
  { r with facts := r.facts.insert signed.factId signed }

/-- Full validation of one fact against the store, then insert. -/
def validateAndInsert (r : Roster) (signed : SignedFact) : Roster × InsertOutcome :=
  if signed.fact.fabricId ≠ r.fabricId then
    (r, .quarantined ("cross-fabric fact rejected (fact fabric " ++
      hexStr signed.fact.fabricId.toBytes ++ ", roster fabric " ++ hexStr r.fabricId.toBytes ++
      ")"))
  else
    match signed.verify with
    | .error e => (r, .quarantined ("fact rejected: " ++ e.display))
    | .ok () =>
      if ¬signed.fact.shapeOk then
        (r, .quarantined ("fact kind " ++ signed.fact.kind.debug ++
          " rejected: disallowed field combination"))
      else
        match r.genesisConflict signed with
        | some reason => (r, .quarantined reason)
        | none =>
          match r.facts[signed.factId]? with
          | some existing =>
            if existing = signed then (r, .duplicate)
            else (r, .quarantined "fact id collision (same id, different content) quarantined")
          | none => (r.insertFact signed, .inserted)

def recordQuarantine (r : Roster) (reason : String) : Roster :=
  { r with
    quarantineCount := r.quarantineCount + 1
    quarantineSamples :=
      if r.quarantineSamples.length < QUARANTINE_SAMPLE_CAP then r.quarantineSamples ++ [reason]
      else r.quarantineSamples }

/-- The loop of `merge`: the store it leaves, the report, and whether anything was
inserted. -/
def mergeLoop : Roster → MergeReport → Bool → List SignedFact → Roster × MergeReport × Bool
  | r, report, dirty, [] => (r, report, dirty)
  | r, report, dirty, fact :: facts =>
    match r.validateAndInsert fact with
    | (r, .inserted) => mergeLoop r { report with inserted := report.inserted + 1 } true facts
    | (r, .duplicate) => mergeLoop r { report with duplicates := report.duplicates + 1 } dirty facts
    | (r, .quarantined reason) =>
      mergeLoop (r.recordQuarantine reason) { report with quarantined := report.quarantined + 1 }
        dirty facts

/-! ## The projection -/

def revokes (root : EndpointId) (nowMs : UInt64) (facts : List Fact) : List Fact :=
  facts.filter fun f => f.kind = .revoke ∧ f.issuer = root ∧ f.isValidAt nowMs

/-- `grant_alive`: no active revoke names the grant or, untargeted, its subject. -/
def grantAlive (revokes : List Fact) (grant : Fact) : Bool :=
  !revokes.any fun r =>
    match r.targetFactId with
    | some target => target = grant.factId
    | none => r.subject = grant.subject

def factRank (f : Fact) : UInt64 ×ₗ FactId := toLex (f.issuedAtMs, f.factId)

def liveGrants (root : EndpointId) (nowMs : UInt64) (facts : List Fact) : List Fact :=
  facts.filter fun f => f.kind = .grant ∧ f.issuer = root ∧ f.subject ≠ root ∧
    f.isValidAt nowMs ∧ grantAlive (revokes root nowMs facts) f

def admitting (root : EndpointId) (nowMs : UInt64) (facts : List Fact) :
    ExtTreeMap EndpointId Fact :=
  foldKeepMin factRank ∅ ((liveGrants root nowMs facts).map fun f => (f.subject, f))

def namedJoins (nowMs : UInt64) (facts : List Fact) : List (EndpointId × Fact × String) :=
  facts.filterMap fun f =>
    if f.kind = .join ∧ f.issuer = f.subject ∧ f.isValidAt nowMs then
      f.displayName.map fun name => (f.subject, f, name)
    else none

/-- Per subject the latest self-chosen name: a later rank takes the place, so the order
on ranks is the dual one. -/
def names (nowMs : UInt64) (facts : List Fact) : ExtTreeMap EndpointId (Fact × String) :=
  foldKeepMin (fun v => OrderDual.toDual (factRank v.1)) ∅ (namedJoins nowMs facts)

/-- `effective_members` once there is a root, over the stored facts in id order. -/
def project (root : EndpointId) (sinceMs nowMs : UInt64) (facts : List Fact) : List Member :=
  let nameOf (e : EndpointId) : Option String := ((names nowMs facts)[e]?).map Prod.snd
  { endpointId := root, displayName := nameOf root, sinceMs } ::
    (admitting root nowMs facts).toList.map fun entry =>
      { endpointId := entry.1
        displayName := (nameOf entry.1).or entry.2.displayName
        sinceMs := entry.2.issuedAtMs }

def genesisIssuedAt (r : Roster) : UInt64 :=
  ((r.genesisFactId.bind fun id => r.facts[id]?).map fun sf => sf.fact.issuedAtMs).getD 0

/-- The effective member projection at `nowMs`: a function of the fact set. -/
def effectiveMembers (r : Roster) (nowMs : UInt64) : List Member :=
  match r.root with
  | none => []
  | some root => project root r.genesisIssuedAt nowMs (r.values.map SignedFact.fact)

/-! ## Persistence -/

/-- The bytes `persist_now` writes for a list of facts, once it encodes. -/
def fileBytes (fabricId : FabricId) (body : Bytes) : Bytes :=
  let bytes := ROSTER_MAGIC ++ (fabricId.toBytes ++ body)
  bytes ++ (Crypto.blake3 bytes).toBytes

/-- The replay loop of `decode_persisted`. -/
def replay (dir : DataDir) : Roster → List SignedFact → Except RosterError Roster
  | r, [] => .ok r
  | r, fact :: facts =>
    match r.validateAndInsert fact with
    | (r, .inserted) => replay dir r facts
    | (_, outcome) =>
      .error (.corrupted dir.rosterFilePath
        ("stored fact failed replay validation: " ++ outcome.debug))

end Roster

def recordInviteId (record : Bytes) : BytesN 16 := arrayAt record 0 16

/-- `as_chunks::<24>().0`. -/
def chunks : Nat → Bytes → List Bytes
  | 0, _ => []
  | n + 1, bytes => bytes.take CONSUMED_RECORD_LEN :: chunks n (bytes.drop CONSUMED_RECORD_LEN)

/-- `load_consumed_invites` on a log that exists or not. -/
def loadConsumedInvites (dir : DataDir) : Except RosterError (Finset (BytesN 16)) :=
  match dir.invitesConsumed with
  | none => .ok ∅
  | some bytes =>
    if bytes.length % CONSUMED_RECORD_LEN ≠ 0 then
      .error (.corrupted dir.consumedInvitesFilePath
        s!"consumed-invite log length {bytes.length} is not a multiple of {CONSUMED_RECORD_LEN}")
    else .ok ((chunks (bytes.length / CONSUMED_RECORD_LEN) bytes).map recordInviteId).toFinset

namespace Roster

/-- Replays a persisted roster file: magic, fabric binding, checksum, wire decode, then
every fact through `validateAndInsert`. -/
def decodePersisted (dir : DataDir) (fabricId : FabricId) (bytes : Bytes) :
    Except RosterError Roster := do
  let corrupted (reason : String) : RosterError := .corrupted dir.rosterFilePath reason
  let headerLen := ROSTER_MAGIC.length + 32
  let minLen := headerLen + 4 + OUT_LEN
  if bytes.length < minLen then
    throw (corrupted s!"file of {bytes.length} bytes shorter than minimum {minLen}")
  if slice bytes 0 ROSTER_MAGIC.length ≠ ROSTER_MAGIC then
    throw (corrupted "bad magic")
  let storedFabric := arrayAt bytes ROSTER_MAGIC.length 32
  if storedFabric ≠ fabricId then
    throw (.dirFabricMismatch dir.rosterFilePath storedFabric fabricId)
  let bodyEnd := bytes.length - OUT_LEN
  if Crypto.blake3 (slice bytes 0 bodyEnd) ≠ arrayAt bytes bodyEnd 32 then
    throw (corrupted "BLAKE3 checksum mismatch")
  let facts ← (SignedFact.decodeAll (slice bytes headerLen bodyEnd)).mapError fun e =>
    corrupted ("fact dump failed to decode: " ++ e.display)
  let consumed ← loadConsumedInvites dir
  let r ← replay dir (empty fabricId consumed) facts
  if ¬r.facts.isEmpty ∧ r.genesisFactId = none then
    throw (corrupted "facts present but no Genesis fact")
  return r

end Roster

/-- `Roster::open`, with the read succeeding if the file exists. -/
def Roster.open (dir : DataDir) (fabricId : FabricId) : Except RosterError Roster :=
  match dir.rosterFacts with
  | none => .error (.notFound dir.rosterFilePath)
  | some bytes => decodePersisted dir fabricId bytes

/-- What the file system does during one `persist_now`. -/
inductive PersistIo where
  | done
  | openFails (source : IoError)
  | writeFails (written : Nat) (source : IoError)
  | renameFails (source : IoError)

structure Handle where
  dir : DataDir
  roster : Roster

namespace Roster

/-- `persist_now`: tmp, fsync, rename. Nothing but the rename touches `roster.facts`. -/
def persistNow (r : Roster) (dir : DataDir) (io : PersistIo) :
    DataDir × Except RosterError Unit :=
  match SignedFact.encodeAll r.values with
  | .error e => (dir, .error (.protocol e))
  | .ok body =>
    let bytes := fileBytes r.fabricId body
    match io with
    | .done => ({ dir with rosterFacts := some bytes, rosterTmp := none }, .ok ())
    | .openFails source => (dir, .error (.persistence dir.rosterTmpPath source))
    | .writeFails written source =>
      ({ dir with rosterTmp := some (bytes.take written) },
        .error (.persistence dir.rosterTmpPath source))
    | .renameFails source =>
      ({ dir with rosterTmp := some bytes }, .error (.persistence dir.rosterFilePath source))

/-- `create_with_fabric_id`: the handle it returns next to the directory it leaves. -/
def createWithFabricId (identity : NodeIdentity) (dir : DataDir) (nowMs : UInt64)
    (fabricId : FabricId) (io : PersistIo) : DataDir × Except RosterError Roster :=
  if dir.rosterFacts.isSome then (dir, .error (.alreadyExists dir.rosterFilePath))
  else
    match genesis identity fabricId nowMs with
    | .error e => (dir, .error (.protocol e))
    | .ok genesis =>
      match loadConsumedInvites dir with
      | .error e => (dir, .error e)
      | .ok consumed =>
        match (empty fabricId consumed).validateAndInsert genesis with
        | (roster, .inserted) =>
          match roster.persistNow dir io with
          | (dir, .ok ()) => (dir, .ok roster)
          | (dir, .error e) => (dir, .error e)
        | (_, outcome) =>
          (dir, .error (.corrupted dir.rosterFilePath
            ("fresh genesis did not insert: " ++ outcome.debug)))

/-- `Roster::attach`: open, or start empty when there is no file yet. -/
def attach (dir : DataDir) (fabricId : FabricId) (io : PersistIo) :
    DataDir × Except RosterError Roster :=
  match Roster.open dir fabricId with
  | .ok roster => (dir, .ok roster)
  | .error (.notFound _) =>
    match loadConsumedInvites dir with
    | .error e => (dir, .error e)
    | .ok consumed =>
      let roster := empty fabricId consumed
      match roster.persistNow dir io with
      | (dir, .ok ()) => (dir, .ok roster)
      | (dir, .error e) => (dir, .error e)
  | .error e => (dir, .error e)

end Roster

/-! ## Operations -/

namespace Handle

/-- `persist_now` as the last step of an operation that returns `value`. -/
def persisting {α : Type*} (h : Handle) (io : PersistIo) (value : α) :
    Handle × Except RosterError α :=
  match h.roster.persistNow h.dir io with
  | (dir, .ok ()) => ({ h with dir }, .ok value)
  | (dir, .error e) => ({ h with dir }, .error e)

/-- `Roster::merge`: union, persisting only when something was inserted. -/
def merge (h : Handle) (facts : List SignedFact) (io : PersistIo) :
    Handle × Except RosterError MergeReport :=
  let (roster, report, dirty) := h.roster.mergeLoop ⟨0, 0, 0⟩ false facts
  let h : Handle := { h with roster }
  if dirty then h.persisting io report else (h, .ok report)

/-- `require_root`. -/
def requireRoot (h : Handle) (identity : NodeIdentity) : Except RosterError EndpointId :=
  match h.roster.root with
  | some root =>
    if root = identity.endpointId then .ok root
    else .error (.notRoot identity.endpointId (some root))
  | none => .error (.notRoot identity.endpointId none)

/-- Sign a locally built fact, insert it and persist. `what` names it in the error. -/
def signAndInsert (h : Handle) (identity : NodeIdentity) (fact : Fact) (what : String)
    (io : PersistIo) : Handle × Except RosterError SignedFact :=
  match SignedFact.sign fact identity.secretKey with
  | .error e => (h, .error (.protocol e))
  | .ok signed =>
    match h.roster.validateAndInsert signed with
    | (_, .quarantined reason) =>
      (h, .error (.corrupted h.dir.rosterFilePath
        ("locally constructed " ++ what ++ " quarantined: " ++ reason)))
    | (roster, _) => Handle.persisting { h with roster } io signed

/-- `build_and_insert`: a root-only fact. -/
def buildAndInsert (h : Handle) (identity : NodeIdentity) (build : EndpointId → Fact)
    (io : PersistIo) : Handle × Except RosterError SignedFact :=
  match h.requireRoot identity with
  | .error e => (h, .error e)
  | .ok root => h.signAndInsert identity (build root) "fact" io

/-- `Roster::grant`. -/
def grant (h : Handle) (identity : NodeIdentity) (subject : EndpointId)
    (displayName : Option String) (expiresAtMs : Option UInt64) (nowMs : UInt64)
    (io : PersistIo) : Handle × Except RosterError SignedFact :=
  h.buildAndInsert identity
    (fun root =>
      { kind := .grant
        fabricId := h.roster.fabricId
        issuer := root
        subject
        displayName
        issuedAtMs := nowMs
        expiresAtMs
        targetFactId := none })
    io

/-- The subject and target field a `RevokeTarget` stands for. -/
def revokeSubject (h : Handle) : RevokeTarget → Except RosterError (EndpointId × Option FactId)
  | .grant factId =>
    match h.roster.facts[factId]? with
    | none => .error (.invalidRevokeTarget factId)
    | some grant =>
      if grant.fact.kind ≠ .grant then .error (.invalidRevokeTarget factId)
      else .ok (grant.fact.subject, some factId)
  | .allGrantsOf subject => .ok (subject, none)

/-- `Roster::revoke`. -/
def revoke (h : Handle) (identity : NodeIdentity) (target : RevokeTarget) (nowMs : UInt64)
    (io : PersistIo) : Handle × Except RosterError SignedFact :=
  match h.revokeSubject target with
  | .error e => (h, .error e)
  | .ok (subject, targetFactId) =>
    h.buildAndInsert identity
      (fun root =>
        { kind := .revoke
          fabricId := h.roster.fabricId
          issuer := root
          subject
          displayName := none
          issuedAtMs := nowMs
          expiresAtMs := none
          targetFactId })
      io

/-- `Roster::set_display_name`: a self-signed Join, by any identity. -/
def setDisplayName (h : Handle) (identity : NodeIdentity) (displayName : Option String)
    (nowMs : UInt64) (io : PersistIo) : Handle × Except RosterError SignedFact :=
  h.signAndInsert identity
    { kind := .join
      fabricId := h.roster.fabricId
      issuer := identity.endpointId
      subject := identity.endpointId
      displayName
      issuedAtMs := nowMs
      expiresAtMs := none
      targetFactId := none }
    "join" io

end Handle

end Dweb
