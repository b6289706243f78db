import OpenDweb.Lib.Hex
import OpenDweb.Server.Ledger

/-!
# OpenDweb — the owner registry

Embedding of `dweb-server/src/access/registry.rs`: the events of `owners.jsonl`, the active set
they fold to, and the operations, each of which appends its event and then moves the set itself.

* **`OwnerRegistry.loadActive`** — the fold over the whole file.
* **`OwnerRegistry.apply`**, **`upsertLocked`** — the two ways memory moves with an event.
* **`OwnerRegistry.Replayed`** — memory is what the file folds to; every operation keeps it.
* **`tenants`** — who was registered through a code, by the file.
-/

namespace Dweb

open Std (ExtTreeMap ExtTreeSet LawfulEqCmp)

/-! ## Keys -/

/-- `OwnerKey`: `(fabric_id, root)`. -/
structure OwnerKey where
  fabricId : BytesN 32
  root : BytesN 32

def OwnerKey.tuple (k : OwnerKey) : BytesN 32 ×ₗ BytesN 32 := toLex (k.fabricId, k.root)

instance : LinearOrder OwnerKey := LinearOrder.lift' OwnerKey.tuple fun a b h => by
  cases a
  cases b
  cases toLex.injective h
  rfl

/-- `RedeemKey`: `(code_hash, fabric_id, root)`. -/
structure RedeemKey where
  codeHash : BytesN 32
  owner : OwnerKey

def RedeemKey.tuple (k : RedeemKey) : BytesN 32 ×ₗ OwnerKey := toLex (k.codeHash, k.owner)

instance : LinearOrder RedeemKey := LinearOrder.lift' RedeemKey.tuple fun a b h => by
  cases a
  cases b
  cases toLex.injective h
  rfl

/-- What `parse_owner_hex` and `parse_code_hash` reject; their texts quote `s`. -/
inductive IdError where
  | length (s : String) (got : Nat)
  | hex (s : String) (e : HexError)
  | width (s : String)
  deriving DecidableEq

/-- `parse_owner_hex`, and `parse_code_hash` but for its texts. -/
def parseOwnerHex (s : String) : Except IdError (BytesN 32) :=
  if (utf8Bytes s).length ≠ 64 then .error (.length s (utf8Bytes s).length)
  else
    match hexDecode s with
    | .error e => .error (.hex s e)
    | .ok bytes =>
      match BytesN.ofBytes? 32 bytes with
      | none => .error (.width s)
      | some id => .ok id

/-- `encode_key(&hex::encode(id))`. -/
def encodeKey (id : BytesN 32) : String := toAsciiLowercase (hexStr id.toBytes)

@[simp] theorem parseOwnerHex_hexStr (id : BytesN 32) :
    parseOwnerHex (hexStr id.toBytes) = .ok id := by
  have hlen : ¬(utf8Bytes (hexStr id.toBytes)).length ≠ 64 := by
    rw [length_utf8Bytes_hexStr, id.length_toBytes]
    decide
  rw [parseOwnerHex, if_neg hlen, hexDecode_hexStr]
  simp only [BytesN.ofBytes?_toBytes]

@[simp] theorem parseOwnerHex_encodeKey (id : BytesN 32) : parseOwnerHex (encodeKey id) = .ok id := by
  rw [encodeKey, toAsciiLowercase_hexStr, parseOwnerHex_hexStr]

/-- Why a ledger is not loaded: a line that is no record, or one with an ill-formed id. -/
inductive LoadError where
  | read (e : String)
  | id (lineNo : Nat) (e : IdError)
  deriving DecidableEq

/-- `parse(..).map_err(|e| "{path}:{line_no} {e}")`. -/
def parseAt (lineNo : Nat) (s : String) : Except LoadError (BytesN 32) :=
  (parseOwnerHex s).mapError (.id lineNo)

@[simp] theorem parseAt_hexStr (lineNo : Nat) (id : BytesN 32) :
    parseAt lineNo (hexStr id.toBytes) = .ok id := by
  rw [parseAt, parseOwnerHex_hexStr]
  rfl

@[simp] theorem parseAt_encodeKey (lineNo : Nat) (id : BytesN 32) :
    parseAt lineNo (encodeKey id) = .ok id := by
  rw [parseAt, parseOwnerHex_encodeKey]
  rfl

/-! ## Events -/

inductive OwnerOp where
  | register
  | unregister
  deriving DecidableEq

/-- One line of `owners.jsonl`. -/
structure OwnerRecord where
  op : OwnerOp
  fabricId : String
  root : String
  ts : UInt64
  expiresAt : Option UInt64
  aliasName : Option String
  note : Option String
  viaCodeHash : Option String
  firstRegisteredAt : Option UInt64
  deriving DecidableEq

structure EntryMeta where
  registeredAt : UInt64
  expiresAt : Option UInt64
  aliasName : Option String
  note : Option String
  deriving DecidableEq

instance : Inhabited EntryMeta where
  default := { registeredAt := 0, expiresAt := none, aliasName := none, note := none }

structure RegistrySnapshot where
  active : ExtTreeMap OwnerKey EntryMeta
  viaCode : ExtTreeSet RedeemKey

namespace RegistrySnapshot

def empty : RegistrySnapshot := { active := ∅, viaCode := ∅ }

/-- `contains`: registered, expired or not. -/
def contains (s : RegistrySnapshot) (fabricId root : BytesN 32) : Bool :=
  s.active.contains ⟨fabricId, root⟩

/-- `contains_active`: registered, and not expired at `nowMs`. -/
def containsActive (s : RegistrySnapshot) (fabricId root : BytesN 32) (nowMs : UInt64) : Bool :=
  s.active[(⟨fabricId, root⟩ : OwnerKey)]?.any fun entry =>
    entry.expiresAt.all fun expires => nowMs < expires

theorem contains_of_containsActive {s : RegistrySnapshot} {fabricId root : BytesN 32}
    {nowMs : UInt64} (h : s.containsActive fabricId root nowMs = true) :
    s.contains fabricId root = true := by
  unfold containsActive at h
  rw [contains, ExtTreeMap.contains_eq_isSome_getElem?]
  cases hentry : s.active[(⟨fabricId, root⟩ : OwnerKey)]? with
  | none =>
    rw [hentry] at h
    cases h
  | some entry => rfl

/-- `code_orphans`, in byte order. -/
def codeOrphans (s : RegistrySnapshot) : List RedeemKey := s.viaCode.toList

/-- `entry_expires_at`. -/
def entryExpiresAt (s : RegistrySnapshot) (k : OwnerKey) : Option UInt64 :=
  s.active[k]?.bind EntryMeta.expiresAt

end RegistrySnapshot

/-- The registry: its file, in records, and its snapshot. -/
structure OwnerRegistry where
  file : List OwnerRecord
  current : RegistrySnapshot

namespace OwnerRegistry

/-! ## Loading -/

/-- One record of `load_active`. -/
def loadStep (s : RegistrySnapshot) (line : Nat × OwnerRecord) :
    Except LoadError RegistrySnapshot := do
  let (lineNo, record) := line
  let fabricId ← parseAt lineNo record.fabricId
  let root ← parseAt lineNo record.root
  match record.op with
  | .register =>
    let viaCode ←
      match record.viaCodeHash with
      | some hashHex => do
        let hash ← parseAt lineNo hashHex
        pure (s.viaCode.insert ⟨hash, ⟨fabricId, root⟩⟩)
      | none => pure s.viaCode
    return {
      viaCode
      active := s.active.insert ⟨fabricId, root⟩ {
        -- an older line does not carry the time of the first registration
        registeredAt := record.firstRegisteredAt.getD record.ts
        expiresAt := record.expiresAt
        aliasName := record.aliasName
        note := record.note } }
  | .unregister => return { s with active := s.active.erase ⟨fabricId, root⟩ }

/-- `load_active`, on the records `read_records` has read. -/
def loadActive (file : List OwnerRecord) : Except LoadError RegistrySnapshot :=
  replay loadStep .empty file

def load (file : List OwnerRecord) : Except LoadError OwnerRegistry := do
  let current ← loadActive file
  return { file, current }

/-- `reload`: a file that does not load leaves the snapshot. -/
def reload (s : OwnerRegistry) : OwnerRegistry × Except LoadError Unit :=
  match loadActive s.file with
  | .error e => (s, .error e)
  | .ok fresh => ({ s with current := fresh }, .ok ())

/-! ## Events into memory -/

/-- `apply`: the event on disk, then the snapshot. -/
def apply (s : OwnerRegistry) (record : OwnerRecord) (fabricId root : BytesN 32) (o : Landing) :
    OwnerRegistry × Except String Unit :=
  match o.result with
  | .error e => ({ s with file := o.onto s.file record }, .error e)
  | .ok () =>
    let active :=
      match record.op with
      | .register =>
        s.current.active.insert ⟨fabricId, root⟩ {
          registeredAt := record.firstRegisteredAt.getD record.ts
          expiresAt := record.expiresAt
          aliasName := record.aliasName
          note := record.note }
      | .unregister => s.current.active.erase ⟨fabricId, root⟩
    ({ file := o.onto s.file record, current := { active, viaCode := s.current.viaCode } }, .ok ())

/-- `mutate`: an event without metadata. -/
def mutate (s : OwnerRegistry) (op : OwnerOp) (fabricId root : BytesN 32) (now : UInt64)
    (o : Landing) : OwnerRegistry × Except String Unit :=
  s.apply
    { op
      fabricId := encodeKey fabricId
      root := encodeKey root
      ts := now
      expiresAt := none
      aliasName := none
      note := none
      viaCodeHash := none
      firstRegisteredAt := none }
    fabricId root o

def register (s : OwnerRegistry) : BytesN 32 → BytesN 32 → UInt64 → Landing →
    OwnerRegistry × Except String Unit :=
  s.mutate .register

def unregister (s : OwnerRegistry) : BytesN 32 → BytesN 32 → UInt64 → Landing →
    OwnerRegistry × Except String Unit :=
  s.mutate .unregister

/-- The event of `upsert_locked`, with the merged values; `none` keeps what is known. -/
def upsertRecord (s : OwnerRegistry) (fabricId root : BytesN 32)
    (expiresAt : Option (Option UInt64)) (aliasName note : Option (Option String))
    (viaCodeHash : Option (BytesN 32)) (now : UInt64) : OwnerRecord :=
  let existingEntry := s.current.active[(⟨fabricId, root⟩ : OwnerKey)]?
  let existing := existingEntry.getD default
  { op := .register
    fabricId := encodeKey fabricId
    root := encodeKey root
    ts := now
    expiresAt := expiresAt.getD existing.expiresAt
    aliasName := aliasName.getD existing.aliasName
    note := note.getD existing.note
    viaCodeHash := viaCodeHash.map fun hash => hexStr hash.toBytes
    -- the time of the first registration stays, whatever is edited
    firstRegisteredAt := existingEntry.map EntryMeta.registeredAt }

/-- `upsert_locked`. -/
def upsertLocked (s : OwnerRegistry) (fabricId root : BytesN 32)
    (expiresAt : Option (Option UInt64)) (aliasName note : Option (Option String))
    (viaCodeHash : Option (BytesN 32)) (now : UInt64) (o : Landing) :
    OwnerRegistry × Except String Unit :=
  let record := s.upsertRecord fabricId root expiresAt aliasName note viaCodeHash now
  match o.result with
  | .error e => ({ s with file := o.onto s.file record }, .error e)
  | .ok () =>
    let active := s.current.active.insert ⟨fabricId, root⟩ {
      registeredAt := record.firstRegisteredAt.getD record.ts
      expiresAt := record.expiresAt
      aliasName := record.aliasName
      note := record.note }
    let viaCode :=
      match viaCodeHash with
      | some hash => s.current.viaCode.insert ⟨hash, ⟨fabricId, root⟩⟩
      | none => s.current.viaCode
    ({ file := o.onto s.file record, current := { active, viaCode } }, .ok ())

/-- `register_via_code`: the device's own alias is written only where there is none. -/
def registerViaCode (s : OwnerRegistry) (fabricId root : BytesN 32) (expiresAt : Option UInt64)
    (viaCodeHash : BytesN 32) (aliasCandidate : Option String) (now : UInt64) (o : Landing) :
    OwnerRegistry × Except String Unit :=
  let existingHasAlias := (s.current.active[(⟨fabricId, root⟩ : OwnerKey)]?).any
    fun entry => entry.aliasName.isSome
  let aliasWrite := if existingHasAlias then none else aliasCandidate.map some
  s.upsertLocked fabricId root (some expiresAt) aliasWrite none (some viaCodeHash) now o

/-- `renew`; `false` is an owner that is not registered. -/
def renew (s : OwnerRegistry) (fabricId root : BytesN 32) (expiresAt : Option UInt64)
    (now : UInt64) (o : Landing) : OwnerRegistry × Except String Bool :=
  if s.current.active.contains ⟨fabricId, root⟩ then
    let (s', result) := s.upsertLocked fabricId root (some expiresAt) none none none now o
    (s', result.map fun () => true)
  else (s, .ok false)

/-- `update_metadata`. -/
def updateMetadata (s : OwnerRegistry) (fabricId root : BytesN 32) (aliasName note : Option String)
    (now : UInt64) (o : Landing) : OwnerRegistry × Except String Bool :=
  if s.current.active.contains ⟨fabricId, root⟩ then
    let (s', result) := s.upsertLocked fabricId root none (some aliasName) (some note) none now o
    (s', result.map fun () => true)
  else (s, .ok false)

theorem apply_file (s : OwnerRegistry) (record : OwnerRecord) (fabricId root : BytesN 32)
    (o : Landing) : (s.apply record fabricId root o).1.file = o.onto s.file record := by
  cases o <;> rfl

theorem upsertLocked_file (s : OwnerRegistry) (fabricId root : BytesN 32)
    (expiresAt : Option (Option UInt64)) (aliasName note : Option (Option String))
    (viaCodeHash : Option (BytesN 32)) (now : UInt64) (o : Landing) :
    (s.upsertLocked fabricId root expiresAt aliasName note viaCodeHash now o).1.file
      = o.onto s.file
        (s.upsertRecord fabricId root expiresAt aliasName note viaCodeHash now) := by
  cases o <;> rfl

/-! ## Memory and file -/

def Replayed (s : OwnerRegistry) : Prop := loadActive s.file = .ok s.current

theorem load_replayed {file : List OwnerRecord} {s : OwnerRegistry} (h : load file = .ok s) :
    s.Replayed := by
  obtain ⟨_, hload, hpure⟩ := bind_eq_ok.mp h
  cases pure_eq_ok.mp hpure
  exact hload

theorem Replayed.load {s : OwnerRegistry} (h : s.Replayed) : load s.file = .ok s := by
  rw [OwnerRegistry.load, h]
  rfl

theorem Replayed.reload {s : OwnerRegistry} (h : s.Replayed) : s.reload.1 = s := by
  unfold OwnerRegistry.reload
  rw [h]

theorem Replayed.apply {s : OwnerRegistry} (h : s.Replayed) {record : OwnerRecord}
    {fabricId root : BytesN 32} (hfabric : record.fabricId = encodeKey fabricId)
    (hroot : record.root = encodeKey root) (hvia : record.viaCodeHash = none) :
    (s.apply record fabricId root .ok).1.Replayed := by
  show replay loadStep .empty (s.file ++ [record]) = _
  rw [replay_snoc h]
  simp only [loadStep, hfabric, hroot, hvia, parseAt_encodeKey]
  cases hop : record.op with
  | register => simp only [OwnerRegistry.apply, Landing.result, hop]; rfl
  | unregister => simp only [OwnerRegistry.apply, Landing.result, hop]; rfl

theorem Replayed.mutate {s : OwnerRegistry} (h : s.Replayed) (op : OwnerOp)
    (fabricId root : BytesN 32) (now : UInt64) :
    (s.mutate op fabricId root now .ok).1.Replayed :=
  h.apply rfl rfl rfl

theorem Replayed.upsertLocked {s : OwnerRegistry} (h : s.Replayed) (fabricId root : BytesN 32)
    (expiresAt : Option (Option UInt64)) (aliasName note : Option (Option String))
    (viaCodeHash : Option (BytesN 32)) (now : UInt64) :
    (s.upsertLocked fabricId root expiresAt aliasName note viaCodeHash now .ok).1.Replayed := by
  show replay loadStep .empty (s.file ++ [_]) = _
  rw [replay_snoc h]
  simp only [loadStep, upsertRecord, parseAt_encodeKey]
  cases viaCodeHash with
  | none => rfl
  | some hash =>
    simp only [Option.map_some, parseAt_hexStr]
    rfl

theorem Replayed.registerViaCode {s : OwnerRegistry} (h : s.Replayed) (fabricId root : BytesN 32)
    (expiresAt : Option UInt64) (viaCodeHash : BytesN 32) (aliasCandidate : Option String)
    (now : UInt64) :
    (s.registerViaCode fabricId root expiresAt viaCodeHash aliasCandidate now .ok).1.Replayed :=
  h.upsertLocked ..

theorem Replayed.renew {s : OwnerRegistry} (h : s.Replayed) (fabricId root : BytesN 32)
    (expiresAt : Option UInt64) (now : UInt64) :
    (s.renew fabricId root expiresAt now .ok).1.Replayed := by
  unfold OwnerRegistry.renew
  split
  · exact h.upsertLocked ..
  · exact h

theorem Replayed.updateMetadata {s : OwnerRegistry} (h : s.Replayed) (fabricId root : BytesN 32)
    (aliasName note : Option String) (now : UInt64) :
    (s.updateMetadata fabricId root aliasName note now .ok).1.Replayed := by
  unfold OwnerRegistry.updateMetadata
  split
  · exact h.upsertLocked ..
  · exact h

/-! ## Codes in memory -/

@[simp] theorem mutate_viaCode (s : OwnerRegistry) (op : OwnerOp) (fabricId root : BytesN 32)
    (now : UInt64) (o : Landing) :
    (s.mutate op fabricId root now o).1.current.viaCode = s.current.viaCode := by
  cases o <;> rfl

theorem upsertLocked_viaCode (s : OwnerRegistry) (fabricId root : BytesN 32)
    (expiresAt : Option (Option UInt64)) (aliasName note : Option (Option String)) (now : UInt64)
    (o : Landing) :
    (s.upsertLocked fabricId root expiresAt aliasName note none now o).1.current.viaCode
      = s.current.viaCode := by
  cases o <;> rfl

@[simp] theorem renew_viaCode (s : OwnerRegistry) (fabricId root : BytesN 32)
    (expiresAt : Option UInt64) (now : UInt64) (o : Landing) :
    (s.renew fabricId root expiresAt now o).1.current.viaCode = s.current.viaCode := by
  unfold renew
  split
  · exact upsertLocked_viaCode ..
  · rfl

@[simp] theorem updateMetadata_viaCode (s : OwnerRegistry) (fabricId root : BytesN 32)
    (aliasName note : Option String) (now : UInt64) (o : Landing) :
    (s.updateMetadata fabricId root aliasName note now o).1.current.viaCode
      = s.current.viaCode := by
  unfold updateMetadata
  split
  · exact upsertLocked_viaCode ..
  · rfl

end OwnerRegistry

/-! ## Tenants -/

/-- The code a line registers through, and the tenant. -/
def OwnerRecord.viaKey (record : OwnerRecord) : Option RedeemKey :=
  match record.op, record.viaCodeHash with
  | .register, some hashHex =>
    match parseOwnerHex hashHex, parseOwnerHex record.fabricId, parseOwnerHex record.root with
    | .ok hash, .ok fabricId, .ok root => some ⟨hash, ⟨fabricId, root⟩⟩
    | _, _, _ => none
  | _, _ => none

def tenants (file : List OwnerRecord) (hash : BytesN 32) : Finset OwnerKey :=
  (((file.filterMap OwnerRecord.viaKey).filter (·.codeHash = hash)).map RedeemKey.owner).toFinset

def Registered (file : List OwnerRecord) (key : RedeemKey) : Prop :=
  ∃ r ∈ file, r.viaKey = some key

theorem mem_tenants {file : List OwnerRecord} {hash : BytesN 32} {k : OwnerKey} :
    k ∈ tenants file hash ↔ Registered file ⟨hash, k⟩ := by
  unfold tenants
  rw [List.mem_toFinset, List.mem_map]
  constructor
  · rintro ⟨⟨hash', k'⟩, hmem, rfl⟩
    obtain ⟨hin, hhash⟩ := List.mem_filter.mp hmem
    obtain ⟨r, hr, hkey⟩ := List.mem_filterMap.mp hin
    obtain rfl : hash' = hash := of_decide_eq_true hhash
    exact ⟨r, hr, hkey⟩
  · rintro ⟨r, hr, hkey⟩
    exact ⟨⟨hash, k⟩, List.mem_filter.mpr
      ⟨List.mem_filterMap.mpr ⟨r, hr, hkey⟩, decide_eq_true rfl⟩, rfl⟩

theorem registered_onto {o : Landing} {file : List OwnerRecord} {r : OwnerRecord}
    {key : RedeemKey} :
    Registered (o.onto file r) key
      ↔ Registered file key ∨ (o.lands = true ∧ r.viaKey = some key) := by
  simp only [Registered, Landing.mem_onto, or_and_right, exists_or, and_assoc, and_left_comm,
    exists_eq_left]

theorem OwnerRegistry.mem_loadStep {s s' : RegistrySnapshot} {line : Nat × OwnerRecord}
    (h : loadStep s line = .ok s') (k : RedeemKey) :
    k ∈ s'.viaCode ↔ k ∈ s.viaCode ∨ line.2.viaKey = some k := by
  obtain ⟨lineNo, record⟩ := line
  unfold loadStep at h
  simp only [OwnerRecord.viaKey]
  cases hfabric : parseOwnerHex record.fabricId with
  | error e =>
    simp only [parseAt, hfabric] at h
    cases h
  | ok fabricId =>
    cases hroot : parseOwnerHex record.root with
    | error e =>
      simp only [parseAt, hfabric, hroot] at h
      cases h
    | ok root =>
      simp only [parseAt, hfabric, hroot, Except.mapError] at h
      cases hop : record.op with
      | unregister =>
        simp only [hop] at h
        cases h
        exact (or_iff_left nofun).symm
      | register =>
        cases hvia : record.viaCodeHash with
        | none =>
          simp only [hop, hvia] at h
          cases h
          exact (or_iff_left nofun).symm
        | some hashHex =>
          simp only [hop, hvia] at h
          cases hhash : parseOwnerHex hashHex with
          | error e =>
            simp only [hhash] at h
            cases h
          | ok hash =>
            simp only [hhash] at h
            cases h
            simp only [ExtTreeSet.mem_insert, LawfulEqCmp.compare_eq_iff_eq, hhash,
              Option.some.injEq]
            exact or_comm

theorem OwnerRegistry.mem_loadActive {file : List OwnerRecord} {snap : RegistrySnapshot}
    (h : loadActive file = .ok snap) (k : RedeemKey) :
    k ∈ snap.viaCode ↔ Registered file k := by
  induction file using List.reverseRecOn generalizing snap with
  | nil =>
    cases h
    exact iff_of_false ExtTreeSet.not_mem_empty (by simp [Registered])
  | append_singleton file r ih =>
    rw [loadActive, replay_append_singleton] at h
    obtain ⟨before, hload, hstep⟩ := bind_eq_ok.mp h
    rw [mem_loadStep hstep, ih hload]
    simp only [Registered, List.mem_append, List.mem_singleton, or_and_right, exists_or,
      exists_eq_left]

/-! ## Events beside the codes -/

namespace OwnerRegistry

def Loads (file : List OwnerRecord) : Prop := ∃ snap, loadActive file = .ok snap

theorem Loads.onto {file : List OwnerRecord} (h : Loads file) {r : OwnerRecord}
    (hr : ∀ snap n, ∃ snap', loadStep snap (n, r) = .ok snap') (o : Landing) :
    Loads (o.onto file r) := by
  obtain ⟨snap, hsnap⟩ := h
  rw [Landing.onto_eq]
  split
  · obtain ⟨snap', hstep⟩ := hr snap (file.length + 1)
    exact ⟨snap', (replay_snoc hsnap r).trans hstep⟩
  · exact ⟨snap, hsnap⟩

structure Beside (s s' : OwnerRegistry) : Prop where
  viaCode : s'.current.viaCode = s.current.viaCode
  registered : ∀ key, Registered s'.file key ↔ Registered s.file key
  loads : Loads s.file → Loads s'.file

theorem Beside.refl (s : OwnerRegistry) : s.Beside s := ⟨rfl, fun _ => Iff.rfl, id⟩

theorem Beside.of_onto {s s' : OwnerRegistry} {r : OwnerRecord} {o : Landing}
    {fabricId root : BytesN 32} (hvia : s'.current.viaCode = s.current.viaCode)
    (hfile : s'.file = o.onto s.file r) (hfabric : r.fabricId = encodeKey fabricId)
    (hroot : r.root = encodeKey root) (hcode : r.viaCodeHash = none) : s.Beside s' where
  viaCode := hvia
  registered key := by
    have hnone : r.viaKey = none := by
      rw [OwnerRecord.viaKey, hcode]
      cases r.op <;> rfl
    rw [hfile, registered_onto, hnone]
    exact or_iff_left nofun
  loads h := by
    rw [hfile]
    refine h.onto (fun snap n => ?_) o
    simp only [loadStep, hfabric, hroot, hcode, parseAt_encodeKey]
    cases r.op with
    | register => exact ⟨_, rfl⟩
    | unregister => exact ⟨_, rfl⟩

theorem mutate_beside (s : OwnerRegistry) (op : OwnerOp) (fabricId root : BytesN 32)
    (now : UInt64) (o : Landing) : s.Beside (s.mutate op fabricId root now o).1 :=
  .of_onto (mutate_viaCode ..) (apply_file ..) rfl rfl rfl

theorem upsertLocked_beside (s : OwnerRegistry) (fabricId root : BytesN 32)
    (expiresAt : Option (Option UInt64)) (aliasName note : Option (Option String)) (now : UInt64)
    (o : Landing) :
    s.Beside (s.upsertLocked fabricId root expiresAt aliasName note none now o).1 :=
  .of_onto (upsertLocked_viaCode ..) (upsertLocked_file ..) rfl rfl rfl

theorem renew_beside (s : OwnerRegistry) (fabricId root : BytesN 32) (expiresAt : Option UInt64)
    (now : UInt64) (o : Landing) : s.Beside (s.renew fabricId root expiresAt now o).1 := by
  unfold renew
  split
  · exact upsertLocked_beside ..
  · exact .refl s

theorem updateMetadata_beside (s : OwnerRegistry) (fabricId root : BytesN 32)
    (aliasName note : Option String) (now : UInt64) (o : Landing) :
    s.Beside (s.updateMetadata fabricId root aliasName note now o).1 := by
  unfold updateMetadata
  split
  · exact upsertLocked_beside ..
  · exact .refl s

section

variable {s s' : OwnerRegistry} {key : RedeemKey} {expiresAt : Option UInt64}
  {aliasCandidate : Option String} {now : UInt64} {o : Landing} {result : Except String Unit}

theorem registered_of_registerViaCode
    (h : s.registerViaCode key.owner.fabricId key.owner.root expiresAt key.codeHash aliasCandidate
      now o = (s', result)) (k : RedeemKey) :
    Registered s'.file k ↔ Registered s.file k ∨ (o.lands = true ∧ key = k) := by
  obtain rfl : (s.registerViaCode key.owner.fabricId key.owner.root expiresAt key.codeHash
    aliasCandidate now o).1 = s' := congrArg Prod.fst h
  unfold registerViaCode
  rw [upsertLocked_file, registered_onto]
  simp only [upsertRecord, OwnerRecord.viaKey, Option.map_some, parseOwnerHex_hexStr,
    parseOwnerHex_encodeKey, Option.some.injEq]

theorem loads_of_registerViaCode
    (h : s.registerViaCode key.owner.fabricId key.owner.root expiresAt key.codeHash aliasCandidate
      now o = (s', result)) (hloads : Loads s.file) : Loads s'.file := by
  obtain rfl : (s.registerViaCode key.owner.fabricId key.owner.root expiresAt key.codeHash
    aliasCandidate now o).1 = s' := congrArg Prod.fst h
  unfold registerViaCode
  rw [upsertLocked_file]
  refine hloads.onto (fun snap n => ?_) o
  simp only [loadStep, upsertRecord, Option.map_some, parseAt_hexStr, parseAt_encodeKey]
  exact ⟨_, rfl⟩

theorem registerViaCode_eq_ok
    (h : s.registerViaCode key.owner.fabricId key.owner.root expiresAt key.codeHash aliasCandidate
      now o = (s', .ok ())) :
    o = .ok ∧ s'.current.viaCode = s.current.viaCode.insert key := by
  cases o with
  | ok =>
    cases h
    exact ⟨rfl, rfl⟩
  | failed e kept => cases h

theorem viaCode_of_registerViaCode_error {e : String}
    (h : s.registerViaCode key.owner.fabricId key.owner.root expiresAt key.codeHash aliasCandidate
      now o = (s', .error e)) :
    o ≠ .ok ∧ s'.current.viaCode = s.current.viaCode := by
  cases o with
  | ok => cases h
  | failed e kept =>
    cases h
    exact ⟨nofun, rfl⟩

end

theorem reload_file (s : OwnerRegistry) : s.reload.1.file = s.file := by
  unfold reload
  split
  · rfl
  · rfl

end OwnerRegistry

end Dweb
