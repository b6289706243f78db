import OpenDweb.Server.Registry

/-!
# OpenDweb — the visitor registry

Embedding of `dweb-server/src/access/visitor.rs`: grants and revocations in `visitors.jsonl`, and
the visitors they fold to.

* **`VisitorRegistry.loadActive`** — the fold over the whole file.
* **`VisitorRegistry.Replayed`** — memory is what the file folds to; every operation keeps it.
-/

namespace Dweb

open Std (ExtTreeMap)

inductive VisitorOp where
  | grant
  | revoke
  deriving DecidableEq

/-- One line of `visitors.jsonl`. -/
structure VisitorRecord where
  op : VisitorOp
  endpointId : String
  aliasName : Option String
  note : Option String
  expiresAt : Option UInt64
  ts : UInt64
  deriving DecidableEq

structure VisitorEntry where
  endpointId : BytesN 32
  grantedAt : UInt64
  expiresAt : Option UInt64
  aliasName : Option String
  note : Option String

/-- The registry: its file, in records, and the active visitors. -/
structure VisitorRegistry where
  file : List VisitorRecord
  active : ExtTreeMap (BytesN 32) VisitorEntry

namespace VisitorRegistry

/-! ## Loading -/

/-- One record of `load_active`. -/
def loadStep (active : ExtTreeMap (BytesN 32) VisitorEntry) (line : Nat × VisitorRecord) :
    Except LoadError (ExtTreeMap (BytesN 32) VisitorEntry) := do
  let (lineNo, record) := line
  let endpointId ← parseAt lineNo record.endpointId
  match record.op with
  | .grant =>
    return active.insert endpointId {
      endpointId
      grantedAt := record.ts
      expiresAt := record.expiresAt
      aliasName := record.aliasName
      note := record.note }
  | .revoke => return active.erase endpointId

def loadActive (file : List VisitorRecord) :
    Except LoadError (ExtTreeMap (BytesN 32) VisitorEntry) :=
  replay loadStep ∅ file

def load (file : List VisitorRecord) : Except LoadError VisitorRegistry := do
  let active ← loadActive file
  return { file, active }

/-- `reload`: a file that does not load leaves the snapshot. -/
def reload (s : VisitorRegistry) : VisitorRegistry × Except LoadError Unit :=
  match loadActive s.file with
  | .error e => (s, .error e)
  | .ok fresh => ({ s with active := fresh }, .ok ())

/-- `is_active` of a snapshot: granted, and not expired at `nowMs`. -/
def isActive (active : ExtTreeMap (BytesN 32) VisitorEntry) (endpointId : BytesN 32)
    (nowMs : UInt64) : Bool :=
  active[endpointId]?.any fun entry => entry.expiresAt.all fun expires => nowMs < expires

/-! ## Events into memory -/

/-- `apply`: the event on disk, then the snapshot. -/
def apply (s : VisitorRegistry) (record : VisitorRecord) (endpointId : BytesN 32) (o : Landing) :
    VisitorRegistry × Except String Unit :=
  match o.result with
  | .error e => ({ s with file := o.onto s.file record }, .error e)
  | .ok () =>
    let active :=
      match record.op with
      | .grant =>
        s.active.insert endpointId {
          endpointId
          grantedAt := record.ts
          expiresAt := record.expiresAt
          aliasName := record.aliasName
          note := record.note }
      | .revoke => s.active.erase endpointId
    ({ file := o.onto s.file record, active }, .ok ())

/-- `encode_id`: the digits of the registry's `encode_key`. -/
def grant (s : VisitorRegistry) (endpointId : BytesN 32) (aliasName note : Option String)
    (expiresAt : Option UInt64) (now : UInt64) (o : Landing) :
    VisitorRegistry × Except String Unit :=
  s.apply { op := .grant, endpointId := encodeKey endpointId, aliasName, note, expiresAt, ts := now }
    endpointId o

def revoke (s : VisitorRegistry) (endpointId : BytesN 32) (now : UInt64) (o : Landing) :
    VisitorRegistry × Except String Unit :=
  s.apply
    { op := .revoke
      endpointId := encodeKey endpointId
      aliasName := none
      note := none
      expiresAt := none
      ts := now }
    endpointId o

/-- `update_metadata`: a grant that keeps the expiry; `false` is no visitor. -/
def updateMetadata (s : VisitorRegistry) (endpointId : BytesN 32) (aliasName note : Option String)
    (now : UInt64) (o : Landing) : VisitorRegistry × Except String Bool :=
  match s.active[endpointId]? with
  | none => (s, .ok false)
  | some existing =>
    let record : VisitorRecord :=
      { op := .grant
        endpointId := encodeKey endpointId
        aliasName
        note
        expiresAt := existing.expiresAt
        ts := now }
    match o.result with
    | .error e => ({ s with file := o.onto s.file record }, .error e)
    | .ok () =>
      let active := s.active.insert endpointId {
        endpointId
        grantedAt := record.ts
        expiresAt := record.expiresAt
        aliasName := record.aliasName
        note := record.note }
      ({ file := o.onto s.file record, active }, .ok true)

/-! ## Memory and file -/

def Replayed (s : VisitorRegistry) : Prop := loadActive s.file = .ok s.active

theorem load_replayed {file : List VisitorRecord} {s : VisitorRegistry} (h : load file = .ok s) :
    s.Replayed := by
  obtain ⟨_, hload, hpure⟩ := bind_eq_ok.mp h
  cases pure_eq_ok.mp hpure
  exact hload

theorem Replayed.load {s : VisitorRegistry} (h : s.Replayed) : load s.file = .ok s := by
  rw [VisitorRegistry.load, h]
  rfl

theorem Replayed.reload {s : VisitorRegistry} (h : s.Replayed) : s.reload.1 = s := by
  unfold VisitorRegistry.reload
  rw [h]

theorem Replayed.apply {s : VisitorRegistry} (h : s.Replayed) {record : VisitorRecord}
    {endpointId : BytesN 32} (hid : record.endpointId = encodeKey endpointId) :
    (s.apply record endpointId .ok).1.Replayed := by
  show replay loadStep ∅ (s.file ++ [record]) = _
  rw [replay_snoc h]
  simp only [loadStep, hid, parseAt_encodeKey]
  cases hop : record.op with
  | grant => simp only [VisitorRegistry.apply, Landing.result, hop]; rfl
  | revoke => simp only [VisitorRegistry.apply, Landing.result, hop]; rfl

theorem Replayed.grant {s : VisitorRegistry} (h : s.Replayed) (endpointId : BytesN 32)
    (aliasName note : Option String) (expiresAt : Option UInt64) (now : UInt64) :
    (s.grant endpointId aliasName note expiresAt now .ok).1.Replayed :=
  h.apply rfl

theorem Replayed.revoke {s : VisitorRegistry} (h : s.Replayed) (endpointId : BytesN 32)
    (now : UInt64) : (s.revoke endpointId now .ok).1.Replayed :=
  h.apply rfl

theorem Replayed.updateMetadata {s : VisitorRegistry} (h : s.Replayed) (endpointId : BytesN 32)
    (aliasName note : Option String) (now : UInt64) :
    (s.updateMetadata endpointId aliasName note now .ok).1.Replayed := by
  unfold VisitorRegistry.updateMetadata
  cases s.active[endpointId]? with
  | none => exact h
  | some existing =>
    show replay loadStep ∅ (s.file ++ [_]) = _
    rw [replay_snoc h]
    simp only [loadStep, parseAt_encodeKey]
    rfl

end VisitorRegistry

end Dweb
