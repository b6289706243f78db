import OpenDweb.Server.Registry

/-!
# OpenDweb — the blocklist

Embedding of `dweb-server/src/access/blocklist.rs`: additions and removals in `blocklist.jsonl`,
and the list they fold to. Endpoints and fabrics are blocked apart, also under one id.

* **`Blocklist.loadEntries`** — the fold over the whole file.
* **`Blocklist.Replayed`** — memory is what the file folds to; every operation keeps it.
-/

namespace Dweb

open Std (ExtTreeMap)

/-! ## Keys -/

/-- `BlockKind`, endpoints before fabrics. -/
inductive BlockKind where
  | endpoint
  | fabric

def BlockKind.rank : BlockKind → Nat
  | endpoint => 0
  | fabric => 1

instance : LinearOrder BlockKind := LinearOrder.lift' BlockKind.rank fun a b h => by
  cases a <;> cases b <;> first | rfl | cases h

/-- `BlockKey`: `(kind, id)`. -/
structure BlockKey where
  kind : BlockKind
  id : BytesN 32

def BlockKey.tuple (k : BlockKey) : BlockKind ×ₗ BytesN 32 := toLex (k.kind, k.id)

instance : LinearOrder BlockKey := LinearOrder.lift' BlockKey.tuple fun a b h => by
  cases a
  cases b
  cases toLex.injective h
  rfl

/-! ## Events -/

inductive BlockOp where
  | add
  | remove
  deriving DecidableEq

/-- One line of `blocklist.jsonl`. -/
structure BlockRecord where
  op : BlockOp
  kind : BlockKind
  id : String
  reason : Option String
  ts : UInt64
  deriving DecidableEq

structure BlockEntry where
  reason : Option String
  ts : UInt64

/-- The list: its file, in records, and the current entries. -/
structure Blocklist where
  file : List BlockRecord
  entries : ExtTreeMap BlockKey BlockEntry

namespace Blocklist

/-! ## Loading -/

/-- One record of `load_entries`. -/
def loadStep (entries : ExtTreeMap BlockKey BlockEntry) (line : Nat × BlockRecord) :
    Except LoadError (ExtTreeMap BlockKey BlockEntry) := do
  let (lineNo, record) := line
  let id ← parseAt lineNo record.id
  match record.op with
  | .add => return entries.insert ⟨record.kind, id⟩ { reason := record.reason, ts := record.ts }
  | .remove => return entries.erase ⟨record.kind, id⟩

def loadEntries (file : List BlockRecord) : Except LoadError (ExtTreeMap BlockKey BlockEntry) :=
  replay loadStep ∅ file

def load (file : List BlockRecord) : Except LoadError Blocklist := do
  let entries ← loadEntries file
  return { file, entries }

/-- `reload`: a file that does not load leaves the snapshot. -/
def reload (s : Blocklist) : Blocklist × Except LoadError Unit :=
  match loadEntries s.file with
  | .error e => (s, .error e)
  | .ok fresh => ({ s with entries := fresh }, .ok ())

/-- `is_blocked` of a snapshot. -/
def isBlocked (entries : ExtTreeMap BlockKey BlockEntry) (kind : BlockKind) (id : BytesN 32) :
    Bool :=
  entries.contains ⟨kind, id⟩

/-! ## Events into memory -/

/-- `apply`: the event on disk, then the snapshot. -/
def apply (s : Blocklist) (record : BlockRecord) (id : BytesN 32) (o : Landing) :
    Blocklist × Except String Unit :=
  match o.result with
  | .error e => ({ s with file := o.onto s.file record }, .error e)
  | .ok () =>
    let entries :=
      match record.op with
      | .add => s.entries.insert ⟨record.kind, id⟩ { reason := record.reason, ts := record.ts }
      | .remove => s.entries.erase ⟨record.kind, id⟩
    ({ file := o.onto s.file record, entries }, .ok ())

def add (s : Blocklist) (kind : BlockKind) (id : BytesN 32) (reason : Option String)
    (now : UInt64) (o : Landing) : Blocklist × Except String Unit :=
  s.apply { op := .add, kind, id := encodeKey id, reason, ts := now } id o

def remove (s : Blocklist) (kind : BlockKind) (id : BytesN 32) (now : UInt64) (o : Landing) :
    Blocklist × Except String Unit :=
  s.apply { op := .remove, kind, id := encodeKey id, reason := none, ts := now } id o

/-! ## Memory and file -/

def Replayed (s : Blocklist) : Prop := loadEntries s.file = .ok s.entries

variable {s : Blocklist}

theorem load_replayed {file : List BlockRecord} (h : load file = .ok s) : s.Replayed := by
  obtain ⟨_, hload, hpure⟩ := bind_eq_ok.mp h
  cases pure_eq_ok.mp hpure
  exact hload

theorem Replayed.load (h : s.Replayed) : load s.file = .ok s := by
  rw [Blocklist.load, h]
  rfl

theorem Replayed.reload (h : s.Replayed) : s.reload.1 = s := by
  unfold Blocklist.reload
  rw [h]

theorem Replayed.apply (h : s.Replayed) {record : BlockRecord} {id : BytesN 32}
    (hid : record.id = encodeKey id) : (s.apply record id .ok).1.Replayed := by
  show replay loadStep ∅ (s.file ++ [record]) = _
  rw [replay_snoc h]
  simp only [loadStep, hid, parseAt_encodeKey]
  cases hop : record.op with
  | add => simp only [Blocklist.apply, Landing.result, hop]; rfl
  | remove => simp only [Blocklist.apply, Landing.result, hop]; rfl

theorem Replayed.add (h : s.Replayed) (kind : BlockKind) (id : BytesN 32) (reason : Option String)
    (now : UInt64) : (s.add kind id reason now .ok).1.Replayed :=
  h.apply rfl

theorem Replayed.remove (h : s.Replayed) (kind : BlockKind) (id : BytesN 32) (now : UInt64) :
    (s.remove kind id now .ok).1.Replayed :=
  h.apply rfl

end Blocklist

end Dweb
