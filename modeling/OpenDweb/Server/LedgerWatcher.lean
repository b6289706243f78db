import OpenDweb.Lib.Machine
import OpenDweb.Server.Blocklist
import OpenDweb.Server.Visitor

/-!
# OpenDweb — the watcher of a ledger file

Embedding of `spawn_ledger_reload_watcher_every` and `stat_of` of `dweb-server/src/access/gate.rs`:
a task that compares the modification time and the length of a ledger's file with what it saw
last, and folds the file again when they differ. The file is also written by the process itself,
edited from outside, and at times not to be read.

* **`ReloadableLedger`** — the trait, with what its implementations owe; `ownerLedger`,
  `visitorLedger` and `blockLedger` implement it.
* **`watcherMachine`** — polls, writes, edits and faults, in any order.
* **`Watched.Folds`** — what the file says; **`Watched.Converged`** — what memory owes it after a
  poll that found the file readable and unchanged.
* **`Tracked`** — the steps that do not get past the watcher.
-/

namespace Dweb

open Std (ExtTreeMap)
open Option

/-! ## Files, as the operating system shows them -/

/-- `stat_of`: modification time and length; `none` is a missing file. -/
abbrev Fingerprint := Option (Nat × Nat)

structure LedgerDisk where
  stat : Fingerprint
  garbled : Bool
  readable : Bool

/-- Whether `read_records` returns the records. -/
def LedgerDisk.loads (d : LedgerDisk) : Bool := d.readable && !d.garbled

/-- A file put in the place of another; with `none` for its records one line is not a record. -/
structure FileImage (R : Type) where
  stamp : Nat × Nat
  records : Option (List R)

/-- The file after an edit; `none` removes it. -/
def LedgerDisk.edit {R : Type} (d : LedgerDisk) : Option (FileImage R) → LedgerDisk
  | none => { d with stat := none, garbled := false }
  | some image => { d with stat := some image.stamp, garbled := image.records.isNone }

def editedRecords {R : Type} (e : Option (FileImage R)) : List R :=
  (e.bind FileImage.records).getD []

def editedStat {R : Type} (e : Option (FileImage R)) : Fingerprint := e.map FileImage.stamp

@[simp] theorem LedgerDisk.edit_stat {R : Type} (d : LedgerDisk) (e : Option (FileImage R)) :
    (d.edit e).stat = editedStat e := by
  cases e <;> rfl

/-! ## Ledgers -/

/-- A ledger behind the trait of the same name: its file, in records, and its snapshot, with the
operations by which the process itself appends to it. -/
structure ReloadableLedger where
  Ledger : Type
  Record : Type
  Snapshot : Type
  Op : Type
  file : Ledger → List Record
  snapshot : Ledger → Snapshot
  overFile : Ledger → List Record → Ledger
  fold : List Record → Except LoadError Snapshot
  reloadFromDisk : Ledger → Ledger × Except LoadError Unit
  exec : Op → Landing → Ledger → Ledger
  file_overFile : ∀ s rs, file (overFile s rs) = rs
  file_reload : ∀ s, file (reloadFromDisk s).1 = file s
  reload_ok : ∀ s fresh, fold (file s) = .ok fresh → snapshot (reloadFromDisk s).1 = fresh
  /-- An operation finds nothing to do, or appends one line; memory moves if it is acknowledged. -/
  exec_event : ∀ op s, (∀ o, exec op o s = s) ∨ ∃ r, ∀ o, file (exec op o s) = o.onto (file s) r
    ∧ (o ≠ .ok → snapshot (exec op o s) = snapshot s)
  exec_ok : ∀ op s, fold (file s) = .ok (snapshot s) →
    fold (file (exec op .ok s)) = .ok (snapshot (exec op .ok s))

namespace ReloadableLedger

variable (L : ReloadableLedger)

def Replayed (s : L.Ledger) : Prop := L.fold (L.file s) = .ok (L.snapshot s)

variable {L} {s : L.Ledger}

theorem exec_idle (op : L.Op) (o : Landing)
    (h : (L.file (L.exec op o s)).length = (L.file s).length) :
    L.file (L.exec op o s) = L.file s ∧ L.snapshot (L.exec op o s) = L.snapshot s := by
  obtain hnone | ⟨r, hevent⟩ := L.exec_event op s
  · rw [hnone o]
    exact ⟨rfl, rfl⟩
  · obtain ⟨hfile, hsnapshot⟩ := hevent o
    rw [hfile, Landing.onto_eq] at h
    have hlands : o.lands = false := by
      by_contra hlands
      rw [if_pos (Bool.eq_true_of_not_eq_false hlands)] at h
      simp at h
    refine ⟨by rw [hfile, Landing.onto_eq, hlands]; rfl, hsnapshot ?_⟩
    intro hok
    rw [hok] at hlands
    cases hlands

theorem Replayed.exec (h : L.Replayed s) (op : L.Op) {o : Landing} (ho : o.lands = true → o = .ok) :
    L.Replayed (L.exec op o s) := by
  by_cases hok : o = .ok
  · subst hok
    exact L.exec_ok op s h
  · obtain hnone | ⟨r, hevent⟩ := L.exec_event op s
    · rw [hnone o]
      exact h
    · obtain ⟨hfile, hsnapshot⟩ := hevent o
      have hlands : o.lands = false := Bool.eq_false_of_not_eq_true fun hl => hok (ho hl)
      show L.fold _ = .ok _
      rw [hfile, Landing.onto_eq, hlands, hsnapshot hok]
      exact h

end ReloadableLedger

/-! ## The three ledgers -/

inductive OwnerCall where
  | register (fabricId root : BytesN 32) (now : UInt64)
  | unregister (fabricId root : BytesN 32) (now : UInt64)
  | registerViaCode (fabricId root : BytesN 32) (expiresAt : Option UInt64) (hash : BytesN 32)
      (aliasCandidate : Option String) (now : UInt64)
  | renew (fabricId root : BytesN 32) (expiresAt : Option UInt64) (now : UInt64)
  | updateMetadata (fabricId root : BytesN 32) (aliasName note : Option String) (now : UInt64)

def OwnerCall.exec (c : OwnerCall) (o : Landing) (s : OwnerRegistry) : OwnerRegistry :=
  match c with
  | .register fabricId root now => (s.register fabricId root now o).1
  | .unregister fabricId root now => (s.unregister fabricId root now o).1
  | .registerViaCode fabricId root expiresAt hash aliasCandidate now =>
    (s.registerViaCode fabricId root expiresAt hash aliasCandidate now o).1
  | .renew fabricId root expiresAt now => (s.renew fabricId root expiresAt now o).1
  | .updateMetadata fabricId root aliasName note now =>
    (s.updateMetadata fabricId root aliasName note now o).1

inductive VisitorCall where
  | grant (endpointId : BytesN 32) (aliasName note : Option String) (expiresAt : Option UInt64)
      (now : UInt64)
  | revoke (endpointId : BytesN 32) (now : UInt64)
  | updateMetadata (endpointId : BytesN 32) (aliasName note : Option String) (now : UInt64)

def VisitorCall.exec (c : VisitorCall) (o : Landing) (s : VisitorRegistry) : VisitorRegistry :=
  match c with
  | .grant endpointId aliasName note expiresAt now =>
    (s.grant endpointId aliasName note expiresAt now o).1
  | .revoke endpointId now => (s.revoke endpointId now o).1
  | .updateMetadata endpointId aliasName note now =>
    (s.updateMetadata endpointId aliasName note now o).1

inductive BlockCall where
  | add (kind : BlockKind) (id : BytesN 32) (reason : Option String) (now : UInt64)
  | remove (kind : BlockKind) (id : BytesN 32) (now : UInt64)

def BlockCall.exec (c : BlockCall) (o : Landing) (s : Blocklist) : Blocklist :=
  match c with
  | .add kind id reason now => (s.add kind id reason now o).1
  | .remove kind id now => (s.remove kind id now o).1

theorem OwnerRegistry.apply_event (s : OwnerRegistry) (record : OwnerRecord)
    (fabricId root : BytesN 32) (o : Landing) :
    (s.apply record fabricId root o).1.file = o.onto s.file record
      ∧ (o ≠ .ok → (s.apply record fabricId root o).1.current = s.current) := by
  cases o with
  | ok => exact ⟨rfl, fun ho => absurd rfl ho⟩
  | failed e kept => exact ⟨rfl, fun _ => rfl⟩

theorem OwnerRegistry.upsertLocked_event (s : OwnerRegistry) (fabricId root : BytesN 32)
    (expiresAt : Option (Option UInt64)) (aliasName note : Option (Option String))
    (viaCodeHash : Option (BytesN 32)) (now : UInt64) (o : Landing) :
    (s.upsertLocked fabricId root expiresAt aliasName note viaCodeHash now o).1.file
        = o.onto s.file (s.upsertRecord fabricId root expiresAt aliasName note viaCodeHash now)
      ∧ (o ≠ .ok →
        (s.upsertLocked fabricId root expiresAt aliasName note viaCodeHash now o).1.current
          = s.current) := by
  cases o with
  | ok => exact ⟨rfl, fun ho => absurd rfl ho⟩
  | failed e kept => exact ⟨rfl, fun _ => rfl⟩

theorem VisitorRegistry.apply_event (s : VisitorRegistry) (record : VisitorRecord)
    (endpointId : BytesN 32) (o : Landing) :
    (s.apply record endpointId o).1.file = o.onto s.file record
      ∧ (o ≠ .ok → (s.apply record endpointId o).1.active = s.active) := by
  cases o with
  | ok => exact ⟨rfl, fun ho => absurd rfl ho⟩
  | failed e kept => exact ⟨rfl, fun _ => rfl⟩

theorem Blocklist.apply_event (s : Blocklist) (record : BlockRecord) (id : BytesN 32)
    (o : Landing) :
    (s.apply record id o).1.file = o.onto s.file record
      ∧ (o ≠ .ok → (s.apply record id o).1.entries = s.entries) := by
  cases o with
  | ok => exact ⟨rfl, fun ho => absurd rfl ho⟩
  | failed e kept => exact ⟨rfl, fun _ => rfl⟩

theorem OwnerCall.exec_event (c : OwnerCall) (s : OwnerRegistry) :
    (∀ o, c.exec o s = s) ∨ ∃ r, ∀ o, (c.exec o s).file = o.onto s.file r
      ∧ (o ≠ .ok → (c.exec o s).current = s.current) := by
  cases c with
  | register | unregister =>
    exact Or.inr ⟨_, s.apply_event _ _ _⟩
  | registerViaCode =>
    exact Or.inr ⟨_, s.upsertLocked_event _ _ _ _ _ _ _⟩
  | renew fabricId root expiresAt now =>
    simp only [OwnerCall.exec, OwnerRegistry.renew]
    split
    · exact Or.inr ⟨_, s.upsertLocked_event _ _ _ _ _ _ _⟩
    · exact Or.inl fun _ => rfl
  | updateMetadata fabricId root aliasName note now =>
    simp only [OwnerCall.exec, OwnerRegistry.updateMetadata]
    split
    · exact Or.inr ⟨_, s.upsertLocked_event _ _ _ _ _ _ _⟩
    · exact Or.inl fun _ => rfl

theorem OwnerCall.exec_ok (c : OwnerCall) (s : OwnerRegistry) (h : s.Replayed) :
    (c.exec .ok s).Replayed := by
  cases c with
  | register | unregister => exact h.mutate ..
  | registerViaCode => exact h.registerViaCode ..
  | renew => exact h.renew ..
  | updateMetadata => exact h.updateMetadata ..

def ownerLedger : ReloadableLedger where
  Ledger := OwnerRegistry
  Record := OwnerRecord
  Snapshot := RegistrySnapshot
  Op := OwnerCall
  file := OwnerRegistry.file
  snapshot := OwnerRegistry.current
  overFile s rs := { s with file := rs }
  fold := OwnerRegistry.loadActive
  reloadFromDisk := OwnerRegistry.reload
  exec := OwnerCall.exec
  file_overFile _ _ := rfl
  file_reload := OwnerRegistry.reload_file
  reload_ok s fresh h := by simp only [OwnerRegistry.reload, h]
  exec_event := OwnerCall.exec_event
  exec_ok := OwnerCall.exec_ok

def visitorLedger : ReloadableLedger where
  Ledger := VisitorRegistry
  Record := VisitorRecord
  Snapshot := ExtTreeMap (BytesN 32) VisitorEntry
  Op := VisitorCall
  file := VisitorRegistry.file
  snapshot := VisitorRegistry.active
  overFile s rs := { s with file := rs }
  fold := VisitorRegistry.loadActive
  reloadFromDisk := VisitorRegistry.reload
  exec := VisitorCall.exec
  file_overFile _ _ := rfl
  file_reload s := by unfold VisitorRegistry.reload; split <;> rfl
  reload_ok s fresh h := by simp only [VisitorRegistry.reload, h]
  exec_event c s := by
    cases c with
    | grant | revoke => exact Or.inr ⟨_, s.apply_event _ _⟩
    | updateMetadata endpointId aliasName note now =>
      simp only [VisitorCall.exec, VisitorRegistry.updateMetadata]
      cases s.active[endpointId]? with
      | none => exact Or.inl fun _ => rfl
      | some existing =>
        refine Or.inr ⟨{
          op := .grant, endpointId := encodeKey endpointId, aliasName, note
          expiresAt := existing.expiresAt, ts := now }, fun o => ?_⟩
        cases o with
        | ok => exact ⟨rfl, fun ho => absurd rfl ho⟩
        | failed e kept => exact ⟨rfl, fun _ => rfl⟩
  exec_ok c s h := by
    cases c with
    | grant => exact VisitorRegistry.Replayed.grant h ..
    | revoke => exact VisitorRegistry.Replayed.revoke h ..
    | updateMetadata => exact VisitorRegistry.Replayed.updateMetadata h ..

def blockLedger : ReloadableLedger where
  Ledger := Blocklist
  Record := BlockRecord
  Snapshot := ExtTreeMap BlockKey BlockEntry
  Op := BlockCall
  file := Blocklist.file
  snapshot := Blocklist.entries
  overFile s rs := { s with file := rs }
  fold := Blocklist.loadEntries
  reloadFromDisk := Blocklist.reload
  exec := BlockCall.exec
  file_overFile _ _ := rfl
  file_reload s := by unfold Blocklist.reload; split <;> rfl
  reload_ok s fresh h := by simp only [Blocklist.reload, h]
  exec_event c s := by
    cases c with
    | add | remove => exact Or.inr ⟨_, s.apply_event _ _⟩
  exec_ok c s h := by
    cases c with
    | add => exact Blocklist.Replayed.add h ..
    | remove => exact Blocklist.Replayed.remove h ..

/-! ## The watcher -/

inductive WatcherPc where
  /-- Spawned, before its first `stat_of`; the ledger is loaded long since. -/
  | starting
  | sleeping
  | reloading
  deriving DecidableEq

structure Watched (L : ReloadableLedger) where
  ledger : L.Ledger
  disk : LedgerDisk
  pc : WatcherPc
  last : Fingerprint
  steady : Bool
  legible : Bool
  polls : Nat
  found : Bool

inductive WatcherLabel (L : ReloadableLedger) where
  /-- An operation of the process, and the fingerprint of the file if it gains a line. -/
  | write (op : L.Op) (o : Landing) (stamp : Nat × Nat)
  | edit (e : Option (FileImage L.Record))
  /-- Reading the file fails from now on, or succeeds again. -/
  | fault (readable : Bool)
  | spawn
  | stat
  | reload

namespace Watched

variable {L : ReloadableLedger}

def endPoll (s : Watched L) : Watched L :=
  { s with
    pc := .sleeping
    polls := s.polls + 1
    found := s.steady && s.legible
    steady := true }

/-- `ledger.reload_from_disk()`, over what of the file can be read. -/
def reloadedLedger (s : Watched L) : L.Ledger :=
  if s.disk.loads then (L.reloadFromDisk s.ledger).1 else s.ledger

def step (s : Watched L) : WatcherLabel L → Option (Watched L)
  | .write op o stamp =>
    let ledger := L.exec op o s.ledger
    if (L.file ledger).length = (L.file s.ledger).length then some { s with ledger }
    else some { s with ledger, disk := { s.disk with stat := some stamp }, steady := false }
  | .edit e =>
    some { s with
      ledger := L.overFile s.ledger (editedRecords e)
      disk := s.disk.edit e
      steady := false }
  | .fault readable =>
    some { s with disk := { s.disk with readable }, legible := s.legible && readable }
  | .spawn =>
    if s.pc = .starting then some { s with pc := .sleeping, last := s.disk.stat } else none
  | .stat =>
    if s.pc = .sleeping then
      let current := s.disk.stat
      let s := { s with legible := s.disk.readable }
      if current = s.last then some s.endPoll
      -- recorded before the reload, whatever comes of it
      else some { s with last := current, pc := .reloading }
    else none
  | .reload =>
    if s.pc = .reloading then some { s with ledger := s.reloadedLedger }.endPoll else none

def Folds (s : Watched L) (snap : L.Snapshot) : Prop :=
  s.disk.garbled = false ∧ L.fold (L.file s.ledger) = .ok snap

/-- After a poll that found the file readable and unchanged, what is published is its fold. -/
def Converged (s : Watched L) : Prop :=
  s.found = true → ∀ snap, s.Folds snap → L.snapshot s.ledger = snap

end Watched

def watcherMachine (L : ReloadableLedger) : Machine (Watched L) (WatcherLabel L) where
  init s := s.pc = .starting ∧ s.disk.garbled = false ∧ L.Replayed s.ledger ∧ s.steady = false
  step := Watched.step

/-! ## What the watcher tracks -/

namespace Watched

variable {L : ReloadableLedger} {s s' : Watched L} {l : WatcherLabel L}

/-- The steps that do not get past the watcher: before its first look at the file nobody edits it,
and no line lands whose append is reported as failed; later each change gives the file another
fingerprint than the one recorded; and a reload does not fail on a file that is well-formed. -/
def Tracked (s : Watched L) : WatcherLabel L → Prop
  | .write _ o stamp =>
    if s.pc = .starting then o.lands = true → o = .ok else some stamp ≠ s.last
  | .edit e => s.pc ≠ .starting ∧ editedStat e ≠ s.last
  | .reload =>
    s.disk.readable = true ∨ s.disk.garbled = true ∨ (L.fold (L.file s.ledger)).toOption.isNone
  | _ => True

instance (s : Watched L) (l : WatcherLabel L) : Decidable (s.Tracked l) := by
  cases l <;> unfold Tracked <;> infer_instance

/-- What is published is the fold of the file: until the watcher looks, and then while the file has
the fingerprint it has recorded. -/
def InStep (s : Watched L) : Prop :=
  match s.pc with
  | .starting => s.disk.garbled = false ∧ L.Replayed s.ledger
  | .sleeping => s.disk.stat = s.last → ∀ snap, s.Folds snap → L.snapshot s.ledger = snap
  | .reloading => True

theorem published_reload (h : s.Tracked .reload) {snap : L.Snapshot}
    (hfolds : { s with ledger := s.reloadedLedger }.Folds snap) :
    L.snapshot s.reloadedLedger = snap := by
  obtain ⟨hgarbled, hfold⟩ := hfolds
  have hfile : L.file s.reloadedLedger = L.file s.ledger := by
    unfold reloadedLedger
    split
    · exact L.file_reload s.ledger
    · rfl
  have hfold' : L.fold (L.file s.ledger) = .ok snap := by rw [← hfile]; exact hfold
  have hreadable : s.disk.readable = true := by
    obtain h | h | h := h
    · exact h
    · rw [show s.disk.garbled = false from hgarbled] at h
      cases h
    · rw [hfold'] at h
      cases h
  have hloads : s.disk.loads = true := by
    rw [LedgerDisk.loads, hreadable, show s.disk.garbled = false from hgarbled]
    rfl
  rw [reloadedLedger, if_pos hloads]
  exact L.reload_ok s.ledger snap hfold'

theorem InStep.step (h : s.InStep) (htracked : s.Tracked l) (hstep : s.step l = some s') :
    s'.InStep := by
  cases l with
  | write op o stamp =>
    simp only [Watched.step] at hstep
    simp only [Tracked] at htracked
    split at hstep
    · next hlength =>
      cases hstep
      -- the file is the same, and so is memory
      obtain ⟨hfile, hsnapshot⟩ := ReloadableLedger.exec_idle op o hlength
      simpa only [InStep, Folds, ReloadableLedger.Replayed, hfile, hsnapshot] using h
    · cases hstep
      unfold InStep at h ⊢
      cases hpc : s.pc with
      | starting =>
        simp only [hpc, if_true] at h htracked ⊢
        exact ⟨h.1, h.2.exec op htracked⟩
      | sleeping =>
        simp only [hpc, reduceCtorEq, if_false] at htracked ⊢
        exact fun hstat => absurd hstat htracked
      | reloading => trivial
  | edit e =>
    cases hstep
    obtain ⟨hstarted, hstat⟩ := htracked
    unfold InStep
    cases hpc : s.pc with
    | starting => exact absurd hpc hstarted
    | sleeping =>
      simp only [LedgerDisk.edit_stat]
      exact fun h => absurd h hstat
    | reloading => trivial
  | fault readable =>
    cases hstep
    exact h
  | spawn =>
    obtain ⟨hpc, hstep⟩ := ite_none_right_eq_some.mp hstep
    cases hstep
    simp only [InStep, hpc] at h
    intro _ snap hfolds
    exact Except.ok.inj (h.2.symm.trans hfolds.2)
  | stat =>
    obtain ⟨hpc, hstep⟩ := ite_none_right_eq_some.mp hstep
    simp only [InStep, hpc] at h
    split at hstep
    · cases hstep
      exact h
    · cases hstep
      trivial
  | reload =>
    obtain ⟨-, hstep⟩ := ite_none_right_eq_some.mp hstep
    cases hstep
    exact fun _ snap hfolds => published_reload htracked hfolds

theorem converged_of_polled (h : s.InStep) (htracked : s.Tracked l) (hstep : s.step l = some s')
    (hpolled : s'.polls = s.polls + 1) : s'.Converged := by
  intro _ snap hfolds
  have hsame : ∀ {t : Watched L}, t.polls = s.polls → t.polls ≠ s.polls + 1 := by
    intro t ht
    omega
  cases l with
  | write op o stamp =>
    simp only [Watched.step] at hstep
    split at hstep <;> cases hstep <;> exact absurd hpolled (hsame rfl)
  | edit e =>
    cases hstep
    exact absurd hpolled (hsame rfl)
  | fault readable =>
    cases hstep
    exact absurd hpolled (hsame rfl)
  | spawn =>
    obtain ⟨-, hstep⟩ := ite_none_right_eq_some.mp hstep
    cases hstep
    exact absurd hpolled (hsame rfl)
  | stat =>
    obtain ⟨hpc, hstep⟩ := ite_none_right_eq_some.mp hstep
    simp only [InStep, hpc] at h
    split at hstep
    · next hstat =>
      cases hstep
      exact h hstat snap hfolds
    · cases hstep
      exact absurd hpolled (hsame rfl)
  | reload =>
    obtain ⟨-, hstep⟩ := ite_none_right_eq_some.mp hstep
    cases hstep
    exact published_reload htracked hfolds

theorem inStep_of_reachable (h : (watcherMachine L).ReachableUnder Tracked s) : s.InStep := by
  refine h.invariant (I := InStep) (fun s h0 => ?_) fun s l s' h htracked hstep => ?_
  · obtain ⟨hpc, hgarbled, hreplayed, -⟩ := h0
    rw [InStep, hpc]
    exact ⟨hgarbled, hreplayed⟩
  · exact h.step htracked hstep

end Watched

end Dweb
