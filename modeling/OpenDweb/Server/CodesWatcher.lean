import OpenDweb.Server.Codes
import OpenDweb.Server.LedgerWatcher

/-!
# OpenDweb — the watcher of the codes

Embedding of `spawn_codes_ledger_watcher_every` of `dweb-server/src/access/codes.rs`: one task over
two files, as the codes' ledger is completed from the owners'. It records a fingerprint only after
the reload, and polls again, whatever the fingerprints, while work is left over.

* **`codesWatcherMachine`** — the polls of the task between the operations of the process, edits
  of both files and faults of both.
* **`reconcile_replayed`** — a reconciliation without failed appends publishes the fold of the file
  it leaves.
* **`WatchedCodes.Tracked`** — the steps that do not get past the watcher.
* **`hot_reload_converges`** — with the watcher of the other ledgers: in a run of such steps a poll
  that finds its files readable and unchanged leaves the fold of the file published.
-/

namespace Dweb

open Std (ExtTreeMap)
open Option Std.ExtTreeMap

/-! ## State -/

inductive CodesPc where
  | starting
  | startingOwners (codes : Fingerprint)
  | sleeping
  | statOwners (codes : Fingerprint)
  /-- Both fingerprints are taken; the denied codes come next. -/
  | comparing (current : Fingerprint × Fingerprint)
  | reloadingOwners (current : Fingerprint × Fingerprint)
  /-- The owners are published; their orphans come next. -/
  | collecting (current : Fingerprint × Fingerprint)
  | reloadingCodes (current : Fingerprint × Fingerprint) (orphans : List RedeemKey)
  deriving DecidableEq

/-- The fingerprint of the codes' file that is to be recorded. -/
def CodesPc.held : CodesPc → Option Fingerprint
  | .starting | .sleeping => none
  | .startingOwners c | .statOwners c => some c
  | .comparing current | .reloadingOwners current | .collecting current
  | .reloadingCodes current _ => some current.1

structure WatchedCodes where
  codes : CodeLedger
  owners : OwnerRegistry
  codesDisk : LedgerDisk
  ownersDisk : LedgerDisk
  pc : CodesPc
  last : Fingerprint × Fingerprint
  ownersReloadRetry : Bool
  steady : Bool
  legible : Bool
  polls : Nat
  /-- Both, and the owners' file could be read too, of the poll that ended last. -/
  found : Bool

/-- The operations on the codes' ledger, each under its lock. -/
inductive CodesCall where
  | issue (params : CodeLedger.IssueParams) (drawn : List (BytesN 32)) (now now' : UInt64)
      (o : Landing)
  | revoke (hash : BytesN 32) (now : UInt64) (o : Landing)
  /-- `o` ends the append to the owners' file, `o'` the one to the codes'. -/
  | redeem (key : RedeemKey) (aliasName : Option String) (now nowMs : UInt64) (o o' : Landing)

def CodesCall.exec (c : CodesCall) (codes : CodeLedger) (owners : OwnerRegistry) :
    Option (CodeLedger × OwnerRegistry) :=
  match c with
  | .issue params drawn now now' o =>
    (codes.issue params drawn now now' o).map fun r => (r.1, owners)
  | .revoke hash now o => some ((codes.revoke hash now o).1, owners)
  | .redeem key aliasName now nowMs o o' =>
    let r := codes.redeem owners key aliasName now nowMs o o'
    some (r.1, r.2.1)

inductive CodesLabel where
  /-- The fingerprints are those of the files that gain a line. -/
  | call (c : CodesCall) (stamp ownersStamp : Nat × Nat)
  | owners (c : OwnerCall) (o : Landing) (stamp : Nat × Nat)
  | reloadOwners
  | editCodes (e : Option (FileImage CodeRecord))
  | editOwners (e : Option (FileImage OwnerRecord))
  | faultCodes (readable : Bool)
  | faultOwners (readable : Bool)
  /-- The next step of the task, up to the reload of the codes. -/
  | advance
  /-- That reload: clock and endings of its appends, and the fingerprint they leave. -/
  | reload (io : Nat → UInt64 × Landing) (stamp : Nat × Nat)

def LedgerDisk.grow {R : Type} (d : LedgerDisk) (file file' : List R) (stamp : Nat × Nat) :
    LedgerDisk :=
  if file'.length = file.length then d else { d with stat := some stamp }

namespace WatchedCodes

/-- The end of a poll; `readable` is whether the owners could be read, where that was tried. -/
def endPoll (s : WatchedCodes) (readable : Bool) : WatchedCodes :=
  { s with
    pc := .sleeping
    polls := s.polls + 1
    found := s.steady && s.legible && readable
    steady := true }

/-- `owners.reload()`, over what of the file can be read. -/
def ownersReloaded (s : WatchedCodes) : OwnerRegistry × Except LoadError Unit :=
  if s.ownersDisk.loads then s.owners.reload else (s.owners, .error (.read ""))

/-- `codes.reload(&orphans)`, over what of the file can be read. -/
def codesReloaded (s : WatchedCodes) (orphans : List RedeemKey) (io : Nat → UInt64 × Landing) :
    CodeLedger × Except LoadError Unit :=
  if s.codesDisk.loads then s.codes.reload orphans io else (s.codes, .error (.read ""))

def advance (s : WatchedCodes) : Option WatchedCodes :=
  match s.pc with
  | .starting => some { s with pc := .startingOwners s.codesDisk.stat }
  | .startingOwners c => some { s with pc := .sleeping, last := (c, s.ownersDisk.stat) }
  | .sleeping =>
    some { s with pc := .statOwners s.codesDisk.stat, legible := s.codesDisk.readable }
  | .statOwners c => some { s with pc := .comparing (c, s.ownersDisk.stat) }
  | .comparing current =>
    let denyPending := !s.codes.deny.isEmpty
    if current = s.last ∧ denyPending = false ∧ s.ownersReloadRetry = false then
      some (s.endPoll true)
    else some { s with pc := .reloadingOwners current }
  | .reloadingOwners current =>
    match s.ownersReloaded with
    | (owners, .ok ()) => some { s with owners, pc := .collecting current }
    -- the codes are not reloaded with the orphans of before
    | (owners, .error _) => some ({ s with owners, ownersReloadRetry := true }.endPoll false)
  | .collecting current =>
    some { s with pc := .reloadingCodes current s.owners.current.codeOrphans }
  | .reloadingCodes _ _ => none

def step (s : WatchedCodes) : CodesLabel → Option WatchedCodes
  | .call c stamp ownersStamp =>
    (c.exec s.codes s.owners).map fun (codes, owners) =>
      { s with
        codes
        owners
        codesDisk := s.codesDisk.grow s.codes.file codes.file stamp
        ownersDisk := s.ownersDisk.grow s.owners.file owners.file ownersStamp
        steady := s.steady && (codes.file.length == s.codes.file.length) }
  | .owners c o stamp =>
    let owners := c.exec o s.owners
    some { s with owners, ownersDisk := s.ownersDisk.grow s.owners.file owners.file stamp }
  | .reloadOwners => some { s with owners := s.ownersReloaded.1 }
  | .editCodes e =>
    some { s with
      codes := { s.codes with file := editedRecords e }
      codesDisk := s.codesDisk.edit e
      steady := false }
  | .editOwners e =>
    some { s with
      owners := { s.owners with file := editedRecords e }
      ownersDisk := s.ownersDisk.edit e }
  | .faultCodes readable =>
    some { s with
      codesDisk := { s.codesDisk with readable }
      legible := s.legible && readable }
  | .faultOwners readable => some { s with ownersDisk := { s.ownersDisk with readable } }
  | .advance => s.advance
  | .reload io stamp =>
    match s.pc with
    | .reloadingCodes current orphans =>
      let (codes, result) := s.codesReloaded orphans io
      let s' := { s with
        codes
        codesDisk := s.codesDisk.grow s.codes.file codes.file stamp }
      match result with
      | .ok () => some ({ s' with ownersReloadRetry := false, last := current }.endPoll true)
      -- the fingerprint stays as it was: the next poll tries again
      | .error _ => some (s'.endPoll true)
    | _ => none

def Folds (s : WatchedCodes) (snap : CodeSnapshot) : Prop :=
  s.codesDisk.garbled = false ∧ CodeLedger.loadRecords s.codes.file = .ok snap

/-- After a poll that found the files readable and the codes' unchanged, what is published is its
fold. -/
def Converged (s : WatchedCodes) : Prop :=
  s.found = true → ∀ snap, s.Folds snap → s.codes.current = snap

end WatchedCodes

/-- Codes that are loaded, with the orphans of the time, and a watcher that is spawned. -/
def codesWatcherMachine : Machine WatchedCodes CodesLabel where
  init s := s.pc = .starting ∧ s.codesDisk.garbled = false ∧ s.steady = false ∧ s.legible = false
    ∧ ∃ file orphans io, CodeLedger.load file orphans io = .ok s.codes
  step := WatchedCodes.step

/-! ## Reloads -/

namespace CodeLedger

/-- A reload whose appends succeed publishes the fold of the file it leaves; one that reports an
error leaves everything. -/
theorem reload_replayed {s : CodeLedger} {orphans : List RedeemKey} {io : Nat → UInt64 × Landing}
    (hok : ∀ k < orphans.length, (io k).2 = .ok) :
    ((s.reload orphans io).2 = .ok ()
        ∧ loadRecords (s.reload orphans io).1.file = .ok (s.reload orphans io).1.current)
      ∨ ∃ e, loadRecords s.file = .error e ∧ s.reload orphans io = (s, .error e) := by
  cases hload : loadRecords s.file with
  | error e =>
    refine Or.inr ⟨e, rfl, ?_⟩
    rw [reload, loadInner, hload]
    rfl
  | ok snap =>
    have hinner := loadInner_of_loads hload orphans io
    have hdeny : (reconcile io 0 orphans
        { file := s.file, consumed := snap.consumed, deny := ∅ }).deny.isEmpty = true := by
      rw [deny_reconcile_ok fun k hk => hok k (by omega)]
      rfl
    refine Or.inl ?_
    simp only [reload, hinner, hdeny, if_true]
    exact ⟨trivial, reconcile_replayed hload hdeny⟩

theorem load_replayed {file : List CodeRecord} {orphans : List RedeemKey}
    {io : Nat → UInt64 × Landing} {s : CodeLedger} (h : load file orphans io = .ok s) :
    loadRecords s.file = .ok s.current ∨ ∃ hash, AwaitsReload s.deny hash := by
  obtain ⟨⟨snap, r⟩, hinner, hpure⟩ := bind_eq_ok.mp h
  obtain ⟨snap', hload, hpure'⟩ := bind_eq_ok.mp hinner
  cases pure_eq_ok.mp hpure
  cases pure_eq_ok.mp hpure'
  cases hdeny : (reconcile io 0 orphans
      { file, consumed := snap'.consumed, deny := ∅ }).deny.isEmpty with
  | true => exact Or.inl (reconcile_replayed hload hdeny)
  | false =>
    obtain ⟨hash, d, hd⟩ : ∃ hash d, (reconcile io 0 orphans
        { file, consumed := snap'.consumed, deny := ∅ }).deny[hash]? = some d := by
      by_contra hnone
      refine isEmpty_eq_false_iff.mp hdeny (ext_getElem? fun hash => ?_)
      rw [getElem?_empty]
      exact eq_none_iff_forall_ne_some.mpr fun d hd => hnone ⟨hash, d, hd⟩
    exact Or.inr ⟨hash, d, hd, source_reconcile (fun _ _ h => by simp at h) hash d hd⟩

end CodeLedger

/-! ## Operations -/

theorem CodeLedger.redeem_fst (s : CodeLedger) (owners : OwnerRegistry) (key : RedeemKey)
    (aliasName : Option String) (now nowMs : UInt64) (o o' : Landing) :
    (s.redeem owners key aliasName now nowMs o o').1
      = match s.redeemStart owners key aliasName now nowMs o with
        | (s', _, .done _) => s'
        | (s', _, .complete expiresAt) => (s'.completePending key expiresAt now o').1 := by
  rw [CodeLedger.redeem]
  rcases s.redeemStart owners key aliasName now nowMs o with ⟨s', owners', step⟩
  cases step with
  | done outcome => rfl
  | complete expiresAt =>
    dsimp only
    rcases s'.completePending key expiresAt now o' with ⟨s'', result⟩
    cases result with
    | ok => rfl
    | error e => rfl

namespace CodesCall

variable {c : CodesCall} {codes codes' : CodeLedger} {owners owners' : OwnerRegistry}

/-- What an operation does to the codes, told by the one line it may append. -/
inductive Moved (codes : CodeLedger) : CodesCall → CodeLedger → Prop where
  | idle {c : CodesCall} {codes' : CodeLedger} (hfile : codes'.file = codes.file)
      (hcurrent : codes'.current = codes.current) (hdeny : codes'.deny = codes.deny) :
      Moved codes c codes'
  | issued {params : CodeLedger.IssueParams} {drawn : List (BytesN 32)} {now now' : UInt64}
      {o : Landing} {record : CodeRecord} {hash : BytesN 32} {entry : CodeEntry}
      (hstep : ∀ snap n, CodeLedger.loadStep snap (n, record)
        = .ok { snap with codes := snap.codes.insert hash entry }) :
      Moved codes (.issue params drawn now now' o) (codes.applyEvent record hash entry o).1
  | revoked {hash : BytesN 32} {now : UInt64} {o : Landing} :
      Moved codes (.revoke hash now o) (codes.revoke hash now o).1
  | redeemed {key : RedeemKey} {aliasName : Option String} {now nowMs expiresAt : UInt64}
      {o o' : Landing} {started : CodeLedger} (hfile : started.file = codes.file)
      (hcurrent : started.current = codes.current) (hdeny : started.deny = codes.deny) :
      Moved codes (.redeem key aliasName now nowMs o o')
        (started.completePending key expiresAt now o').1

theorem moved_of_exec (h : c.exec codes owners = some (codes', owners')) :
    Moved codes c codes' := by
  cases c with
  | issue params drawn now now' o =>
    obtain ⟨⟨s, result⟩, hissue, heq⟩ := map_eq_some_iff.mp h
    cases heq
    obtain rfl | ⟨record, hash, entry, -, -, hstep, rfl⟩ := CodeLedger.issue_event hissue
    · exact .idle rfl rfl rfl
    · exact .issued hstep
  | revoke hash now o =>
    cases h
    exact .revoked
  | redeem key aliasName now nowMs o o' =>
    cases h
    rw [CodeLedger.redeem_fst]
    have hstarted := codes.redeemStart_started owners key aliasName now nowMs o
    generalize codes.redeemStart owners key aliasName now nowMs o = r at hstarted ⊢
    cases hstarted with
    | answered hnew => exact .idle rfl rfl rfl
    | failed hpending howners => exact .idle rfl rfl rfl
    | resumed hconsumed hpending howner => exact .redeemed rfl rfl rfl
    | registered hconsumed hpending hdeny hentry hrevoked hused howners =>
      exact .redeemed rfl rfl rfl

theorem Moved.same (h : Moved codes c codes')
    (hlength : codes'.file.length = codes.file.length) :
    codes'.file = codes.file ∧ codes'.current = codes.current := by
  have hevent : ∀ {record hash entry o},
      (codes.applyEvent record hash entry o).1.file.length = codes.file.length →
      (codes.applyEvent record hash entry o).1.file = codes.file
        ∧ (codes.applyEvent record hash entry o).1.current = codes.current := by
    intro record hash entry o hlen
    rcases o with _ | ⟨e, _ | _⟩
    · simp [CodeLedger.applyEvent, Landing.result, Landing.onto] at hlen
    · exact ⟨rfl, rfl⟩
    · simp [CodeLedger.applyEvent, Landing.result, Landing.onto] at hlen
  cases h with
  | idle hfile hcurrent hdeny => exact ⟨hfile, hcurrent⟩
  | issued hstep => exact hevent hlength
  | revoked => exact hevent hlength
  | @redeemed _ _ _ _ _ _ o' started hfile hcurrent hdeny =>
    rw [← hfile] at hlength
    rcases o' with _ | ⟨e, _ | _⟩
    · simp [CodeLedger.completePending, Landing.result, Landing.onto] at hlength
    · exact ⟨hfile, hcurrent⟩
    · simp [CodeLedger.completePending, Landing.result, Landing.onto] at hlength

theorem Moved.awaits (h : Moved codes c codes') {hash : BytesN 32}
    (hawaits : CodeLedger.AwaitsReload codes.deny hash) :
    CodeLedger.AwaitsReload codes'.deny hash := by
  cases h with
  | idle hfile hcurrent hdeny => exact hdeny ▸ hawaits
  | issued hstep =>
    rw [CodeLedger.applyEvent_eq]
    exact hawaits
  | revoked =>
    rw [CodeLedger.revoke, CodeLedger.applyEvent_eq]
    exact hawaits
  | redeemed hfile hcurrent hdeny =>
    exact CodeLedger.completePending_awaitsReload (hdeny ▸ hawaits) ..

/-- The operations that memory follows to the letter: no line lands whose append is reported as
failed, a revoked code is known, and no redemption is consumed, since its expiry stays in memory. -/
def Mirrored (codes : CodeLedger) : CodesCall → Prop
  | .issue _ _ _ _ o => o.lands = true → o = .ok
  | .revoke hash _ o => o.lands = true → o = .ok ∧ codes.current.codes.contains hash = true
  | .redeem _ _ _ _ _ o' => o'.lands = false

instance (codes : CodeLedger) (c : CodesCall) : Decidable (Mirrored codes c) := by
  cases c <;> unfold Mirrored <;> infer_instance

theorem Moved.replayed (h : Moved codes c codes') (hmirrored : Mirrored codes c)
    (hload : CodeLedger.loadRecords codes.file = .ok codes.current) :
    CodeLedger.loadRecords codes'.file = .ok codes'.current := by
  have hevent : ∀ {record hash entry o}, (o.lands = true → o = .ok) →
      (o = .ok → ∀ n, CodeLedger.loadStep codes.current (n, record)
        = .ok { codes.current with codes := codes.current.codes.insert hash entry }) →
      CodeLedger.loadRecords (codes.applyEvent record hash entry o).1.file
        = .ok (codes.applyEvent record hash entry o).1.current := by
    intro record hash entry o ho hstep
    rcases o with _ | ⟨e, _ | _⟩
    · exact CodeLedger.loadRecords_onto hload (hstep rfl) .ok
    · exact hload
    · cases ho rfl
  cases h with
  | idle hfile hcurrent hdeny => rw [hfile, hcurrent, hload]
  | issued hstep => exact hevent hmirrored fun _ => hstep _
  | @revoked hash now o =>
    refine hevent (fun hl => (hmirrored hl).1) fun hok n => ?_
    subst hok
    obtain ⟨entry, hentry⟩ := isSome_iff_exists.mp
      (isSome_getElem?_eq_contains.trans (hmirrored rfl).2)
    simp only [CodeLedger.loadStep, parseAt_hexStr, bind, Except.bind, hentry]
    rfl
  | @redeemed _ _ _ _ _ _ o' started hfile hcurrent hdeny =>
    rcases o' with _ | ⟨e, _ | _⟩
    · cases hmirrored
    · exact (congrArg CodeLedger.loadRecords hfile).trans (hload.trans (congrArg _ hcurrent.symm))
    · cases hmirrored

end CodesCall

/-! ## What the watcher tracks -/

namespace WatchedCodes

variable {s s' : WatchedCodes} {l : CodesLabel}

/-- The fingerprints a change of the codes' file must not give it: the recorded one, and the one
that is to be recorded. -/
def Marked (s : WatchedCodes) (stat : Fingerprint) : Prop :=
  stat = s.last.1 ∨ s.pc.held = some stat

instance (s : WatchedCodes) (stat : Fingerprint) : Decidable (s.Marked stat) := by
  unfold Marked
  infer_instance

/-- The steps that do not get past the watcher: before its first look at the codes' file nobody
edits it, and memory follows every operation to the letter; later each change gives the file a
fingerprint the watcher does not hold; and no append of a reload fails. -/
def Tracked (s : WatchedCodes) : CodesLabel → Prop
  | .call c stamp _ => if s.pc = .starting then c.Mirrored s.codes else ¬s.Marked (some stamp)
  | .editCodes e => s.pc ≠ .starting ∧ ¬s.Marked (editedStat e)
  | .reload io _ =>
    match s.pc with
    | .reloadingCodes _ orphans => ∀ k < orphans.length, (io k).2 = .ok
    | _ => True
  | _ => True

instance (s : WatchedCodes) (l : CodesLabel) : Decidable (s.Tracked l) := by
  cases l with
  | reload io stamp =>
    unfold Tracked
    dsimp only
    split <;> infer_instance
  | _ => unfold Tracked; infer_instance

/-- What is published is the fold of the codes' file, or a denial makes the next poll reload. -/
def Settled (s : WatchedCodes) : Prop :=
  (∀ snap, s.Folds snap → s.codes.current = snap)
    ∨ ∃ hash, CodeLedger.AwaitsReload s.codes.deny hash

/-- The fingerprint that stands for what is published. -/
def recorded (s : WatchedCodes) : Fingerprint :=
  match s.pc with
  | .startingOwners c => c
  | _ => s.last.1

structure Inv (s : WatchedCodes) : Prop where
  loaded : s.pc = .starting → s.codesDisk.garbled = false
    ∧ (CodeLedger.loadRecords s.codes.file = .ok s.codes.current
      ∨ ∃ hash, CodeLedger.AwaitsReload s.codes.deny hash)
  settled : s.pc ≠ .starting → s.codesDisk.stat = s.recorded → s.Settled
  held : s.steady = true → ∀ c, s.pc.held = some c → s.codesDisk.stat = c
  legible : s.legible = true → s.codesDisk.readable = true

theorem marked_recorded (h : s.pc ≠ .starting) : s.Marked s.recorded := by
  unfold recorded Marked
  cases hpc : s.pc with
  | starting => exact absurd hpc h
  | startingOwners c => exact Or.inr rfl
  | _ => exact Or.inl rfl

theorem Inv.changed (h : s.Inv) (hstarted : s.pc ≠ .starting) {codes : CodeLedger}
    {owners : OwnerRegistry} {codesDisk ownersDisk : LedgerDisk}
    (hreadable : codesDisk.readable = s.codesDisk.readable)
    (hmarked : ¬s.Marked codesDisk.stat) :
    Inv { s with codes, owners, codesDisk, ownersDisk, steady := false } where
  loaded hpc := absurd hpc hstarted
  settled _ hstat := by
    have hstat' : codesDisk.stat = s.recorded := hstat
    rw [hstat'] at hmarked
    exact absurd (marked_recorded hstarted) hmarked
  held hsteady := by cases hsteady
  legible hlegible := by
    rw [← h.legible hlegible]
    exact hreadable

theorem Inv.unchanged (h : s.Inv) {codes : CodeLedger} {owners : OwnerRegistry}
    {ownersDisk : LedgerDisk} (hfile : codes.file = s.codes.file)
    (hcurrent : codes.current = s.codes.current)
    (hdeny : ∀ hash, CodeLedger.AwaitsReload s.codes.deny hash →
      CodeLedger.AwaitsReload codes.deny hash) :
    Inv { s with codes, owners, ownersDisk } where
  loaded hpc := by
    obtain ⟨hgarbled, hload | ⟨hash, hawaits⟩⟩ := h.loaded hpc
    · refine ⟨hgarbled, Or.inl ?_⟩
      show CodeLedger.loadRecords codes.file = .ok codes.current
      rw [hfile, hcurrent, hload]
    · exact ⟨hgarbled, Or.inr ⟨hash, hdeny hash hawaits⟩⟩
  settled hpc hstat := by
    obtain hsame | ⟨hash, hawaits⟩ := h.settled hpc hstat
    · refine Or.inl fun snap hfolds => ?_
      obtain ⟨hgarbled, hload⟩ := hfolds
      have hfolds : s.Folds snap := ⟨hgarbled, by rw [← hload]; exact congrArg _ hfile.symm⟩
      exact hcurrent.trans (hsame snap hfolds)
    · exact Or.inr ⟨hash, hdeny hash hawaits⟩
  held := h.held
  legible := h.legible

@[simp] theorem grow_readable {R : Type} (d : LedgerDisk) (file file' : List R)
    (stamp : Nat × Nat) : (d.grow file file' stamp).readable = d.readable := by
  unfold LedgerDisk.grow
  split <;> rfl

@[simp] theorem grow_garbled {R : Type} (d : LedgerDisk) (file file' : List R)
    (stamp : Nat × Nat) : (d.grow file file' stamp).garbled = d.garbled := by
  unfold LedgerDisk.grow
  split <;> rfl

theorem Inv.call (h : s.Inv) {c : CodesCall} {stamp ownersStamp : Nat × Nat}
    (htracked : s.Tracked (.call c stamp ownersStamp))
    (hstep : s.step (.call c stamp ownersStamp) = some s') : s'.Inv := by
  obtain ⟨⟨codes, owners⟩, hexec, heq⟩ := map_eq_some_iff.mp hstep
  cases heq
  have hmoved := CodesCall.moved_of_exec hexec
  by_cases hlength : codes.file.length = s.codes.file.length
  · obtain ⟨hfile, hcurrent⟩ := hmoved.same hlength
    have hsteady : (s.steady && (codes.file.length == s.codes.file.length)) = s.steady := by
      simp [hlength]
    simp only [LedgerDisk.grow, if_pos hlength, hsteady]
    exact h.unchanged hfile hcurrent fun hash => hmoved.awaits
  · have hsteady : (s.steady && (codes.file.length == s.codes.file.length)) = false := by
      simp [hlength]
    simp only [hsteady]
    by_cases hpc : s.pc = .starting
    · simp only [Tracked, if_pos hpc] at htracked
      obtain ⟨hgarbled, hload⟩ := h.loaded hpc
      refine ⟨fun _ => ⟨(grow_garbled ..).trans hgarbled, ?_⟩, fun hne => absurd hpc hne,
        fun hsteady => by (cases hsteady), fun hlegible => ?_⟩
      · obtain hload | ⟨hash, hawaits⟩ := hload
        · exact Or.inl (hmoved.replayed htracked hload)
        · exact Or.inr ⟨hash, hmoved.awaits hawaits⟩
      · exact (grow_readable ..).trans (h.legible hlegible)
    · simp only [Tracked, if_neg hpc] at htracked
      refine h.changed hpc (grow_readable ..) ?_
      rw [LedgerDisk.grow, if_neg hlength]
      exact htracked

theorem Inv.moveOn (h : s.Inv) (hpc : s.pc ≠ .starting) (hpc' : s'.pc ≠ .starting)
    (hcodes : s'.codes = s.codes) (hdisk : s'.codesDisk = s.codesDisk)
    (hrecorded : s'.recorded = s.recorded)
    (hheld : s'.steady = true → ∀ c, s'.pc.held = some c → s'.codesDisk.stat = c)
    (hlegible : s'.legible = true → s'.codesDisk.readable = true) : s'.Inv where
  loaded hstart := absurd hstart hpc'
  settled _ hstat := by
    have hsettled := h.settled hpc (by rw [← hdisk, hstat, hrecorded])
    simpa only [Settled, Folds, hcodes, hdisk] using hsettled
  held := hheld
  legible := hlegible

theorem Inv.advance (h : s.Inv) (hstep : s.advance = some s') : s'.Inv := by
  unfold WatchedCodes.advance at hstep
  cases hpc : s.pc with
  | starting =>
    simp only [hpc, some.injEq] at hstep
    cases hstep
    obtain ⟨hgarbled, hload⟩ := h.loaded hpc
    refine ⟨fun hstart => by (cases hstart), fun _ _ => ?_, fun _ c hc => ?_, h.legible⟩
    · refine hload.imp_left fun hload snap hfolds => ?_
      exact Except.ok.inj (hload.symm.trans hfolds.2)
    · cases hc
      rfl
  | startingOwners c =>
    simp only [hpc, some.injEq] at hstep
    cases hstep
    exact h.moveOn (by simp [hpc]) (by simp) rfl rfl (by simp [recorded, hpc])
      nofun h.legible
  | sleeping =>
    simp only [hpc, some.injEq] at hstep
    cases hstep
    exact h.moveOn (by simp [hpc]) (by simp) rfl rfl (by simp [recorded, hpc])
      (fun _ c hc => by cases hc; rfl) id
  | statOwners c =>
    simp only [hpc, some.injEq] at hstep
    cases hstep
    refine h.moveOn (by simp [hpc]) (by simp) rfl rfl (by simp [recorded, hpc]) ?_ h.legible
    exact fun hsteady c' hc => h.held hsteady c' (by rw [hpc]; exact hc)
  | comparing current =>
    simp only [hpc] at hstep
    split at hstep
    · cases hstep
      exact h.moveOn (by simp [hpc]) (by simp [endPoll]) rfl rfl (by simp [recorded, endPoll, hpc])
        nofun h.legible
    · cases hstep
      refine h.moveOn (by simp [hpc]) (by simp) rfl rfl (by simp [recorded, hpc]) ?_ h.legible
      exact fun hsteady c' hc => h.held hsteady c' (by rw [hpc]; exact hc)
  | reloadingOwners current =>
    simp only [hpc] at hstep
    split at hstep
    · cases hstep
      refine h.moveOn (by simp [hpc]) (by simp) rfl rfl (by simp [recorded, hpc]) ?_ h.legible
      exact fun hsteady c' hc => h.held hsteady c' (by rw [hpc]; exact hc)
    · cases hstep
      exact h.moveOn (by simp [hpc]) (by simp [endPoll]) rfl rfl (by simp [recorded, endPoll, hpc])
        nofun h.legible
  | collecting current =>
    simp only [hpc, some.injEq] at hstep
    cases hstep
    refine h.moveOn (by simp [hpc]) (by simp) rfl rfl (by simp [recorded, hpc]) ?_ h.legible
    exact fun hsteady c' hc => h.held hsteady c' (by rw [hpc]; exact hc)
  | reloadingCodes current orphans =>
    simp only [hpc] at hstep
    cases hstep

theorem codesReloaded_cases {orphans : List RedeemKey} {io : Nat → UInt64 × Landing}
    (hok : ∀ k < orphans.length, (io k).2 = .ok) :
    ((s.codesReloaded orphans io).2 = .ok ()
        ∧ CodeLedger.loadRecords (s.codesReloaded orphans io).1.file
          = .ok (s.codesReloaded orphans io).1.current)
      ∨ ∃ e, s.codesReloaded orphans io = (s.codes, .error e)
        ∧ (s.codesDisk.readable = true → ∀ snap, ¬s.Folds snap) := by
  unfold codesReloaded
  by_cases hloads : s.codesDisk.loads = true
  · rw [if_pos hloads]
    obtain hpublished | ⟨e, hfold, hreload⟩ := s.codes.reload_replayed hok
    · exact Or.inl hpublished
    · refine Or.inr ⟨e, hreload, fun _ snap hfolds => ?_⟩
      rw [hfolds.2] at hfold
      cases hfold
  · rw [if_neg hloads]
    refine Or.inr ⟨_, rfl, fun hreadable snap hfolds => hloads ?_⟩
    rw [LedgerDisk.loads, hreadable, show s.codesDisk.garbled = false from hfolds.1]
    rfl

/-- **A reload publishes the fold of the file, unless the file has none or cannot be read.** -/
theorem Inv.reload (h : s.Inv) {io : Nat → UInt64 × Landing} {stamp : Nat × Nat}
    (htracked : s.Tracked (.reload io stamp)) (hstep : s.step (.reload io stamp) = some s') :
    s'.Inv ∧ s'.Converged := by
  simp only [WatchedCodes.step] at hstep
  split at hstep
  · next current orphans hpc =>
    simp only [Tracked, hpc] at htracked
    obtain ⟨hok, hload⟩ | ⟨e, hreload, hnone⟩ := codesReloaded_cases (s := s) htracked
    · rw [hok] at hstep
      cases hstep
      have hfold : ∀ {snap : CodeSnapshot},
          CodeLedger.loadRecords (s.codesReloaded orphans io).1.file = .ok snap →
          (s.codesReloaded orphans io).1.current = snap :=
        fun hsnap => Except.ok.inj (hload.symm.trans hsnap)
      refine ⟨⟨fun hstart => by (cases hstart), fun _ _ => Or.inl fun snap hfolds => ?_,
        fun _ c hc => by (cases hc), fun hlegible => ?_⟩, fun _ snap hfolds => hfold hfolds.2⟩
      · exact hfold hfolds.2
      · exact (grow_readable ..).trans (h.legible hlegible)
    · rw [hreload] at hstep
      simp only [LedgerDisk.grow, if_true, some.injEq] at hstep
      cases hstep
      refine ⟨h.moveOn (by simp [hpc]) (by simp [endPoll]) rfl rfl
        (by simp [recorded, endPoll, hpc]) nofun h.legible,
        fun hfound snap hfolds => ?_⟩
      have hlegible : s.legible = true := by
        simp only [endPoll, Bool.and_true, Bool.and_eq_true] at hfound
        exact hfound.2
      exact absurd hfolds (hnone (h.legible hlegible) snap)
  · cases hstep

theorem Inv.step (h : s.Inv) (htracked : s.Tracked l) (hstep : s.step l = some s') : s'.Inv := by
  cases l with
  | call c stamp ownersStamp => exact h.call htracked hstep
  | owners c o stamp =>
    cases hstep
    exact h.unchanged rfl rfl fun _ => id
  | reloadOwners =>
    cases hstep
    exact h.unchanged rfl rfl fun _ => id
  | editCodes e =>
    cases hstep
    obtain ⟨hstarted, hmarked⟩ := htracked
    refine h.changed hstarted ?_ (by rw [LedgerDisk.edit_stat]; exact hmarked)
    cases e <;> rfl
  | editOwners e =>
    cases hstep
    exact h.unchanged rfl rfl fun _ => id
  | faultCodes readable =>
    cases hstep
    refine ⟨h.loaded, h.settled, h.held, fun hlegible => ?_⟩
    simp only [Bool.and_eq_true] at hlegible
    exact hlegible.2
  | faultOwners readable =>
    cases hstep
    exact h.unchanged rfl rfl fun _ => id
  | advance => exact h.advance hstep
  | reload io stamp => exact (h.reload htracked hstep).1

/-- A poll without a reload of the codes ends at equal fingerprints with nothing left over, or at
owners it could not read. -/
theorem converged_of_advance (h : s.Inv) (hstep : s.advance = some s')
    (hpolled : s'.polls = s.polls + 1) : s'.Converged := by
  have hsame : ∀ {t : WatchedCodes}, t.polls = s.polls → t.polls ≠ s.polls + 1 := by
    intro t ht
    omega
  intro hfound snap hfolds
  unfold WatchedCodes.advance at hstep
  cases hpc : s.pc with
  | comparing current =>
    simp only [hpc] at hstep
    split at hstep
    · next hskip =>
      cases hstep
      obtain ⟨hcurrent, hdeny, -⟩ := hskip
      have hsteady : s.steady = true := by
        simp only [endPoll, Bool.and_true, Bool.and_eq_true] at hfound
        exact hfound.1
      have hstat : s.codesDisk.stat = s.recorded := by
        rw [h.held hsteady current.1 (by rw [hpc]; rfl), hcurrent, recorded, hpc]
      obtain hsettled | ⟨hash, d, hd, -⟩ := h.settled (by simp [hpc]) hstat
      · exact hsettled snap hfolds
      · have hempty : s.codes.deny = ∅ := by simpa using hdeny
        rw [hempty, getElem?_empty] at hd
        cases hd
    · cases hstep
      exact absurd hpolled (hsame rfl)
  | reloadingOwners current =>
    simp only [hpc] at hstep
    split at hstep
    · cases hstep
      exact absurd hpolled (hsame rfl)
    · cases hstep
      simp [endPoll] at hfound
  | reloadingCodes current orphans =>
    simp only [hpc] at hstep
    cases hstep
  | _ =>
    simp only [hpc, some.injEq] at hstep
    cases hstep
    exact absurd hpolled (hsame rfl)

theorem converged_of_polled (h : s.Inv) (htracked : s.Tracked l) (hstep : s.step l = some s')
    (hpolled : s'.polls = s.polls + 1) : s'.Converged := by
  have hsame : ∀ {t : WatchedCodes}, t.polls = s.polls → t.polls ≠ s.polls + 1 := by
    intro t ht
    omega
  cases l with
  | advance => exact converged_of_advance h hstep hpolled
  | reload io stamp => exact (h.reload htracked hstep).2
  | call c stamp ownersStamp =>
    obtain ⟨⟨codes, owners⟩, -, heq⟩ := map_eq_some_iff.mp hstep
    cases heq
    exact absurd hpolled (hsame rfl)
  | _ =>
    cases hstep
    exact absurd hpolled (hsame rfl)

theorem inv_of_reachable (h : codesWatcherMachine.ReachableUnder Tracked s) : s.Inv := by
  refine h.invariant (I := Inv) (fun s h0 => ?_) fun s l s' h htracked hstep => ?_
  · obtain ⟨hpc, hgarbled, hsteady, hlegible, file, orphans, io, hload⟩ := h0
    exact ⟨fun _ => ⟨hgarbled, CodeLedger.load_replayed hload⟩, fun hne => absurd hpc hne,
      fun hs => by (rw [hsteady] at hs; cases hs), fun hl => by (rw [hlegible] at hl; cases hl)⟩
  · exact h.step htracked hstep

end WatchedCodes

/-- **Hot reload converges** wherever no step gets past the watchers. -/
theorem hot_reload_converges (L : ReloadableLedger) :
    (∀ (s s' : Watched L) (l : WatcherLabel L),
      (watcherMachine L).ReachableUnder Watched.Tracked s → s.Tracked l →
      (watcherMachine L).step s l = some s' → s'.polls = s.polls + 1 → s'.Converged)
    ∧ ∀ (s s' : WatchedCodes) (l : CodesLabel),
      codesWatcherMachine.ReachableUnder WatchedCodes.Tracked s → s.Tracked l →
      codesWatcherMachine.step s l = some s' → s'.polls = s.polls + 1 → s'.Converged :=
  ⟨fun _ _ _ h htracked hstep hpolled =>
      Watched.converged_of_polled (Watched.inStep_of_reachable h) htracked hstep hpolled,
    fun _ _ _ h htracked hstep hpolled =>
      WatchedCodes.converged_of_polled (WatchedCodes.inv_of_reachable h) htracked hstep hpolled⟩

/-! ## An edit that is seen, and two that are not -/

namespace SampleWatch

def stranger : BytesN 32 := BytesN.ofNat 32 7

def onDisk : LedgerDisk := { stat := some (0, 0), garbled := false, readable := true }

def blockLine : BlockRecord :=
  { op := .add, kind := .endpoint, id := encodeKey stranger, reason := none, ts := 0 }

def watched (ledger : Blocklist) : Watched blockLedger where
  ledger := ledger
  disk := onDisk
  pc := .starting
  last := none
  steady := false
  legible := false
  polls := 0
  found := false

def nobody : ExtTreeMap BlockKey BlockEntry := ∅

def strangerBlocked : ExtTreeMap BlockKey BlockEntry :=
  nobody.insert ⟨.endpoint, stranger⟩ { reason := none, ts := 0 }

theorem loadEntries_blockLine : Blocklist.loadEntries [blockLine] = .ok strangerBlocked :=
  Blocklist.Replayed.add (s := { file := [], entries := nobody }) rfl .endpoint stranger none 0

def blocking : Blocklist := { file := [blockLine], entries := strangerBlocked }

theorem emptied_unblocks :
    ∃ s, (watcherMachine blockLedger).run (watched blocking)
        [.spawn, .edit (some { stamp := (1, 0), records := some [] }), .stat, .reload, .stat]
          = some s
      ∧ Blocklist.isBlocked blocking.entries .endpoint stranger = true
      ∧ Blocklist.isBlocked s.ledger.entries .endpoint stranger = false := by
  have hrun : ∃ s s', (watcherMachine blockLedger).runUnder Watched.Tracked (watched blocking)
        [.spawn, .edit (some { stamp := (1, 0), records := some [] }), .stat, .reload] = some s
      ∧ s.Tracked .stat ∧ (watcherMachine blockLedger).step s .stat = some s'
      ∧ s'.polls = s.polls + 1 ∧ s'.found = true ∧ s'.Folds nobody
      ∧ (watcherMachine blockLedger).run (watched blocking)
        [.spawn, .edit (some { stamp := (1, 0), records := some [] }), .stat, .reload, .stat]
          = some s' :=
    ⟨_, _, rfl, trivial, rfl, rfl, rfl, ⟨rfl, rfl⟩, rfl⟩
  obtain ⟨s, s', hrun, htracked, hstep, hpolled, hfound, hfolds, hall⟩ := hrun
  have hinit : (watcherMachine blockLedger).init (watched blocking) :=
    ⟨rfl, rfl, loadEntries_blockLine, rfl⟩
  have hreach := Machine.reachableUnder_runUnder (.init hinit) hrun
  have hpublished : s'.ledger.entries = nobody :=
    (hot_reload_converges blockLedger).1 s s' .stat hreach htracked hstep hpolled hfound _ hfolds
  refine ⟨s', hall, ?_, ?_⟩
  · exact contains_insert_self
  · rw [Blocklist.isBlocked, hpublished]
    rfl

/-- The stranger is blocked from outside while the file cannot be read for a moment: the poll that
fails has recorded the fingerprint, and the next finds nothing to do. -/
theorem failed_reload_forgotten :
    ∃ s s', (watcherMachine blockLedger).Reachable s
      ∧ (watcherMachine blockLedger).step s .stat = some s'
      ∧ s'.polls = s.polls + 1 ∧ s.disk.readable = true ∧ s.steady = true ∧ ¬s'.Converged
      ∧ Blocklist.isBlocked s'.ledger.entries .endpoint stranger = false := by
  have hrun : ∃ s s', (watcherMachine blockLedger).run (watched { file := [], entries := nobody })
        [.spawn, .edit (some { stamp := (1, 80), records := some [blockLine] }), .fault false,
          .stat, .reload, .fault true] = some s
      ∧ (watcherMachine blockLedger).step s .stat = some s'
      ∧ s'.polls = s.polls + 1 ∧ s.disk.readable = true ∧ s.steady = true ∧ s'.found = true
      ∧ s'.disk.garbled = false ∧ s'.ledger = { file := [blockLine], entries := nobody } :=
    ⟨_, _, rfl, rfl, rfl, rfl, rfl, rfl, rfl, rfl⟩
  obtain ⟨s, s', hrun, hstep, hpolled, hreadable, hsteady, hfound, hgarbled, hledger⟩ := hrun
  have hinit : (watcherMachine blockLedger).init (watched { file := [], entries := nobody }) :=
    ⟨rfl, rfl, rfl, rfl⟩
  have hunblocked : Blocklist.isBlocked s'.ledger.entries .endpoint stranger = false := by
    rw [hledger]
    rfl
  refine ⟨s, s', Machine.reachable_of_run hinit hrun, hstep, hpolled, hreadable, hsteady,
    fun hconverged => ?_, hunblocked⟩
  have hfolds : s'.Folds strangerBlocked := by
    refine ⟨hgarbled, ?_⟩
    rw [hledger]
    exact loadEntries_blockLine
  have hentries : s'.ledger.entries = strangerBlocked := hconverged hfound _ hfolds
  rw [hentries, strangerBlocked, Blocklist.isBlocked, contains_insert_self] at hunblocked
  cases hunblocked

end SampleWatch

end Dweb
