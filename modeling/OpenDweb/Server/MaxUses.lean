import OpenDweb.Lib.Machine
import OpenDweb.Server.Codes

/-!
# OpenDweb — redemptions over two files

The owners' file and the codes' file of one server, through failing appends, reloads and crashes.
A redemption writes to the first, then to the second; every append may report an error with its
line in the file or not.

* **`TwoLedgers.CompletedDurable`** — a redemption that was answered as completed has both lines.
* **`TwoLedgers.WithinUses`** — no code has more tenants on disk than uses.
* **`TwoLedgers.Accounted`** — the invariant: every tenant on disk is consumed in the snapshot, or
  its redemption is pending, or its code is denied and every orphan list still names it.
* **`max_uses_respected`** — the first holds in every run; the second in every run in which no
  failed append of a redemption leaves its owners' line.
-/

namespace Dweb

open Std (ExtTreeMap ExtTreeSet LawfulEqCmp)
open List Option Std.ExtTreeMap Finset

/-! ## The system -/

/-- A redemption between its two lines; it holds the codes' lock. -/
structure Redeeming where
  key : RedeemKey
  expiresAt : UInt64
  now : UInt64

structure TwoLedgers where
  owners : OwnerRegistry
  codes : CodeLedger
  busy : Option Redeeming
  /-- The orphan lists taken from the owners since the start. -/
  orphanSets : List (List RedeemKey)
  /-- The keys whose redemption was answered as completed. -/
  completed : List RedeemKey

/-- The calls, with what the clocks say and how the appends end. -/
inductive LedgerCall where
  | ownerRegister (fabricId root : BytesN 32) (now : UInt64) (o : Landing)
  | ownerUnregister (fabricId root : BytesN 32) (now : UInt64) (o : Landing)
  | ownerRenew (fabricId root : BytesN 32) (expiresAt : Option UInt64) (now : UInt64) (o : Landing)
  | ownerMetadata (fabricId root : BytesN 32) (aliasName note : Option String) (now : UInt64)
      (o : Landing)
  | ownersReload
  | takeOrphans
  | issue (params : CodeLedger.IssueParams) (drawn : List (BytesN 32)) (now now' : UInt64)
      (o : Landing)
  | revoke (hash : BytesN 32) (now : UInt64) (o : Landing)
  | redeem (key : RedeemKey) (aliasName : Option String) (now nowMs : UInt64) (o : Landing)
  | complete (o : Landing)
  | codesReload (orphans : List RedeemKey) (io : Nat → UInt64 × Landing)
  | restart (io : Nat → UInt64 × Landing)

namespace TwoLedgers

/-- The start of a server: the owners are loaded, then the codes with their orphans. -/
def boot (ownersFile : List OwnerRecord) (codesFile : List CodeRecord)
    (io : Nat → UInt64 × Landing) (completed : List RedeemKey) : Option TwoLedgers :=
  match OwnerRegistry.load ownersFile with
  | .error _ => none
  | .ok owners =>
    match CodeLedger.load codesFile owners.current.codeOrphans io with
    | .error _ => none
    | .ok codes =>
      some { owners, codes, busy := none, orphanSets := [owners.current.codeOrphans], completed }

/-- One call, at the granularity of the locks: while a redemption is between its lines, the codes
are not touched by others, the owners are. -/
def step (s : TwoLedgers) : LedgerCall → Option TwoLedgers
  | .ownerRegister f r now o => some { s with owners := (s.owners.register f r now o).1 }
  | .ownerUnregister f r now o => some { s with owners := (s.owners.unregister f r now o).1 }
  | .ownerRenew f r expiresAt now o =>
    some { s with owners := (s.owners.renew f r expiresAt now o).1 }
  | .ownerMetadata f r aliasName note now o =>
    some { s with owners := (s.owners.updateMetadata f r aliasName note now o).1 }
  | .ownersReload => some { s with owners := s.owners.reload.1 }
  | .takeOrphans => some { s with orphanSets := s.owners.current.codeOrphans :: s.orphanSets }
  | .issue params drawn now now' o =>
    if s.busy.isSome then none
    else (s.codes.issue params drawn now now' o).map fun out => { s with codes := out.1 }
  | .revoke hash now o =>
    if s.busy.isSome then none else some { s with codes := (s.codes.revoke hash now o).1 }
  | .redeem key aliasName now nowMs o =>
    if s.busy.isSome then none
    else
      match s.codes.redeemStart s.owners key aliasName now nowMs o with
      | (codes, owners, .done _) => some { s with codes, owners }
      | (codes, owners, .complete expiresAt) =>
        some { s with codes, owners, busy := some { key, expiresAt, now } }
  | .complete o =>
    s.busy.map fun r =>
      match s.codes.completePending r.key r.expiresAt r.now o with
      | (codes, .ok ()) => { s with codes, busy := none, completed := r.key :: s.completed }
      | (codes, .error _) => { s with codes, busy := none }
  | .codesReload orphans io =>
    if s.busy.isSome ∨ orphans ∉ s.orphanSets then none
    else some { s with codes := (s.codes.reload orphans io).1 }
  | .restart io => boot s.owners.file s.codes.file io s.completed

/-! ## What is claimed -/

/-- How often a code may be redeemed, by its lines on disk. -/
def maxUses (file : List CodeRecord) (hash : BytesN 32) : Nat :=
  match CodeLedger.loadRecords file with
  | .ok snap => CodeLedger.uses snap hash
  | .error _ => 0

def WithinUses (ownersFile : List OwnerRecord) (codesFile : List CodeRecord) : Prop :=
  ∀ hash, (tenants ownersFile hash).card ≤ maxUses codesFile hash

/-- A redemption that was answered as completed has its line in both files. -/
def CompletedDurable (s : TwoLedgers) : Prop :=
  ∀ key ∈ s.completed, Registered s.owners.file key
    ∧ ∃ ts, CodeLedger.consumeRecord key ts ∈ s.codes.file

/-- No redemption is told that its owners' line failed while the line is in the file. -/
def RegistersHonestly (_ : TwoLedgers) : LedgerCall → Prop
  | .redeem _ _ _ _ o => o = .ok ∨ o.lands = false
  | _ => True

instance (s : TwoLedgers) (l : LedgerCall) : Decidable (s.RegistersHonestly l) := by
  cases l <;> unfold RegistersHonestly <;> infer_instance

end TwoLedgers

/-- A server over its restarts, from any pair of files that are within the uses. -/
def redemptions : Machine TwoLedgers LedgerCall where
  init s := ∃ ownersFile codesFile io, TwoLedgers.WithinUses ownersFile codesFile
    ∧ TwoLedgers.boot ownersFile codesFile io [] = some s
  step := TwoLedgers.step

/-! ## Both lines of an answer -/

namespace TwoLedgers

structure Durable (s : TwoLedgers) : Prop where
  pending : ∀ (hash : BytesN 32) (p : PendingEntry), s.codes.pending[hash]? = some p →
    Registered s.owners.file ⟨hash, p.owner⟩
  busy : ∀ r, s.busy = some r → Registered s.owners.file r.key
  completed : s.CompletedDurable

variable {s : TwoLedgers}

theorem Durable.withOwners (h : s.Durable) {owners : OwnerRegistry}
    (hgrows : ∀ key, Registered s.owners.file key → Registered owners.file key) :
    { s with owners }.Durable where
  pending hash p hp := hgrows _ (h.pending hash p hp)
  busy r hr := hgrows _ (h.busy r hr)
  completed key hkey := ⟨hgrows key (h.completed key hkey).1, (h.completed key hkey).2⟩

theorem Durable.withBeside (h : s.Durable) {owners : OwnerRegistry}
    (hbeside : s.owners.Beside owners) : { s with owners }.Durable :=
  h.withOwners fun key hkey => (hbeside.registered key).mpr hkey

theorem Durable.withCodes (h : s.Durable) {codes : CodeLedger}
    (hfile : ∀ x ∈ s.codes.file, x ∈ codes.file)
    (hpending : ∀ (hash : BytesN 32) (p : PendingEntry), codes.pending[hash]? = some p →
      s.codes.pending[hash]? = some p) :
    { s with codes }.Durable where
  pending hash p hp := h.pending hash p (hpending hash p hp)
  busy := h.busy
  completed key hkey := by
    obtain ⟨hreg, ts, hts⟩ := h.completed key hkey
    exact ⟨hreg, ts, hfile _ hts⟩

theorem Durable.withEvent (h : s.Durable) (record : CodeRecord) (hash : BytesN 32)
    (entry : CodeEntry) (o : Landing) :
    { s with codes := (s.codes.applyEvent record hash entry o).1 }.Durable := by
  rw [CodeLedger.applyEvent_eq]
  exact h.withCodes (fun x hx => Landing.mem_onto.mpr (Or.inl hx)) fun _ _ hp => hp

theorem Durable.redeem (h : s.Durable) {key : RedeemKey} {aliasName : Option String}
    {now nowMs : UInt64} {o : Landing} {s' : TwoLedgers}
    (hstep : s.step (.redeem key aliasName now nowMs o) = some s') : s'.Durable := by
  simp only [step] at hstep
  split at hstep
  · cases hstep
  have hstarted := CodeLedger.redeemStart_started s.codes s.owners key aliasName now nowMs o
  generalize s.codes.redeemStart s.owners key aliasName now nowMs o = out at hstarted hstep
  cases hstarted with
  | answered =>
    cases hstep
    exact h
  | @resumed p _ hpending howner =>
    cases hstep
    refine ⟨h.pending, fun r hr => ?_, h.completed⟩
    cases hr
    have hreg := h.pending _ p hpending
    rw [howner] at hreg
    exact hreg
  | @registered entry expiresAt nowMs aliasName owners' _ _ _ _ _ _ howners =>
    cases hstep
    have hgrows := OwnerRegistry.registered_of_registerViaCode howners
    have hkey : Registered owners'.file key := by
      obtain ⟨rfl, -⟩ := OwnerRegistry.registerViaCode_eq_ok howners
      exact (hgrows key).mpr (Or.inr ⟨rfl, rfl⟩)
    refine ⟨fun hash p hp => ?_, fun r hr => ?_, fun key' hkey' => ?_⟩
    · rcases getElem?_insert_cases hp with ⟨rfl, rfl⟩ | ⟨-, hp⟩
      · exact hkey
      · exact (hgrows _).mpr (Or.inl (h.pending hash p hp))
    · cases hr
      exact hkey
    · exact ⟨(hgrows key').mpr (Or.inl (h.completed key' hkey').1), (h.completed key' hkey').2⟩
  | failed hpending howners =>
    cases hstep
    have hgrows := h.withOwners fun k hk =>
      (OwnerRegistry.registered_of_registerViaCode howners k).mpr (Or.inl hk)
    refine hgrows.withCodes (fun _ hx => hx) fun hash p hp => ?_
    obtain ⟨hne, hp⟩ := getElem?_erase_some hp
    rwa [ExtTreeMap.getElem?_insert, if_neg fun heq => hne (compare_eq_iff_eq.mp heq)] at hp

theorem Durable.complete (h : s.Durable) {o : Landing} {s' : TwoLedgers}
    (hstep : s.step (.complete o) = some s') : s'.Durable := by
  obtain ⟨r, hr, heq⟩ := map_eq_some_iff.mp hstep
  cases o with
  | ok =>
    cases heq
    refine ⟨fun hash p hp => ?_, (by intros; contradiction), fun key hkey => ?_⟩
    · simp only [CodeLedger.completePending, Landing.result, getElem?_erase] at hp
      split at hp
      · cases hp
      · exact h.pending hash p hp
    · rcases List.mem_cons.mp hkey with rfl | hkey
      · refine ⟨h.busy r hr, r.now, ?_⟩
        exact mem_append_right _ List.mem_cons_self
      · obtain ⟨hreg, ts, hts⟩ := h.completed key hkey
        exact ⟨hreg, ts, mem_append_left _ hts⟩
  | failed e kept =>
    cases heq
    refine ⟨h.pending, (by intros; contradiction), fun key hkey => ?_⟩
    obtain ⟨hreg, ts, hts⟩ := h.completed key hkey
    exact ⟨hreg, ts, Landing.mem_onto.mpr (Or.inl hts)⟩

theorem Durable.boot {ownersFile : List OwnerRecord} {codesFile : List CodeRecord}
    {io : Nat → UInt64 × Landing} {completed : List RedeemKey}
    (h : ∀ key ∈ completed, Registered ownersFile key
      ∧ ∃ ts, CodeLedger.consumeRecord key ts ∈ codesFile)
    (hboot : boot ownersFile codesFile io completed = some s) : s.Durable := by
  simp only [TwoLedgers.boot] at hboot
  split at hboot
  · cases hboot
  · next owners howners =>
    split at hboot
    · cases hboot
    · next codes hcodes =>
      cases hboot
      obtain ⟨⟨current, r⟩, hinner, hpure⟩ := bind_eq_ok.mp hcodes
      cases pure_eq_ok.mp hpure
      obtain ⟨snap, -, hpure⟩ := bind_eq_ok.mp hinner
      cases pure_eq_ok.mp hpure
      obtain ⟨regs, -, hpure⟩ := bind_eq_ok.mp howners
      cases pure_eq_ok.mp hpure
      refine ⟨fun hash p hp => ?_, nofun, fun key hkey => ?_⟩
      · simp at hp
      · obtain ⟨hreg, ts, hts⟩ := h key hkey
        exact ⟨hreg, ts, CodeLedger.mem_reconcile hts⟩

theorem Durable.step (h : s.Durable) {l : LedgerCall} {s' : TwoLedgers}
    (hstep : s.step l = some s') : s'.Durable := by
  cases l with
  | ownerRegister | ownerUnregister =>
    cases hstep
    exact h.withBeside (OwnerRegistry.mutate_beside ..)
  | ownerRenew =>
    cases hstep
    exact h.withBeside (OwnerRegistry.renew_beside ..)
  | ownerMetadata =>
    cases hstep
    exact h.withBeside (OwnerRegistry.updateMetadata_beside ..)
  | ownersReload =>
    cases hstep
    exact h.withOwners fun key hkey => s.owners.reload_file ▸ hkey
  | takeOrphans =>
    cases hstep
    exact ⟨h.pending, h.busy, h.completed⟩
  | issue params drawn now now' o =>
    simp only [TwoLedgers.step] at hstep
    split at hstep
    · cases hstep
    · obtain ⟨⟨codes, result⟩, hissue, rfl⟩ := map_eq_some_iff.mp hstep
      rcases CodeLedger.issue_event hissue with rfl | ⟨record, hash, entry, -, -, -, rfl⟩
      · exact h
      · exact h.withEvent ..
  | revoke hash now o =>
    simp only [TwoLedgers.step] at hstep
    split at hstep
    · cases hstep
    · cases hstep
      exact h.withEvent ..
  | redeem => exact h.redeem hstep
  | complete => exact h.complete hstep
  | codesReload orphans io =>
    simp only [TwoLedgers.step] at hstep
    split at hstep
    · cases hstep
    · cases hstep
      obtain ⟨hfile, hpending⟩ := s.codes.reload_keeps orphans io
      exact h.withCodes hfile hpending
  | restart io => exact .boot h.completed hstep

/-! ## Tenants and consumed keys -/

/-- A tenant on disk is consumed in the snapshot, or its redemption is pending, or its code is
denied for a reconciliation and every orphan list names it. -/
def Covered (s : TwoLedgers) (key : RedeemKey) : Prop :=
  s.codes.current.consumed.contains key = true
    ∨ (∃ p, s.codes.pending[key.codeHash]? = some p ∧ p.owner = key.owner)
    ∨ (CodeLedger.AwaitsReload s.codes.deny key.codeHash ∧ ∀ orphans ∈ s.orphanSets, key ∈ orphans)

/-- The invariant, with what the codes' file folds to. -/
structure Accounted (s : TwoLedgers) (snap : CodeSnapshot) : Prop where
  loads : OwnerRegistry.Loads s.owners.file
  memory : ∀ key, key ∈ s.owners.current.viaCode ↔ Registered s.owners.file key
  disk : CodeLedger.loadRecords s.codes.file = .ok snap
  consumed : ∀ key, s.codes.current.consumed.contains key = true →
    snap.consumed.contains key = true
  uses : ∀ (hash : BytesN 32) (entry : CodeEntry), s.codes.current.codes[hash]? = some entry →
    entry.revoked = false → CodeLedger.uses snap hash = entry.maxUses.toNat
  known : ∀ key, Registered s.owners.file key →
    s.codes.current.codes.contains key.codeHash = true
  bound : ∀ hash, (tenants s.owners.file hash).card ≤ CodeLedger.uses snap hash
  covered : ∀ key, Registered s.owners.file key → s.Covered key
  busy : ∀ r, s.busy = some r →
    ∃ p, s.codes.pending[r.key.codeHash]? = some p ∧ p.owner = r.key.owner

variable {snap : CodeSnapshot}

theorem Accounted.withinUses (h : s.Accounted snap) : WithinUses s.owners.file s.codes.file := by
  intro hash
  rw [maxUses, h.disk]
  exact h.bound hash

theorem exists_of_registered {file : List OwnerRecord}
    (hbound : ∀ hash, (tenants file hash).card ≤ CodeLedger.uses snap hash) {key : RedeemKey}
    (hreg : Registered file key) : snap.codes.contains key.codeHash = true := by
  have hmem : key.owner ∈ tenants file key.codeHash := mem_tenants.mpr hreg
  have hpos : 0 < CodeLedger.uses snap key.codeHash :=
    Nat.lt_of_lt_of_le (card_pos.mpr ⟨_, hmem⟩) (hbound key.codeHash)
  rw [← isSome_getElem?_eq_contains]
  unfold CodeLedger.uses at hpos
  split at hpos
  · next hentry => rw [hentry]; rfl
  · exact absurd hpos (Nat.lt_irrefl 0)

theorem tenants_congr {file file' : List OwnerRecord}
    (h : ∀ key, Registered file' key ↔ Registered file key) (hash : BytesN 32) :
    tenants file' hash = tenants file hash := by
  ext k
  rw [mem_tenants, mem_tenants, h]

theorem card_tenants_le {file : List OwnerRecord} {current : CodeSnapshot} {hash : BytesN 32}
    (h : ∀ k, Registered file ⟨hash, k⟩ → current.consumed.contains ⟨hash, k⟩ = true) :
    (tenants file hash).card ≤ current.usedCount hash := by
  have hsub : tenants file hash ⊆ ((current.consumed.keys.filter
      fun key => key.codeHash = hash).map RedeemKey.owner).toFinset := by
    intro k hk
    have hin := h k (mem_tenants.mp hk)
    refine List.mem_toFinset.mpr (List.mem_map.mpr ⟨⟨hash, k⟩, ?_, rfl⟩)
    refine List.mem_filter.mpr ⟨?_, decide_eq_true rfl⟩
    exact ExtTreeMap.mem_keys.mpr (ExtTreeMap.contains_iff_mem.mp hin)
  calc (tenants file hash).card
      ≤ _ := card_le_card hsub
    _ ≤ _ := toFinset_card_le _
    _ = current.usedCount hash := length_map _

/-! ## Calls that leave the codes alone -/

theorem Accounted.withBeside (h : s.Accounted snap) {owners : OwnerRegistry}
    (hbeside : s.owners.Beside owners) : ({ s with owners } : TwoLedgers).Accounted snap where
  loads := hbeside.loads h.loads
  memory key := by
    show key ∈ owners.current.viaCode ↔ _
    rw [hbeside.viaCode, hbeside.registered]
    exact h.memory key
  disk := h.disk
  consumed := h.consumed
  uses := h.uses
  known key hkey := h.known key ((hbeside.registered key).mp hkey)
  bound hash := by
    show (tenants owners.file hash).card ≤ _
    rw [tenants_congr hbeside.registered]
    exact h.bound hash
  covered key hkey := h.covered key ((hbeside.registered key).mp hkey)
  busy := h.busy

theorem Accounted.ownersReload (h : s.Accounted snap) :
    ({ s with owners := s.owners.reload.1 } : TwoLedgers).Accounted snap := by
  refine h.withBeside ⟨?_, fun key => by rw [s.owners.reload_file], fun hloads => ?_⟩
  · obtain ⟨regs, hregs⟩ := h.loads
    have hsame : ∀ key, key ∈ regs.viaCode ↔ key ∈ s.owners.current.viaCode := fun key => by
      rw [OwnerRegistry.mem_loadActive hregs, h.memory]
    unfold OwnerRegistry.reload
    rw [hregs]
    exact ExtTreeSet.ext_mem hsame
  · rw [s.owners.reload_file]
    exact hloads

theorem Accounted.takeOrphans (h : s.Accounted snap) :
    ({ s with orphanSets := s.owners.current.codeOrphans :: s.orphanSets }
      : TwoLedgers).Accounted snap :=
  { h with
    covered := fun key hkey => by
      refine (h.covered key hkey).imp_right (Or.imp_right fun ⟨hdeny, hall⟩ => ⟨hdeny, ?_⟩)
      intro orphans horphans
      rcases List.mem_cons.mp horphans with rfl | hmem
      · exact ExtTreeSet.mem_toList.mpr ((h.memory key).mpr hkey)
      · exact hall orphans hmem }

/-! ## Events of the codes' file -/

theorem Accounted.withLine (h : s.Accounted snap) {file : List CodeRecord} {snap' : CodeSnapshot}
    (hdisk : CodeLedger.loadRecords file = .ok snap')
    (hconsumed : ∀ key, snap.consumed.contains key = true → snap'.consumed.contains key = true)
    (huses : ∀ hash, CodeLedger.uses snap' hash = CodeLedger.uses snap hash) :
    ({ s with codes := { s.codes with file } } : TwoLedgers).Accounted snap' :=
  { h with
    disk := hdisk
    consumed := fun key hkey => hconsumed key (h.consumed key hkey)
    uses := fun hash entry hentry hrevoked =>
      (huses hash).trans (h.uses hash entry hentry hrevoked)
    bound := fun hash => (huses hash) ▸ h.bound hash }

theorem Accounted.withEntry (h : s.Accounted snap) (hash : BytesN 32) {entry : CodeEntry}
    (hentry : entry.revoked = false → CodeLedger.uses snap hash = entry.maxUses.toNat) :
    ({ s with codes := { s.codes with
        current := { s.codes.current with codes := s.codes.current.codes.insert hash entry } } }
      : TwoLedgers).Accounted snap :=
  { h with
    uses := fun hash' entry' hentry' hrevoked => by
      rcases getElem?_insert_cases hentry' with ⟨rfl, rfl⟩ | ⟨-, hentry'⟩
      · exact hentry hrevoked
      · exact h.uses hash' entry' hentry' hrevoked
    known := fun key hkey => by
      show (s.codes.current.codes.insert hash entry).contains key.codeHash = true
      rw [ExtTreeMap.contains_insert, h.known key hkey, Bool.or_true] }

theorem Accounted.issued (h : s.Accounted snap) {record : CodeRecord} {hash : BytesN 32}
    {entry : CodeEntry} (hnew : s.codes.current.codes.contains hash = false)
    (hstep : ∀ snap n, CodeLedger.loadStep snap (n, record)
      = .ok { snap with codes := snap.codes.insert hash entry }) (o : Landing) :
    ∃ snap', ({ s with codes := (s.codes.applyEvent record hash entry o).1 }
      : TwoLedgers).Accounted snap' := by
  have hnone : tenants s.owners.file hash = ∅ := by
    refine eq_empty_of_forall_notMem fun k hk => ?_
    have hknown := h.known _ (mem_tenants.mp hk)
    rw [hnew] at hknown
    exact Bool.false_ne_true hknown
  have hdisk := CodeLedger.loadRecords_onto h.disk (fun n => hstep snap n) o
  have huses := CodeLedger.uses_insert snap hash
  -- the line on disk, with memory as it was
  have hline : o.lands = true →
      ({ s with codes := { s.codes with file := o.onto s.codes.file record } }
        : TwoLedgers).Accounted { snap with codes := snap.codes.insert hash entry } := fun hlands =>
    { h with
      disk := by rw [hdisk, if_pos hlands]
      consumed := h.consumed
      uses := fun hash' entry' hentry' hrevoked => by
        rw [huses, if_neg]
        · exact h.uses hash' entry' hentry' hrevoked
        · rintro rfl
          rw [← isSome_getElem?_eq_contains, hentry'] at hnew
          cases hnew
      bound := fun hash' => by
        show (tenants s.owners.file hash').card ≤ _
        rw [huses]
        split
        · next heq => rw [← heq, hnone]; exact Nat.zero_le _
        · exact h.bound hash' }
  rw [CodeLedger.applyEvent_eq]
  rcases o with _ | ⟨e, _ | _⟩
  · refine ⟨_, (hline rfl).withEntry hash fun _ => ?_⟩
    rw [huses, if_pos rfl]
  · exact ⟨snap, h⟩
  · exact ⟨_, hline rfl⟩

theorem Accounted.revoked (h : s.Accounted snap) (hash : BytesN 32) (now : UInt64) (o : Landing) :
    ∃ snap', ({ s with codes := (s.codes.revoke hash now o).1 } : TwoLedgers).Accounted snap' := by
  obtain ⟨record, entry, heq, hrevoked, hfold⟩ := s.codes.revoke_event hash now o
  obtain ⟨snap', hstep, hconsumed, huses⟩ := hfold snap
  have hdisk := CodeLedger.loadRecords_onto h.disk hstep o
  rw [heq, CodeLedger.applyEvent_eq]
  have hnot : entry.revoked = false → CodeLedger.uses snap' hash = entry.maxUses.toNat :=
    fun hfalse => absurd (hrevoked.symm.trans hfalse) (by decide)
  rcases o with _ | ⟨e, _ | _⟩
  · exact ⟨snap', (h.withLine hdisk (fun _ hkey => hconsumed ▸ hkey) huses).withEntry hash hnot⟩
  · exact ⟨snap, h⟩
  · exact ⟨snap', h.withLine hdisk (fun _ hkey => hconsumed ▸ hkey) huses⟩

/-! ## Redemptions -/

/-- **A new tenant fits**: every tenant so far is counted, and the count is below the uses. -/
theorem Accounted.bound_registered (h : s.Accounted snap) {key : RedeemKey} {entry : CodeEntry}
    {file : List OwnerRecord}
    (hpending : s.codes.pending[key.codeHash]? = none)
    (hdeny : s.codes.deny.contains key.codeHash = false)
    (hentry : s.codes.current.codes[key.codeHash]? = some entry) (hrevoked : entry.revoked = false)
    (hused : s.codes.current.usedCount key.codeHash < entry.maxUses.toNat)
    (hfile : ∀ k, Registered file k → Registered s.owners.file k ∨ key = k) (hash : BytesN 32) :
    (tenants file hash).card ≤ CodeLedger.uses snap hash := by
  by_cases hhash : key.codeHash = hash
  · subst hhash
    -- neither pending nor denied, every tenant is consumed
    have hcounted : (tenants s.owners.file key.codeHash).card
        ≤ s.codes.current.usedCount key.codeHash := card_tenants_le fun k hk => by
      rcases h.covered _ hk with hin | ⟨p, hp, -⟩ | ⟨⟨d, hd, -⟩, -⟩
      · exact hin
      · rw [hpending] at hp
        cases hp
      · rw [← isSome_getElem?_eq_contains, hd] at hdeny
        cases hdeny
    have hsub : tenants file key.codeHash
        ⊆ insert key.owner (tenants s.owners.file key.codeHash) := by
      intro k hk
      rw [Finset.mem_insert, mem_tenants]
      rcases hfile _ (mem_tenants.mp hk) with hold | heq
      · exact Or.inr hold
      · rw [heq]
        exact Or.inl rfl
    have hcard := (card_le_card hsub).trans (card_insert_le _ _)
    rw [h.uses key.codeHash entry hentry hrevoked]
    omega
  · refine (card_le_card fun k hk => ?_).trans (h.bound hash)
    rw [mem_tenants] at hk ⊢
    refine (hfile _ hk).resolve_right fun heq => hhash ?_
    rw [heq]

theorem Accounted.redeem (h : s.Accounted snap) {key : RedeemKey} {aliasName : Option String}
    {now nowMs : UInt64} {o : Landing} (honest : o = .ok ∨ o.lands = false) {s' : TwoLedgers}
    (hstep : s.step (.redeem key aliasName now nowMs o) = some s') : s'.Accounted snap := by
  simp only [step] at hstep
  split at hstep
  · cases hstep
  have hstarted := CodeLedger.redeemStart_started s.codes s.owners key aliasName now nowMs o
  generalize s.codes.redeemStart s.owners key aliasName now nowMs o = out at hstarted hstep
  cases hstarted with
  | answered =>
    cases hstep
    exact h
  | @resumed p _ hpending howner =>
    cases hstep
    exact { h with busy := fun r hr => by cases hr; exact ⟨p, hpending, howner⟩ }
  | @registered entry expiresAt nowMs aliasName owners' _ hpending hdeny hentry hrevoked hused
      howners =>
    cases hstep
    obtain ⟨rfl, hvia⟩ := OwnerRegistry.registerViaCode_eq_ok howners
    have hreg : ∀ k, Registered owners'.file k ↔ Registered s.owners.file k ∨ key = k := fun k =>
      (OwnerRegistry.registered_of_registerViaCode howners k).trans
        (or_congr_right (and_iff_right rfl))
    exact
      { loads := OwnerRegistry.loads_of_registerViaCode howners h.loads
        memory := fun k => by
          show k ∈ owners'.current.viaCode ↔ _
          rw [hvia, ExtTreeSet.mem_insert, LawfulEqCmp.compare_eq_iff_eq, h.memory, hreg, or_comm]
        disk := h.disk
        consumed := h.consumed
        uses := h.uses
        known := fun k hk => by
          rcases (hreg k).mp hk with hold | rfl
          · exact h.known k hold
          · show s.codes.current.codes.contains key.codeHash = true
            rw [← isSome_getElem?_eq_contains, hentry]
            rfl
        bound := h.bound_registered hpending hdeny hentry hrevoked hused fun k => (hreg k).mp
        covered := fun k hk => by
          rcases (hreg k).mp hk with hold | rfl
          · refine (h.covered k hold).imp_right (Or.imp_left fun hreserved => ?_)
            exact CodeLedger.Reserved.insert hreserved hpending _
          · exact Or.inr (Or.inl (CodeLedger.reserved_insert_self key expiresAt))
        busy := fun r hr => by
          cases hr
          exact CodeLedger.reserved_insert_self key expiresAt }
  | failed hpending howners =>
    cases hstep
    obtain ⟨hne, hvia⟩ := OwnerRegistry.viaCode_of_registerViaCode_error howners
    have hnot : o.lands = false := honest.resolve_left hne
    have hreg := OwnerRegistry.registered_of_registerViaCode howners
    have hbeside : s.owners.Beside _ :=
      { viaCode := hvia
        registered := fun k => (hreg k).trans (or_iff_left fun hc => by
          rw [hnot] at hc
          exact Bool.false_ne_true hc.1)
        loads := OwnerRegistry.loads_of_registerViaCode howners }
    -- the reservation is made and rolled back
    simp only [CodeLedger.erase_insert_of_free hpending]
    exact h.withBeside hbeside

theorem Accounted.complete (h : s.Accounted snap) {o : Landing} {s' : TwoLedgers}
    (hstep : s.step (.complete o) = some s') : ∃ snap', s'.Accounted snap' := by
  obtain ⟨r, hr, heq⟩ := map_eq_some_iff.mp hstep
  have hline := CodeLedger.loadRecords_consume h.disk r.key r.now
  have hgrows : ∀ key, snap.consumed.contains key = true →
      (snap.consumed.insertIfNew r.key (r.now, none)).contains key = true := fun key hkey => by
    rw [contains_insertIfNew, hkey, Bool.or_true]
  cases o with
  | ok =>
    cases heq
    have hdisk := h.withLine hline hgrows fun _ => rfl
    refine ⟨_, { hdisk with consumed := ?_, covered := ?_, busy := nofun }⟩
    · intro key hkey
      show (snap.consumed.insertIfNew r.key (r.now, none)).contains key = true
      have hkey : (s.codes.current.consumed.insert r.key (r.now, some r.expiresAt)).contains key
        = true := hkey
      rw [ExtTreeMap.contains_insert, Bool.or_eq_true] at hkey
      rw [contains_insertIfNew, Bool.or_eq_true]
      exact hkey.imp_right (h.consumed key)
    · intro key hkey
      rcases h.covered key hkey with hin | hreserved | ⟨hdeny, hall⟩
      · left
        show (s.codes.current.consumed.insert r.key (r.now, some r.expiresAt)).contains key = true
        rw [ExtTreeMap.contains_insert, hin, Bool.or_true]
      · -- the reservation that is released is this key's, or this one stays
        rcases CodeLedger.Reserved.erase hreserved (h.busy r hr) with rfl | hstays
        · exact Or.inl contains_insert_self
        · exact Or.inr (Or.inl hstays)
      · have hstill : CodeLedger.AwaitsReload
            (s.codes.completePending r.key r.expiresAt r.now .ok).1.deny key.codeHash :=
          CodeLedger.completePending_awaitsReload hdeny r.key r.expiresAt r.now .ok
        exact Or.inr (Or.inr ⟨hstill, hall⟩)
  | failed e kept =>
    cases heq
    have hdeny : ∀ hash, CodeLedger.AwaitsReload s.codes.deny hash → _ := fun hash hdeny =>
      CodeLedger.completePending_awaitsReload hdeny r.key r.expiresAt r.now (.failed e kept)
    have hkeeps : ∀ key, Registered s.owners.file key → _ := fun key hkey =>
      (h.covered key hkey).imp_right (Or.imp_right (And.imp_left (hdeny key.codeHash)))
    cases kept with
    | false => exact ⟨snap, { h with covered := hkeeps, busy := nofun }⟩
    | true =>
      have hdisk := h.withLine hline hgrows fun _ => rfl
      exact ⟨_, { hdisk with covered := hkeeps, busy := nofun }⟩

/-! ## Reloads and restarts -/

theorem loadInner_spec {file : List CodeRecord} (hdisk : CodeLedger.loadRecords file = .ok snap)
    (orphans : List RedeemKey) (io : Nat → UInt64 × Landing) :
    ∃ snapshot r snap', CodeLedger.loadInner file orphans io = .ok (snapshot, r)
      ∧ snapshot.codes = snap.codes
      ∧ CodeLedger.loadRecords r.file = .ok snap'
      ∧ snap'.codes = snap.codes
      ∧ (∀ key, snapshot.consumed.contains key = true → snap'.consumed.contains key = true)
      ∧ (∀ key, snap.consumed.contains key = true → snapshot.consumed.contains key = true)
      ∧ (∀ key ∈ orphans, snapshot.consumed.contains key = true
        ∨ CodeLedger.AwaitsReload r.deny key.codeHash) := by
  let start : CodeLedger.Reconciled := { file, consumed := snap.consumed, deny := ∅ }
  obtain ⟨snap', hload, hcodes, hcons⟩ :=
    @CodeLedger.reconcile_loads io 0 orphans start snap hdisk fun _ hkey => hkey
  refine ⟨{ codes := snap.codes, consumed := (CodeLedger.reconcile io 0 orphans start).consumed },
    CodeLedger.reconcile io 0 orphans start, snap', CodeLedger.loadInner_of_loads hdisk orphans io,
    rfl, hload, hcodes, hcons, fun key hkey => ?_, fun key hkey => ?_⟩
  · exact @CodeLedger.contains_reconcile io 0 orphans start key hkey
  · refine (@CodeLedger.reconcile_covers io 0 orphans start key hkey).imp_right fun hdeny => ?_
    rw [← isSome_getElem?_eq_contains] at hdeny
    obtain ⟨d, hd⟩ := isSome_iff_exists.mp hdeny
    refine ⟨d, hd, @CodeLedger.source_reconcile io 0 orphans start ?_ key.codeHash d hd⟩
    intro hash d hd
    simp [start] at hd

theorem consumed_of_isEmpty {snapshot : CodeSnapshot} {deny : ExtTreeMap (BytesN 32) DenyEntry}
    {key : RedeemKey} (hempty : deny.isEmpty = true)
    (h : snapshot.consumed.contains key = true ∨ CodeLedger.AwaitsReload deny key.codeHash) :
    snapshot.consumed.contains key = true := by
  refine h.resolve_right ?_
  rintro ⟨d, hd, -⟩
  rw [ExtTreeMap.isEmpty_iff] at hempty
  subst hempty
  simp at hd

theorem Accounted.codesReload (h : s.Accounted snap) {orphans : List RedeemKey}
    (horphans : orphans ∈ s.orphanSets) (hbusy : s.busy = none) (io : Nat → UInt64 × Landing) :
    ∃ snap', ({ s with codes := (s.codes.reload orphans io).1 } : TwoLedgers).Accounted snap' := by
  obtain ⟨snapshot, r, snap', hinner, hcodes, hload, hcodes', hconsumed, hkept, hcovers⟩ :=
    loadInner_spec h.disk orphans io
  have huses : ∀ hash, CodeLedger.uses snap' hash = CodeLedger.uses snap hash := fun hash => by
    rw [CodeLedger.uses, CodeLedger.uses, hcodes']
  unfold CodeLedger.reload
  rw [hinner]
  by_cases hempty : r.deny.isEmpty = true
  · -- published: nothing was denied, so every orphan is consumed
    simp only [hempty, if_true]
    refine ⟨snap', ⟨h.loads, h.memory, hload, hconsumed, ?_, ?_, ?_, ?_, ?_⟩⟩
    · intro hash entry hentry _
      rw [huses, CodeLedger.uses, ← hcodes]
      have hentry : snapshot.codes[hash]? = some entry := hentry
      rw [hentry]
    · intro key hkey
      show snapshot.codes.contains key.codeHash = true
      rw [hcodes]
      exact exists_of_registered h.bound hkey
    · intro hash
      rw [huses]
      exact h.bound hash
    · intro key hkey
      rcases h.covered key hkey with hin | hreserved | ⟨-, hall⟩
      · exact Or.inl (hkept key (h.consumed key hin))
      · -- a reservation is dropped only when its key is consumed
        exact (CodeLedger.Reserved.retain hreserved snapshot.consumed).imp_right Or.inl
      · exact Or.inl (consumed_of_isEmpty hempty (hcovers key (hall orphans horphans)))
    · intro r' hr'
      rw [hbusy] at hr'
      cases hr'
  · -- kept: only the file and the denials grow
    simp only [hempty]
    have hfile := h.withLine hload (fun key hkey => hconsumed key (hkept key hkey)) huses
    exact ⟨snap', { hfile with
      covered := fun key hkey => (h.covered key hkey).imp_right (Or.imp_right
        (And.imp_left (CodeLedger.foldl_mergeDeny_awaitsReload _))) }⟩

theorem accounted_boot {ownersFile : List OwnerRecord} {codesFile : List CodeRecord}
    {io : Nat → UInt64 × Landing} {completed : List RedeemKey}
    (hbound : WithinUses ownersFile codesFile)
    (hboot : boot ownersFile codesFile io completed = some s) : ∃ snap, s.Accounted snap := by
  simp only [boot] at hboot
  split at hboot
  · cases hboot
  · next owners howners =>
    split at hboot
    · cases hboot
    · next codes hcodes =>
      cases hboot
      obtain ⟨regs, hregs, hpure⟩ := bind_eq_ok.mp howners
      cases pure_eq_ok.mp hpure
      obtain ⟨⟨current, r⟩, hinner, hpure⟩ := bind_eq_ok.mp hcodes
      cases pure_eq_ok.mp hpure
      obtain ⟨snap, hdisk, -⟩ := bind_eq_ok.mp hinner
      obtain ⟨snapshot, r', snap', hspec, hcodes, hload, hcodes', hconsumed, -, hcovers⟩ :=
        loadInner_spec hdisk regs.codeOrphans io
      rw [hinner] at hspec
      cases hspec
      have huses : ∀ hash, CodeLedger.uses snap' hash = CodeLedger.uses snap hash := fun hash => by
        rw [CodeLedger.uses, CodeLedger.uses, hcodes']
      have hbound : ∀ hash, (tenants ownersFile hash).card ≤ CodeLedger.uses snap hash :=
        fun hash => by
          have hmax := hbound hash
          rwa [maxUses, hdisk] at hmax
      have hmemory := OwnerRegistry.mem_loadActive hregs
      refine ⟨snap', ⟨⟨regs, hregs⟩, hmemory, hload, hconsumed, ?_, ?_, ?_, ?_, (by intros; contradiction)⟩⟩
      · intro hash entry hentry _
        have hentry : current.codes[hash]? = some entry := hentry
        rw [huses, CodeLedger.uses, ← hcodes, hentry]
      · intro key hkey
        show current.codes.contains key.codeHash = true
        rw [hcodes]
        exact exists_of_registered hbound hkey
      · intro hash
        rw [huses]
        exact hbound hash
      · intro key hkey
        have horphan : key ∈ regs.codeOrphans := ExtTreeSet.mem_toList.mpr ((hmemory key).mpr hkey)
        refine (hcovers key horphan).imp_right fun hdeny => Or.inr ⟨hdeny, fun orphans hmem => ?_⟩
        rw [List.mem_singleton.mp hmem]
        exact horphan

/-- **One call keeps the invariant**, if no redemption is told wrongly that its line failed. -/
theorem Accounted.step (h : s.Accounted snap) {l : LedgerCall} (honest : s.RegistersHonestly l)
    {s' : TwoLedgers} (hstep : s.step l = some s') : ∃ snap', s'.Accounted snap' := by
  cases l with
  | ownerRegister | ownerUnregister =>
    cases hstep
    exact ⟨snap, h.withBeside (OwnerRegistry.mutate_beside ..)⟩
  | ownerRenew =>
    cases hstep
    exact ⟨snap, h.withBeside (OwnerRegistry.renew_beside ..)⟩
  | ownerMetadata =>
    cases hstep
    exact ⟨snap, h.withBeside (OwnerRegistry.updateMetadata_beside ..)⟩
  | ownersReload =>
    cases hstep
    exact ⟨snap, h.ownersReload⟩
  | takeOrphans =>
    cases hstep
    exact ⟨snap, h.takeOrphans⟩
  | issue params drawn now now' o =>
    simp only [TwoLedgers.step] at hstep
    split at hstep
    · cases hstep
    · obtain ⟨⟨codes, result⟩, hissue, rfl⟩ := map_eq_some_iff.mp hstep
      rcases CodeLedger.issue_event hissue with rfl | ⟨record, hash, entry, hnew, -, hfold, rfl⟩
      · exact ⟨snap, h⟩
      · exact h.issued hnew hfold o
  | revoke hash now o =>
    simp only [TwoLedgers.step] at hstep
    split at hstep
    · cases hstep
    · cases hstep
      exact h.revoked hash now o
  | redeem => exact ⟨snap, h.redeem honest hstep⟩
  | complete => exact h.complete hstep
  | codesReload orphans io =>
    simp only [TwoLedgers.step] at hstep
    split at hstep
    · cases hstep
    · next hfree =>
      cases hstep
      rw [not_or, not_not] at hfree
      exact h.codesReload hfree.2 (not_isSome_iff_eq_none.mp hfree.1) io
  | restart io => exact accounted_boot h.withinUses hstep

end TwoLedgers

/-! ## Runs -/

theorem durable_of_reachable {s : TwoLedgers} (h : redemptions.Reachable s) : s.Durable := by
  refine h.invariant ?_ fun s l s' hs _ hstep => hs.step hstep
  rintro s ⟨ownersFile, codesFile, io, -, hboot⟩
  exact .boot (fun _ hkey => by cases hkey) hboot

/-- **Every completed redemption has both lines in every run, and no code has more tenants than
uses in every run whose failed redemptions leave no owners' line.** -/
theorem max_uses_respected {s : TwoLedgers} (h : redemptions.Reachable s) :
    s.CompletedDurable
      ∧ (redemptions.ReachableUnder TwoLedgers.RegistersHonestly s →
        TwoLedgers.WithinUses s.owners.file s.codes.file) := by
  refine ⟨(durable_of_reachable h).completed, fun hunder => ?_⟩
  have hinv : ∃ snap, s.Accounted snap := by
    refine hunder.invariant (I := fun s => ∃ snap, s.Accounted snap) ?_ ?_
    · rintro s ⟨ownersFile, codesFile, io, hbound, hboot⟩
      exact TwoLedgers.accounted_boot hbound hboot
    · rintro s l s' ⟨snap, hs⟩ honest hstep
      exact hs.step honest hstep
  obtain ⟨snap, hs⟩ := hinv
  exact hs.withinUses

def TwoLedgers.empty : TwoLedgers where
  owners := { file := [], current := .empty }
  codes := { file := [], current := .empty, pending := ∅, deny := ∅ }
  busy := none
  orphanSets := [[]]
  completed := []

theorem TwoLedgers.init_empty : redemptions.init .empty :=
  ⟨[], [], fun _ => (0, .ok), fun hash => Nat.zero_le (maxUses [] hash), rfl⟩

def TwoLedgers.issueOne : LedgerCall :=
  .issue ⟨none, some 1, none, none⟩ [BytesN.ofNat 32 7] 100 101 .ok

def TwoLedgers.redeemBy (tenant : Nat) (o : Landing) : LedgerCall :=
  .redeem ⟨BytesN.ofNat 32 7, ⟨BytesN.ofNat 32 tenant, BytesN.ofNat 32 tenant⟩⟩ none 102 103 o

theorem max_uses_respected_completed :
    ∃ s, redemptions.run .empty
        [TwoLedgers.issueOne, TwoLedgers.redeemBy 1 .ok, .complete .ok] = some s
      ∧ s.CompletedDurable ∧ TwoLedgers.WithinUses s.owners.file s.codes.file := by
  have hrun : ∃ s, redemptions.run .empty
        [TwoLedgers.issueOne, TwoLedgers.redeemBy 1 .ok, .complete .ok] = some s
      ∧ redemptions.runUnder TwoLedgers.RegistersHonestly .empty
        [TwoLedgers.issueOne, TwoLedgers.redeemBy 1 .ok, .complete .ok] = some s := ⟨_, rfl, rfl⟩
  obtain ⟨s, hrun, hunder⟩ := hrun
  obtain ⟨hdurable, hwithin⟩ :=
    max_uses_respected (Machine.reachable_of_run TwoLedgers.init_empty hrun)
  exact ⟨s, hrun, hdurable,
    hwithin (Machine.reachableUnder_runUnder (.init TwoLedgers.init_empty) hunder)⟩

/-- The owners' line of the first redemption is on disk when its append reports an error. The
reservation is rolled back, and the code is redeemed a second time. -/
theorem failed_register_uncounted :
    ∃ s, redemptions.Reachable s ∧ ¬TwoLedgers.WithinUses s.owners.file s.codes.file := by
  have hrun : ((redemptions.run .empty
        [TwoLedgers.issueOne, TwoLedgers.redeemBy 1 (.failed "fsync" true),
          TwoLedgers.redeemBy 2 .ok, .complete .ok]).map fun s =>
      decide ((tenants s.owners.file (BytesN.ofNat 32 7)).card
        ≤ TwoLedgers.maxUses s.codes.file (BytesN.ofNat 32 7))) = some false := by decide +kernel
  obtain ⟨s, hrun, hover⟩ := map_eq_some_iff.mp hrun
  exact ⟨s, Machine.reachable_of_run TwoLedgers.init_empty hrun,
    fun hwithin => of_decide_eq_false hover (hwithin _)⟩

end Dweb
