import OpenDweb.Lib.Machine
import OpenDweb.Server.Blocklist
import OpenDweb.Server.Codes
import OpenDweb.Server.Visitor

/-!
# OpenDweb — restarts see what memory shows

The four ledgers of one server, all of whose appends succeed: what a restart would load from the
files, against what the running instances show.

* **`CodeSnapshot.Agrees`** — two snapshots of the codes show the same; the expiry a redemption
  was answered with is known only to its process.
* **`AccessState.Replayed`** — a fresh instance of each ledger shows what the running one does.
* **`replayed_iff_known_revokes`** — this holds throughout a run exactly when every revoked code
  was in the snapshot.
-/

namespace Dweb

open Std (ExtTreeMap ExtTreeSet LawfulEqCmp)
open Option Std.ExtTreeMap

/-! ## Snapshots of the codes -/

/-- Two snapshots show the same codes, and the same keys as consumed at the same times. -/
def CodeSnapshot.Agrees (a b : CodeSnapshot) : Prop :=
  a.codes = b.codes ∧ ∀ key : RedeemKey, a.consumed[key]?.map Prod.fst = b.consumed[key]?.map Prod.fst

namespace CodeLedger

def allOk (clock : Nat → UInt64) (n : Nat) : UInt64 × Landing := (clock n, .ok)

def Replayed (s : CodeLedger) : Prop :=
  ∃ snap, loadRecords s.file = .ok snap ∧ snap.Agrees s.current

theorem contains_of_agrees {a b : CodeSnapshot} (h : a.Agrees b) (key : RedeemKey) :
    a.consumed.contains key = b.consumed.contains key := by
  have hkey := congrArg Option.isSome (h.2 key)
  rw [isSome_map, isSome_map] at hkey
  rw [← isSome_getElem?_eq_contains, ← isSome_getElem?_eq_contains, hkey]

/-! ## Issued and revoked codes -/

theorem Replayed.applyEvent {s : CodeLedger} (h : s.Replayed) {record : CodeRecord}
    {hash : BytesN 32} {entry : CodeEntry}
    (hstep : ∀ snap n, snap.codes = s.current.codes → loadStep snap (n, record)
      = .ok { snap with codes := snap.codes.insert hash entry }) :
    (s.applyEvent record hash entry .ok).1.Replayed := by
  obtain ⟨snap, hload, hcodes, hconsumed⟩ := h
  refine ⟨{ snap with codes := snap.codes.insert hash entry }, ?_, ?_, hconsumed⟩
  · show replay loadStep .empty (s.file ++ [record]) = _
    rw [replay_snoc hload, hstep snap _ hcodes]
  · show snap.codes.insert hash entry = s.current.codes.insert hash entry
    rw [hcodes]

theorem Replayed.issue {s s' : CodeLedger} (h : s.Replayed) {params : IssueParams}
    {drawn : List (BytesN 32)} {now now' : UInt64} {result : Except String (BytesN 32)}
    (hissue : s.issue params drawn now now' .ok = some (s', result)) :
    s'.Replayed ∧ s'.current.consumed = s.current.consumed := by
  rcases issue_event hissue with rfl | ⟨record, hash, entry, -, -, hstep, rfl⟩
  · exact ⟨h, rfl⟩
  · exact ⟨h.applyEvent fun snap n _ => hstep snap n, rfl⟩

theorem Replayed.revoke {s : CodeLedger} (h : s.Replayed) {hash : BytesN 32} {entry : CodeEntry}
    (hknown : s.current.codes[hash]? = some entry) (now : UInt64) :
    (s.revoke hash now .ok).1.Replayed := by
  refine h.applyEvent fun snap n hcodes => ?_
  simp only [loadStep, parseAt_hexStr, bind, Except.bind, hcodes, hknown, getD_some]
  rfl

theorem Replayed.not_revoke {s : CodeLedger} (h : s.Replayed) {hash : BytesN 32}
    (hunknown : s.current.codes[hash]? = none) (now : UInt64) :
    ¬(s.revoke hash now .ok).1.Replayed := by
  obtain ⟨snap, hload, hcodes, -⟩ := h
  rintro ⟨snap', hload', hcodes', -⟩
  have hfold : loadRecords (s.revoke hash now .ok).1.file = .ok snap := by
    show replay loadStep .empty (s.file ++ [_]) = _
    rw [replay_snoc hload]
    simp only [loadStep, parseAt_hexStr, bind, Except.bind, hcodes, hunknown]
    rfl
  rw [hload'] at hfold
  cases hfold
  have hget : snap.codes[hash]? = (s.revoke hash now .ok).1.current.codes[hash]? := by rw [hcodes']
  rw [hcodes, hunknown] at hget
  simp only [CodeLedger.revoke, CodeLedger.applyEvent, Landing.result,
    getElem?_insert_self] at hget
  cases hget

/-! ## Consumed keys -/

theorem Replayed.completePending {s : CodeLedger} (h : s.Replayed) {key : RedeemKey}
    (hnew : s.current.consumed[key]? = none) (expiresAt now : UInt64) :
    (s.completePending key expiresAt now .ok).1.Replayed := by
  obtain ⟨snap, hload, hagrees⟩ := h
  refine ⟨_, loadRecords_consume hload key now, hagrees.1, fun key' => ?_⟩
  have hnot : snap.consumed.contains key = false := by
    rw [contains_of_agrees hagrees, ← isSome_getElem?_eq_contains, hnew]
    rfl
  show (snap.consumed.insertIfNew key (now, none))[key']?.map Prod.fst
    = (s.current.consumed.insert key (now, some expiresAt))[key']?.map Prod.fst
  rw [getElem?_insertIfNew, getElem?_insert]
  by_cases hkey : compare key key' = .eq
  · rw [if_pos ⟨hkey, by rw [← contains_iff_mem, hnot]; decide⟩, if_pos hkey]
    rfl
  · rw [if_neg fun hc => hkey hc.1, if_neg hkey]
    exact hagrees.2 key'

theorem reconcile_allOk (clock : Nat → UInt64) (n : Nat) (orphans : List RedeemKey)
    {r : Reconciled} {snap : CodeSnapshot} (h : loadRecords r.file = .ok snap)
    (hconsumed : snap.consumed = r.consumed) :
    loadRecords (reconcile (allOk clock) n orphans r).file
        = .ok { snap with consumed := (reconcile (allOk clock) n orphans r).consumed }
      ∧ (reconcile (allOk clock) n orphans r).deny = r.deny := by
  induction orphans generalizing n r snap with
  | nil => exact ⟨by rw [reconcile, h, ← hconsumed], rfl⟩
  | cons key orphans ih =>
    rw [reconcile]
    split
    · exact ih n h hconsumed
    · next hnot =>
      have hfold := loadRecords_consume h key (clock n)
      have hinsert : snap.consumed.insertIfNew key (clock n, none)
          = r.consumed.insert key (clock n, none) := by
        rw [hconsumed]
        apply ext_getElem?
        intro key'
        rw [getElem?_insertIfNew, getElem?_insert]
        by_cases hkey : compare key key' = .eq
        · rw [if_pos ⟨hkey, by rwa [← contains_iff_mem]⟩, if_pos hkey]
        · rw [if_neg fun hc => hkey hc.1, if_neg hkey]
      rw [hinsert] at hfold
      exact @ih (n + 1) _ { snap with consumed := r.consumed.insert key (clock n, none) } hfold rfl

theorem load_allOk {file : List CodeRecord} {orphans : List RedeemKey} {clock : Nat → UInt64}
    {s : CodeLedger} (h : load file orphans (allOk clock) = .ok s) :
    loadRecords s.file = .ok s.current
      ∧ ∀ key ∈ orphans, s.current.consumed.contains key = true := by
  obtain ⟨⟨current, r⟩, hinner, hpure⟩ := bind_eq_ok.mp h
  cases pure_eq_ok.mp hpure
  obtain ⟨snap, hload, hpure⟩ := bind_eq_ok.mp hinner
  cases pure_eq_ok.mp hpure
  obtain ⟨hfold, hdeny⟩ := reconcile_allOk clock 0 orphans
    (show loadRecords (Reconciled.mk file snap.consumed ∅).file = .ok snap from hload) rfl
  refine ⟨hfold, fun key hkey => ?_⟩
  refine (reconcile_covers hkey).resolve_right fun hdenied => ?_
  rw [hdeny] at hdenied
  exact absurd hdenied (by simp)

theorem Replayed.load {s : CodeLedger} (h : s.Replayed) {orphans : List RedeemKey}
    (hcovered : ∀ key ∈ orphans, s.current.consumed.contains key = true)
    (clock : Nat → UInt64) :
    ∃ fresh, CodeLedger.load s.file orphans (allOk clock) = .ok fresh ∧ fresh.file = s.file
      ∧ fresh.current.Agrees s.current := by
  obtain ⟨snap, hload, hagrees⟩ := h
  have hsame : reconcile (allOk clock) 0 orphans
      { file := s.file, consumed := snap.consumed, deny := ∅ }
        = { file := s.file, consumed := snap.consumed, deny := ∅ } :=
    reconcile_of_covered fun key hkey => (contains_of_agrees hagrees key).trans (hcovered key hkey)
  refine ⟨{ file := s.file, current := snap, pending := ∅, deny := ∅ }, ?_, rfl, hagrees⟩
  simp only [CodeLedger.load, loadInner, hload, bind, Except.bind, hsame]
  rfl

theorem Replayed.reload {s : CodeLedger} (h : s.Replayed) (orphans : List RedeemKey)
    (clock : Nat → UInt64) :
    (s.reload orphans (allOk clock)).1.Replayed
      ∧ ∀ key, s.current.consumed.contains key = true →
        (s.reload orphans (allOk clock)).1.current.consumed.contains key = true := by
  obtain ⟨snap, hload, hagrees⟩ := h
  have hstart : loadRecords (Reconciled.mk s.file snap.consumed ∅).file = .ok snap := hload
  obtain ⟨hfold, hdeny⟩ := reconcile_allOk clock 0 orphans hstart rfl
  have hempty : (reconcile (allOk clock) 0 orphans ⟨s.file, snap.consumed, ∅⟩).deny.isEmpty = true := by
    rw [hdeny]
    rfl
  simp only [CodeLedger.reload, loadInner, hload, bind, Except.bind, pure, Except.pure, hempty,
    if_true]
  refine ⟨⟨_, hfold, rfl, fun _ => rfl⟩, fun key hkey => contains_reconcile ?_⟩
  exact (contains_of_agrees hagrees key).trans hkey

end CodeLedger

/-! ## The server -/

structure AccessState where
  owners : OwnerRegistry
  visitors : VisitorRegistry
  blocklist : Blocklist
  codes : CodeLedger

/-- The mutating operations and the reloads, with what the clocks say. -/
inductive AccessOp where
  | ownerRegister (fabricId root : BytesN 32) (now : UInt64)
  | ownerUnregister (fabricId root : BytesN 32) (now : UInt64)
  | ownerRenew (fabricId root : BytesN 32) (expiresAt : Option UInt64) (now : UInt64)
  | ownerMetadata (fabricId root : BytesN 32) (aliasName note : Option String) (now : UInt64)
  | ownersReload
  | visitorGrant (endpointId : BytesN 32) (aliasName note : Option String)
      (expiresAt : Option UInt64) (now : UInt64)
  | visitorRevoke (endpointId : BytesN 32) (now : UInt64)
  | visitorMetadata (endpointId : BytesN 32) (aliasName note : Option String) (now : UInt64)
  | visitorsReload
  | blockAdd (kind : BlockKind) (id : BytesN 32) (reason : Option String) (now : UInt64)
  | blockRemove (kind : BlockKind) (id : BytesN 32) (now : UInt64)
  | blocklistReload
  | codeIssue (params : CodeLedger.IssueParams) (drawn : List (BytesN 32)) (now now' : UInt64)
  | codeRevoke (hash : BytesN 32) (now : UInt64)
  | codeRedeem (key : RedeemKey) (aliasName : Option String) (now nowMs : UInt64)
  | codesReload (orphans : List RedeemKey) (clock : Nat → UInt64)

namespace AccessState

def step (s : AccessState) : AccessOp → Option AccessState
  | .ownerRegister f r now => some { s with owners := (s.owners.register f r now .ok).1 }
  | .ownerUnregister f r now => some { s with owners := (s.owners.unregister f r now .ok).1 }
  | .ownerRenew f r expiresAt now =>
    some { s with owners := (s.owners.renew f r expiresAt now .ok).1 }
  | .ownerMetadata f r aliasName note now =>
    some { s with owners := (s.owners.updateMetadata f r aliasName note now .ok).1 }
  | .ownersReload => some { s with owners := s.owners.reload.1 }
  | .visitorGrant id aliasName note expiresAt now =>
    some { s with visitors := (s.visitors.grant id aliasName note expiresAt now .ok).1 }
  | .visitorRevoke id now => some { s with visitors := (s.visitors.revoke id now .ok).1 }
  | .visitorMetadata id aliasName note now =>
    some { s with visitors := (s.visitors.updateMetadata id aliasName note now .ok).1 }
  | .visitorsReload => some { s with visitors := s.visitors.reload.1 }
  | .blockAdd kind id reason now =>
    some { s with blocklist := (s.blocklist.add kind id reason now .ok).1 }
  | .blockRemove kind id now => some { s with blocklist := (s.blocklist.remove kind id now .ok).1 }
  | .blocklistReload => some { s with blocklist := s.blocklist.reload.1 }
  | .codeIssue params drawn now now' =>
    (s.codes.issue params drawn now now' .ok).map fun out => { s with codes := out.1 }
  | .codeRevoke hash now => some { s with codes := (s.codes.revoke hash now .ok).1 }
  | .codeRedeem key aliasName now nowMs =>
    let (codes, owners, _) := s.codes.redeem s.owners key aliasName now nowMs .ok .ok
    some { s with codes, owners }
  | .codesReload orphans clock =>
    some { s with codes := (s.codes.reload orphans (CodeLedger.allOk clock)).1 }

/-- Fresh instances of the four ledgers show what the running ones do. -/
def Replayed (s : AccessState) : Prop :=
  OwnerRegistry.load s.owners.file = .ok s.owners
    ∧ VisitorRegistry.load s.visitors.file = .ok s.visitors
    ∧ Blocklist.load s.blocklist.file = .ok s.blocklist
    ∧ ∀ clock, ∃ fresh,
        CodeLedger.load s.codes.file s.owners.current.codeOrphans (CodeLedger.allOk clock)
            = .ok fresh
          ∧ fresh.file = s.codes.file ∧ fresh.current.Agrees s.codes.current

def RevokesKnown (s : AccessState) : AccessOp → Prop
  | .codeRevoke hash _ => s.codes.current.codes.contains hash = true
  | _ => True

instance (s : AccessState) (op : AccessOp) : Decidable (s.RevokesKnown op) := by
  cases op <;> unfold RevokesKnown <;> infer_instance

end AccessState

/-- The server from its start: each ledger loaded, the codes with the owners' orphans. -/
def accessMachine : Machine AccessState AccessOp where
  init s :=
    OwnerRegistry.load s.owners.file = .ok s.owners
      ∧ VisitorRegistry.load s.visitors.file = .ok s.visitors
      ∧ Blocklist.load s.blocklist.file = .ok s.blocklist
      ∧ ∃ file clock,
          CodeLedger.load file s.owners.current.codeOrphans (CodeLedger.allOk clock) = .ok s.codes
  step := AccessState.step

/-! ## The invariant -/

namespace AccessState

/-- Every ledger shows what its file folds to, and the codes show every key the owners have. -/
structure Sound (s : AccessState) : Prop where
  owners : s.owners.Replayed
  visitors : s.visitors.Replayed
  blocklist : s.blocklist.Replayed
  codes : s.codes.Replayed
  covered : ∀ key ∈ s.owners.current.viaCode, s.codes.current.consumed.contains key = true

variable {s : AccessState}

theorem Sound.replayed (h : s.Sound) : s.Replayed := by
  refine ⟨h.owners.load, h.visitors.load, h.blocklist.load, fun clock => ?_⟩
  refine h.codes.load (fun key hkey => h.covered key ?_) clock
  exact ExtTreeSet.mem_toList.mp hkey

theorem Replayed.codes (h : s.Replayed) : s.codes.Replayed := by
  obtain ⟨fresh, hload, hfile, hagrees⟩ := h.2.2.2 fun _ => 0
  exact ⟨fresh.current, hfile ▸ (CodeLedger.load_allOk hload).1, hagrees⟩

theorem Sound.withOwners (h : s.Sound) {owners : OwnerRegistry} (howners : owners.Replayed)
    (hvia : owners.current.viaCode = s.owners.current.viaCode) :
    { s with owners }.Sound :=
  { h with owners := howners, covered := fun key hkey => h.covered key (hvia ▸ hkey) }

theorem Sound.withCodes (h : s.Sound) {codes : CodeLedger} (hcodes : codes.Replayed)
    (hkeeps : ∀ key, s.codes.current.consumed.contains key = true →
      codes.current.consumed.contains key = true) :
    { s with codes }.Sound :=
  { h with codes := hcodes, covered := fun key hkey => hkeeps key (h.covered key hkey) }

theorem Sound.redeem (h : s.Sound) (key : RedeemKey) (aliasName : Option String)
    (now nowMs : UInt64) :
    { s with
      codes := (s.codes.redeem s.owners key aliasName now nowMs .ok .ok).1
      owners := (s.codes.redeem s.owners key aliasName now nowMs .ok .ok).2.1 : AccessState }.Sound
    := by
  unfold CodeLedger.redeem
  have hstarted := CodeLedger.redeemStart_started s.codes s.owners key aliasName now nowMs .ok
  generalize s.codes.redeemStart s.owners key aliasName now nowMs .ok = out at hstarted ⊢
  cases hstarted with
  | answered => exact h
  | failed _ howners => cases howners
  | @resumed p hconsumed =>
    refine h.withCodes (h.codes.completePending hconsumed p.expiresAt now) fun key' hkey' => ?_
    show (s.codes.current.consumed.insert key (now, some p.expiresAt)).contains key' = true
    rw [contains_insert, hkey', Bool.or_true]
  | @registered entry expiresAt nowMs aliasName owners' hconsumed _ _ _ _ _ howners =>
    -- the owners' line brings one key, which the consume line covers
    obtain rfl : (s.owners.registerViaCode key.owner.fabricId key.owner.root (some expiresAt)
        key.codeHash aliasName nowMs .ok).1 = owners' := congrArg Prod.fst howners
    have hcodes : CodeLedger.Replayed
        { s.codes with
          pending := s.codes.pending.insert key.codeHash { owner := key.owner, expiresAt } } :=
      h.codes
    refine ⟨h.owners.registerViaCode .., h.visitors, h.blocklist,
      hcodes.completePending hconsumed expiresAt now, fun key' hkey' => ?_⟩
    show (s.codes.current.consumed.insert key (now, some expiresAt)).contains key' = true
    have hkey' : key' ∈ s.owners.current.viaCode.insert key := hkey'
    rw [ExtTreeSet.mem_insert] at hkey'
    rw [contains_insert, Bool.or_eq_true]
    rcases hkey' with hkey' | hkey'
    · exact Or.inl (beq_iff_eq.mpr hkey')
    · exact Or.inr (h.covered key' hkey')

theorem sound_init (h : OwnerRegistry.load s.owners.file = .ok s.owners
      ∧ VisitorRegistry.load s.visitors.file = .ok s.visitors
      ∧ Blocklist.load s.blocklist.file = .ok s.blocklist
      ∧ ∃ file clock, CodeLedger.load file s.owners.current.codeOrphans (CodeLedger.allOk clock)
        = .ok s.codes) : s.Sound := by
  obtain ⟨howners, hvisitors, hblocklist, file, clock, hcodes⟩ := h
  obtain ⟨hload, hcovered⟩ := CodeLedger.load_allOk hcodes
  exact
    { owners := OwnerRegistry.load_replayed howners
      visitors := VisitorRegistry.load_replayed hvisitors
      blocklist := Blocklist.load_replayed hblocklist
      codes := ⟨s.codes.current, hload, rfl, fun _ => rfl⟩
      covered := fun key hkey => hcovered key (ExtTreeSet.mem_toList.mpr hkey) }

/-- **Every operation but the revocation of an unknown code keeps the invariant.** -/
theorem Sound.step (h : s.Sound) {op : AccessOp} (hop : s.RevokesKnown op) {s' : AccessState}
    (hstep : s.step op = some s') : s'.Sound := by
  cases op with
  | ownerRegister | ownerUnregister =>
    cases hstep
    exact h.withOwners (h.owners.mutate ..) (OwnerRegistry.mutate_viaCode ..)
  | ownerRenew =>
    cases hstep
    exact h.withOwners (h.owners.renew ..) (OwnerRegistry.renew_viaCode ..)
  | ownerMetadata =>
    cases hstep
    exact h.withOwners (h.owners.updateMetadata ..) (OwnerRegistry.updateMetadata_viaCode ..)
  | ownersReload =>
    cases hstep
    rw [h.owners.reload]
    exact h
  | visitorGrant =>
    cases hstep
    exact { h with visitors := h.visitors.grant .. }
  | visitorRevoke =>
    cases hstep
    exact { h with visitors := h.visitors.revoke .. }
  | visitorMetadata =>
    cases hstep
    exact { h with visitors := h.visitors.updateMetadata .. }
  | visitorsReload =>
    cases hstep
    rw [h.visitors.reload]
    exact h
  | blockAdd =>
    cases hstep
    exact { h with blocklist := h.blocklist.add .. }
  | blockRemove =>
    cases hstep
    exact { h with blocklist := h.blocklist.remove .. }
  | blocklistReload =>
    cases hstep
    rw [h.blocklist.reload]
    exact h
  | codeIssue params drawn now now' =>
    obtain ⟨out, hissue, rfl⟩ := map_eq_some_iff.mp hstep
    obtain ⟨hcodes, hconsumed⟩ := h.codes.issue hissue
    exact h.withCodes hcodes fun key hkey => hconsumed ▸ hkey
  | codeRevoke hash now =>
    cases hstep
    obtain ⟨entry, hentry⟩ := isSome_iff_exists.mp
      (isSome_getElem?_eq_contains.trans hop)
    exact h.withCodes (h.codes.revoke hentry now) fun _ hkey => hkey
  | codeRedeem key aliasName now nowMs =>
    cases hstep
    exact h.redeem key aliasName now nowMs
  | codesReload orphans clock =>
    cases hstep
    obtain ⟨hcodes, hkeeps⟩ := h.codes.reload orphans clock
    exact h.withCodes hcodes hkeeps

theorem Sound.not_replayed (h : s.Sound) {op : AccessOp} (hop : ¬s.RevokesKnown op)
    {s' : AccessState} (hstep : s.step op = some s') : ¬s'.Replayed := by
  cases op with
  | codeRevoke hash now =>
    cases hstep
    have hunknown : s.codes.current.codes[hash]? = none := by
      rw [← not_isSome_iff_eq_none, isSome_getElem?_eq_contains]
      exact hop
    exact fun hrep => h.codes.not_revoke hunknown now hrep.codes
  | _ => exact absurd trivial hop

end AccessState

/-- **A restart shows what memory shows**, after every operation of a run, exactly when every code
it revokes is in the snapshot. -/
theorem replayed_iff_known_revokes {s s' : AccessState} {ops : List AccessOp}
    (hinit : accessMachine.init s) (hrun : accessMachine.run s ops = some s') :
    (∀ k t, accessMachine.run s (ops.take k) = some t → t.Replayed)
      ↔ accessMachine.runUnder AccessState.RevokesKnown s ops = some s' := by
  have hsound : s.Sound := AccessState.sound_init hinit
  refine Machine.forall_take_iff (fun t op t' ht hstep => ?_) (fun t op t' ht hstep hrep => ?_)
    hsound hsound.replayed hrun
  · by_cases hop : t.RevokesKnown op
    · exact iff_of_true (ht.step hop hstep).replayed hop
    · exact iff_of_false (ht.not_replayed hop hstep) hop
  · by_cases hop : t.RevokesKnown op
    · exact ht.step hop hstep
    · exact absurd hrep (ht.not_replayed hop hstep)

def AccessState.empty : AccessState where
  owners := { file := [], current := .empty }
  visitors := { file := [], active := ∅ }
  blocklist := { file := [], entries := ∅ }
  codes := { file := [], current := .empty, pending := ∅, deny := ∅ }

theorem AccessState.init_empty : accessMachine.init .empty :=
  ⟨rfl, rfl, rfl, [], fun _ => 0, rfl⟩

theorem replayed_iff_known_revokes_issued :
    (accessMachine.run .empty
        [.codeIssue ⟨none, some 2, none, none⟩ [BytesN.ofNat 32 7] 100 101,
          .codeRevoke (BytesN.ofNat 32 7) 102]).isSome
      ∧ ∀ k t, accessMachine.run .empty
        ([.codeIssue ⟨none, some 2, none, none⟩ [BytesN.ofNat 32 7] 100 101,
          .codeRevoke (BytesN.ofNat 32 7) 102].take k) = some t → t.Replayed := by
  have hrun : ∃ s', accessMachine.run .empty
      [.codeIssue ⟨none, some 2, none, none⟩ [BytesN.ofNat 32 7] 100 101,
        .codeRevoke (BytesN.ofNat 32 7) 102] = some s'
      ∧ accessMachine.runUnder AccessState.RevokesKnown .empty
        [.codeIssue ⟨none, some 2, none, none⟩ [BytesN.ofNat 32 7] 100 101,
          .codeRevoke (BytesN.ofNat 32 7) 102] = some s' :=
    ⟨_, rfl, rfl⟩
  obtain ⟨s', hrun, hunder⟩ := hrun
  exact ⟨by rw [hrun]; rfl, (replayed_iff_known_revokes AccessState.init_empty hrun).mpr hunder⟩

theorem unknown_revoke_lost :
    ∃ t, accessMachine.init .empty
      ∧ accessMachine.run .empty [.codeRevoke (BytesN.ofNat 32 7) 100] = some t
      ∧ ¬t.Replayed := by
  refine ⟨_, AccessState.init_empty, rfl, ?_⟩
  have hsound := AccessState.sound_init AccessState.init_empty
  have hunknown : ¬AccessState.empty.RevokesKnown (.codeRevoke (BytesN.ofNat 32 7) 100) := by
    decide +kernel
  exact hsound.not_replayed hunknown rfl

end Dweb
