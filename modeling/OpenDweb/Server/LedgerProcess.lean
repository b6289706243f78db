import OpenDweb.Server.MaxUses

/-!
# OpenDweb — one process over the two ledgers

The life of one code ledger, from its load on: redemptions, edits of the owners, reloads fed with
orphan lists of the owners, and any of the appends failing. A restart begins another life.

* **`LedgerProcess`** — the two ledgers, with what the last reload was told, what was written, and
  what was answered.
* **`LedgerProcess.Tracked`** — the invariant: where a key that the process knows of is found.
* **`LedgerProcess.Tracked.step`** — each call keeps it, however its appends end.
-/

namespace Dweb

open Std (ExtTreeMap LawfulEqCmp)
open Option Std.ExtTreeMap

/-! ## The system -/

/-- A redemption that was answered as completed, and whether a reload has published since. -/
structure Answer where
  key : RedeemKey
  expiresAt : UInt64
  republished : Bool

/-- A reload publishes: no append of its round failed. -/
def CodeLedger.publishes (s : CodeLedger) (orphans : List RedeemKey)
    (io : Nat → UInt64 × Landing) : Bool :=
  match loadInner s.file orphans io with
  | .error _ => false
  | .ok (_, r) => r.deny.isEmpty

structure LedgerProcess where
  ledgers : TwoLedgers
  /-- The orphan list of the load, or of the last reload. -/
  known : List RedeemKey
  /-- The keys whose owners' line was appended by a redemption. -/
  written : List RedeemKey
  answered : List Answer

namespace LedgerProcess

def step (s : LedgerProcess) (l : LedgerCall) : Option LedgerProcess :=
  match l with
  | .restart _ => none
  | .redeem key _ _ _ _ =>
    (s.ledgers.step l).map fun ledgers =>
      { s with ledgers, written := if ledgers.busy.isSome then key :: s.written else s.written }
  | .complete o =>
    (s.ledgers.step l).map fun ledgers =>
      match s.ledgers.busy, o with
      | some r, .ok => { s with ledgers, answered := ⟨r.key, r.expiresAt, false⟩ :: s.answered }
      | _, _ => { s with ledgers }
  | .codesReload orphans io =>
    (s.ledgers.step l).map fun ledgers =>
      let answered :=
        if s.ledgers.codes.publishes orphans io then
          s.answered.map fun a => { a with republished := true }
        else s.answered
      { s with ledgers, known := orphans, answered }
  | l => (s.ledgers.step l).map fun ledgers => { s with ledgers }

end LedgerProcess

def ledgerProcess : Machine LedgerProcess LedgerCall where
  init s := s.written = [] ∧ s.answered = [] ∧ s.known = s.ledgers.owners.current.codeOrphans
    ∧ ∃ ownersFile codesFile io, TwoLedgers.boot ownersFile codesFile io [] = some s.ledgers
  step := LedgerProcess.step

namespace CodeLedger

/-! ## What a file says of a consumed key -/

/-- **No line carries the expiry of a redemption.** -/
theorem consumed_loadRecords {file : List CodeRecord} {snap : CodeSnapshot}
    (h : loadRecords file = .ok snap) {key : RedeemKey} {v : UInt64 × Option UInt64}
    (hv : snap.consumed[key]? = some v) : v.2 = none := by
  induction file using List.reverseRecOn generalizing snap with
  | nil =>
    cases h
    simp [CodeSnapshot.empty] at hv
  | append_singleton file record ih =>
    rw [loadRecords, replay_append_singleton, bind_eq_ok] at h
    obtain ⟨snap₀, hfile, hstep⟩ := h
    obtain ⟨hash, -, hrest⟩ := bind_eq_ok.mp hstep
    cases hop : record.op with
    | issue =>
      rw [hop] at hrest
      cases hrest
      exact ih hfile hv
    | revoke =>
      rw [hop] at hrest
      dsimp only at hrest
      split at hrest
      · cases hrest
        exact ih hfile hv
      · cases hrest
        exact ih hfile hv
    | consume =>
      rw [hop] at hrest
      cases hrest
      rw [getElem?_insertIfNew] at hv
      split at hv
      · cases hv
        rfl
      · exact ih hfile hv

/-! ## The appends of a round -/

/-- How the appends of a reconciliation end, in order. -/
def roundAppends (io : Nat → UInt64 × Landing) : Nat → List RedeemKey → Reconciled → List Landing
  | _, [], _ => []
  | n, key :: orphans, s =>
    if s.consumed.contains key then roundAppends io n orphans s
    else (io n).2 :: roundAppends io (n + 1) orphans (reconcile io n [key] s)

/-- **A round that denies nothing had no failed append.** -/
theorem roundAppends_ok {io : Nat → UInt64 × Landing} {n : Nat} {orphans : List RedeemKey}
    {r : Reconciled} (hdeny : (reconcile io n orphans r).deny.isEmpty = true) :
    ∀ o ∈ roundAppends io n orphans r, o = .ok := by
  induction orphans generalizing n r with
  | nil => exact fun o ho => absurd ho List.not_mem_nil
  | cons key orphans ih =>
    rw [reconcile] at hdeny
    rw [roundAppends, reconcile]
    by_cases hin : r.consumed.contains key = true
    · rw [if_pos hin] at hdeny ⊢
      exact ih hdeny
    · rw [if_neg hin] at hdeny ⊢
      rw [if_neg hin]
      cases hio : (io n).2 with
      | ok =>
        simp only [hio] at hdeny ⊢
        exact List.forall_mem_cons.mpr ⟨rfl, ih hdeny⟩
      | failed e kept =>
        -- a failed append denies the code for the rest of the round
        simp only [hio, Landing.result] at hdeny
        have hnone := contains_of_reconcile hdeny key.codeHash
        rw [contains_insert_self] at hnone
        cases hnone

end CodeLedger

namespace LedgerProcess

/-! ## Where a key is found -/

def Pending (s : LedgerProcess) (key : RedeemKey) : Prop :=
  ∃ p, s.ledgers.codes.pending[key.codeHash]? = some p ∧ p.owner = key.owner

def Consumed (s : LedgerProcess) (key : RedeemKey) : Prop :=
  s.ledgers.codes.current.consumed.contains key = true

structure Tracked (s : LedgerProcess) : Prop where
  disk : ∃ snap, CodeLedger.loadRecords s.ledgers.codes.file = .ok snap
    ∧ ∀ key, s.Consumed key → snap.consumed.contains key = true
  pending : ∀ key, s.Pending key → key ∈ s.written ∧ ¬s.Consumed key
  busy : ∀ r, s.ledgers.busy = some r → s.Pending r.key
  written : ∀ key ∈ s.written, s.Consumed key ∨ s.Pending key
  known : ∀ key ∈ s.known,
    s.Consumed key ∨ CodeLedger.AwaitsReload s.ledgers.codes.deny key.codeHash
  answered : ∀ a ∈ s.answered, ∃ ts, s.ledgers.codes.current.consumed[a.key]?
    = some (ts, if a.republished then none else some a.expiresAt)

variable {s : LedgerProcess}

theorem Tracked.consumed_of_answered (h : s.Tracked) {a : Answer} (ha : a ∈ s.answered) :
    s.Consumed a.key := by
  obtain ⟨ts, hts⟩ := h.answered a ha
  show s.ledgers.codes.current.consumed.contains a.key = true
  rw [← isSome_getElem?_eq_contains, hts]
  rfl

/-- What a call leaves that touches neither the consumed keys nor the reservations. -/
structure Beside (t t' : TwoLedgers) : Prop where
  consumed : t'.codes.current.consumed = t.codes.current.consumed
  pending : t'.codes.pending = t.codes.pending
  deny : t'.codes.deny = t.codes.deny
  busy : t'.busy = t.busy
  disk : ∀ snap, CodeLedger.loadRecords t.codes.file = .ok snap →
    ∃ snap', CodeLedger.loadRecords t'.codes.file = .ok snap'
      ∧ ∀ key, snap.consumed.contains key = true → snap'.consumed.contains key = true

theorem Beside.of_codes {t t' : TwoLedgers} (hcodes : t'.codes = t.codes)
    (hbusy : t'.busy = t.busy) : Beside t t' where
  consumed := by rw [hcodes]
  pending := by rw [hcodes]
  deny := by rw [hcodes]
  busy := hbusy
  disk snap hsnap := ⟨snap, by rw [hcodes]; exact hsnap, fun _ hkey => hkey⟩

theorem Tracked.beside (h : s.Tracked) {ledgers : TwoLedgers} (hb : Beside s.ledgers ledgers) :
    ({ s with ledgers } : LedgerProcess).Tracked := by
  obtain ⟨snap, hsnap, hcons⟩ := h.disk
  obtain ⟨snap', hsnap', hgrows⟩ := hb.disk snap hsnap
  have hconsumed : ∀ key, ({ s with ledgers } : LedgerProcess).Consumed key ↔ s.Consumed key := by
    intro key
    rw [Consumed, Consumed, hb.consumed]
  have hpending : ∀ key, ({ s with ledgers } : LedgerProcess).Pending key ↔ s.Pending key := by
    intro key
    rw [Pending, Pending, hb.pending]
  refine ⟨⟨snap', hsnap', fun key hkey => hgrows key (hcons key ((hconsumed key).mp hkey))⟩,
    fun key hkey => ?_, fun r hr => ?_, fun key hkey => ?_, fun key hkey => ?_, fun a ha => ?_⟩
  · rw [hconsumed]
    exact h.pending key ((hpending key).mp hkey)
  · rw [hpending]
    exact h.busy r (hb.busy ▸ hr)
  · rw [hconsumed, hpending]
    exact h.written key hkey
  · rw [hconsumed, hb.deny]
    exact h.known key hkey
  · rw [hb.consumed]
    exact h.answered a ha

theorem beside_applyEvent (t : TwoLedgers) {record : CodeRecord} {hash : BytesN 32}
    {entry : CodeEntry} (o : Landing)
    (hfold : ∀ snap, ∃ snap', (∀ n, CodeLedger.loadStep snap (n, record) = .ok snap')
      ∧ snap'.consumed = snap.consumed) :
    Beside t { t with codes := (t.codes.applyEvent record hash entry o).1 } := by
  rw [CodeLedger.applyEvent_eq]
  refine ⟨?_, rfl, rfl, rfl, fun snap hsnap => ?_⟩
  · cases o with
    | ok => rfl
    | failed e kept => rfl
  · obtain ⟨snap', hstep, hconsumed⟩ := hfold snap
    have hload := CodeLedger.loadRecords_onto hsnap hstep o
    refine ⟨_, hload, fun key hkey => ?_⟩
    split
    · rw [hconsumed]
      exact hkey
    · exact hkey

/-! ## Redemptions -/

theorem Tracked.redeem (h : s.Tracked) {key : RedeemKey} {aliasName : Option String}
    {now nowMs : UInt64} {o : Landing} {s' : LedgerProcess}
    (hstep : s.step (.redeem key aliasName now nowMs o) = some s') : s'.Tracked := by
  obtain ⟨ledgers, hledgers, rfl⟩ := map_eq_some_iff.mp hstep
  simp only [TwoLedgers.step] at hledgers
  split at hledgers
  · cases hledgers
  next hfree =>
  have hidle : s.ledgers.busy = none := not_isSome_iff_eq_none.mp hfree
  have hstarted :=
    CodeLedger.redeemStart_started s.ledgers.codes s.ledgers.owners key aliasName now nowMs o
  generalize s.ledgers.codes.redeemStart s.ledgers.owners key aliasName now nowMs o = out
    at hstarted hledgers
  cases hstarted with
  | answered =>
    cases hledgers
    rw [if_neg hfree]
    exact h.beside (.of_codes rfl rfl)
  | @resumed p _ hpending howner =>
    cases hledgers
    have hkey : s.Pending key := ⟨p, hpending, howner⟩
    refine ⟨h.disk, fun k hk => ?_, fun r hr => ?_, fun k hk => ?_, h.known, h.answered⟩
    · exact ⟨List.mem_cons_of_mem _ (h.pending k hk).1, (h.pending k hk).2⟩
    · cases hr
      exact hkey
    · rcases List.mem_cons.mp hk with rfl | hk
      · exact .inr hkey
      · exact h.written k hk
  | @registered entry expiresAt nowMs aliasName owners' hconsumed hpending hdeny hentry hrevoked
      hused howners =>
    cases hledgers
    have hself : CodeLedger.Reserved (s.ledgers.codes.pending.insert key.codeHash
        { owner := key.owner, expiresAt }) key := CodeLedger.reserved_insert_self key expiresAt
    have hmissing : ¬s.Consumed key := by
      show ¬s.ledgers.codes.current.consumed.contains key = true
      rw [← isSome_getElem?_eq_contains, hconsumed]
      exact Bool.false_ne_true
    refine ⟨h.disk, fun k hk => ?_, fun r hr => ?_, fun k hk => ?_, h.known, h.answered⟩
    · rcases CodeLedger.eq_or_reserved_of_insert hk with rfl | hold
      · exact ⟨List.mem_cons_self, hmissing⟩
      · exact ⟨List.mem_cons_of_mem _ (h.pending k hold).1, (h.pending k hold).2⟩
    · cases hr
      exact hself
    · rcases List.mem_cons.mp hk with rfl | hk
      · exact .inr hself
      · exact (h.written k hk).imp_right fun hold => CodeLedger.Reserved.insert hold hpending _
  | failed hpending howners =>
    cases hledgers
    rw [if_neg hfree]
    -- the reservation is made and rolled back
    exact h.beside ⟨rfl, CodeLedger.erase_insert_of_free hpending _, rfl, rfl,
      fun snap hsnap => ⟨snap, hsnap, fun _ hkey => hkey⟩⟩

theorem Tracked.complete (h : s.Tracked) {o : Landing} {s' : LedgerProcess}
    (hstep : s.step (.complete o) = some s') : s'.Tracked := by
  obtain ⟨ledgers, hledgers, rfl⟩ := map_eq_some_iff.mp hstep
  obtain ⟨r, hr, heq⟩ := map_eq_some_iff.mp hledgers
  obtain ⟨snap, hsnap, hcons⟩ := h.disk
  have hline := CodeLedger.loadRecords_consume hsnap r.key r.now
  have hgrows : ∀ key, snap.consumed.contains key = true →
      (snap.consumed.insertIfNew r.key (r.now, none)).contains key = true := fun key hkey => by
    rw [contains_insertIfNew, hkey, Bool.or_true]
  have hbusy := h.busy r hr
  have hdeny : ∀ hash, CodeLedger.AwaitsReload s.ledgers.codes.deny hash →
      CodeLedger.AwaitsReload
        (s.ledgers.codes.completePending r.key r.expiresAt r.now o).1.deny hash :=
    fun hash hawaits =>
      CodeLedger.completePending_awaitsReload hawaits r.key r.expiresAt r.now o
  cases o with
  | failed e kept =>
    cases heq
    rw [hr]
    refine ⟨?_, h.pending, nofun, h.written, fun key hkey => (h.known key hkey).imp_right
      (hdeny key.codeHash), h.answered⟩
    cases kept with
    | false => exact ⟨snap, hsnap, hcons⟩
    | true => exact ⟨_, hline, fun key hkey => hgrows key (hcons key hkey)⟩
  | ok =>
    cases heq
    rw [hr]
    dsimp only
    have hkeeps : ∀ key, s.Consumed key →
        (s.ledgers.codes.current.consumed.insert r.key (r.now, some r.expiresAt)).contains key
          = true := fun key hkey => by
      have hkey : s.ledgers.codes.current.consumed.contains key = true := hkey
      rw [contains_insert, hkey, Bool.or_true]
    refine ⟨⟨_, hline, fun key hkey => ?_⟩, fun key hkey => ?_, nofun, fun key hkey => ?_,
      fun key hkey => ?_, fun a ha => ?_⟩
    · have hkey : (s.ledgers.codes.current.consumed.insert r.key
        (r.now, some r.expiresAt)).contains key = true := hkey
      rw [contains_insert, Bool.or_eq_true] at hkey
      show (snap.consumed.insertIfNew r.key (r.now, none)).contains key = true
      rw [contains_insertIfNew, Bool.or_eq_true]
      exact hkey.imp_right (hcons key)
    · -- a reservation that stays is of another code
      obtain ⟨hhash, hold⟩ := CodeLedger.reserved_of_erase hkey
      refine ⟨(h.pending key hold).1, fun hnow => (h.pending key hold).2 ?_⟩
      have hnow : (s.ledgers.codes.current.consumed.insert r.key
        (r.now, some r.expiresAt)).contains key = true := hnow
      rw [contains_insert, Bool.or_eq_true] at hnow
      refine hnow.resolve_left fun heq => hhash ?_
      rw [LawfulEqCmp.eq_of_compare (eq_of_beq heq)]
    · rcases h.written key hkey with hin | hreserved
      · exact .inl (hkeeps key hin)
      · -- the reservation that is released is this key's, or this one stays
        refine (CodeLedger.Reserved.erase hreserved hbusy).imp_left ?_
        rintro rfl
        exact contains_insert_self
    · exact (h.known key hkey).imp (hkeeps key) (hdeny key.codeHash)
    · rcases List.mem_cons.mp ha with rfl | ha
      · exact ⟨r.now, getElem?_insert_self⟩
      · obtain ⟨ts, hts⟩ := h.answered a ha
        refine ⟨ts, ?_⟩
        show (s.ledgers.codes.current.consumed.insert r.key _)[a.key]? = _
        rw [getElem?_insert, if_neg]
        · exact hts
        · intro hcmp
          -- a key that was answered is not pending
          refine (h.pending r.key hbusy).2 ?_
          rw [LawfulEqCmp.eq_of_compare hcmp]
          exact h.consumed_of_answered ha

/-! ## Reloads -/

/-- **A round, published or not, leaves every orphan it was told of consumed or denied.** -/
theorem Tracked.codesReload (h : s.Tracked) {orphans : List RedeemKey}
    {io : Nat → UInt64 × Landing} {s' : LedgerProcess}
    (hstep : s.step (.codesReload orphans io) = some s') : s'.Tracked := by
  obtain ⟨ledgers, hledgers, rfl⟩ := map_eq_some_iff.mp hstep
  simp only [TwoLedgers.step] at hledgers
  split at hledgers
  · cases hledgers
  next hfree =>
  cases hledgers
  rw [not_or] at hfree
  have hidle : s.ledgers.busy = none := not_isSome_iff_eq_none.mp hfree.1
  obtain ⟨snap, hsnap, hcons⟩ := h.disk
  obtain ⟨snapshot, r, snap', hinner, -, hload, -, hconsumed, hkept, hcovers⟩ :=
    TwoLedgers.loadInner_spec hsnap orphans io
  simp only [CodeLedger.publishes, CodeLedger.reload, hinner]
  by_cases hempty : r.deny.isEmpty = true
  · rw [if_pos hempty, if_pos hempty]
    have hstays : ∀ key, s.Consumed key → snapshot.consumed.contains key = true :=
      fun key hkey => hkept key (hcons key hkey)
    refine ⟨⟨snap', hload, hconsumed⟩, fun key hkey => ?_, fun r' hr' => ?_, fun key hkey => ?_,
      fun key hkey => ?_, fun a ha => ?_⟩
    · obtain ⟨hout, hold⟩ := CodeLedger.reserved_of_retain hkey
      refine ⟨(h.pending key hold).1, fun hin => ?_⟩
      have hin : snapshot.consumed.contains key = true := hin
      rw [hout] at hin
      exact Bool.false_ne_true hin
    · have hr' : s.ledgers.busy = some r' := hr'
      rw [hidle] at hr'
      cases hr'
    · rcases h.written key hkey with hin | hreserved
      · exact .inl (hstays key hin)
      · -- a reservation is dropped only when its key is consumed
        exact CodeLedger.Reserved.retain hreserved snapshot.consumed
    · exact .inl (TwoLedgers.consumed_of_isEmpty hempty (hcovers key hkey))
    · -- what is published is the fold of the file, and no line has an expiry
      obtain ⟨a, hold, rfl⟩ := List.mem_map.mp ha
      have hin : snapshot.consumed.contains a.key = true := hstays _ (h.consumed_of_answered hold)
      rw [← isSome_getElem?_eq_contains] at hin
      obtain ⟨v, hv⟩ := isSome_iff_exists.mp hin
      have hwritten := CodeLedger.loadInner_of_loads hsnap orphans io
      rw [hinner] at hwritten
      cases hwritten
      have hfold := CodeLedger.reconcile_replayed hsnap hempty
      have hnone := CodeLedger.consumed_loadRecords hfold hv
      refine ⟨v.1, hv.trans ?_⟩
      rw [if_pos rfl, ← hnone]
  · rw [if_neg hempty, if_neg hempty]
    refine ⟨⟨snap', hload, fun key hkey => hconsumed key (hkept key (hcons key hkey))⟩, h.pending,
      h.busy, h.written, fun key hkey => ?_, h.answered⟩
    by_cases hin : s.ledgers.codes.current.consumed.contains key = true
    · exact .inl hin
    · -- the snapshot stays, and does not have the key
      right
      refine CodeLedger.mem_foldl_mergeDeny_awaitsReload (List.mem_dedup.mpr ?_)
      refine List.mem_map.mpr ⟨key, List.mem_filter.mpr ⟨hkey, ?_⟩, rfl⟩
      rw [Bool.eq_false_of_not_eq_true hin]
      rfl

/-! ## Runs -/

theorem Tracked.init {ownersFile : List OwnerRecord} {codesFile : List CodeRecord}
    {io : Nat → UInt64 × Landing} (hwritten : s.written = []) (hanswered : s.answered = [])
    (hknown : s.known = s.ledgers.owners.current.codeOrphans)
    (hboot : TwoLedgers.boot ownersFile codesFile io [] = some s.ledgers) : s.Tracked := by
  obtain ⟨ledgers, known, written, answered⟩ := s
  dsimp only at hwritten hanswered hknown hboot
  subst hwritten hanswered hknown
  simp only [TwoLedgers.boot] at hboot
  split at hboot
  · cases hboot
  next owners howners =>
  split at hboot
  · cases hboot
  next codes hcodes =>
  cases hboot
  obtain ⟨⟨current, r⟩, hinner, hpure⟩ := bind_eq_ok.mp hcodes
  cases pure_eq_ok.mp hpure
  obtain ⟨snap, hsnap, -⟩ := bind_eq_ok.mp hinner
  obtain ⟨snapshot, r', snap', hspec, -, hload, -, hconsumed, -, hcovers⟩ :=
    TwoLedgers.loadInner_spec hsnap owners.current.codeOrphans io
  rw [hinner] at hspec
  cases hspec
  refine ⟨⟨snap', hload, hconsumed⟩, fun key hkey => ?_, ?_, ?_, hcovers, ?_⟩
  · obtain ⟨p, hp, -⟩ := hkey
    simp at hp
  all_goals
    intros
    contradiction

/-- **One call keeps the invariant**, however its appends end. -/
theorem Tracked.step (h : s.Tracked) {l : LedgerCall} {s' : LedgerProcess}
    (hstep : s.step l = some s') : s'.Tracked := by
  cases l with
  | ownerRegister | ownerUnregister | ownerRenew | ownerMetadata | ownersReload | takeOrphans =>
    cases hstep
    exact h.beside (.of_codes rfl rfl)
  | issue params drawn now now' o =>
    obtain ⟨ledgers, hledgers, rfl⟩ := map_eq_some_iff.mp hstep
    simp only [TwoLedgers.step] at hledgers
    split at hledgers
    · cases hledgers
    obtain ⟨⟨codes, result⟩, hissue, rfl⟩ := map_eq_some_iff.mp hledgers
    rcases CodeLedger.issue_event hissue with rfl | ⟨record, hash, entry, -, -, hfold, rfl⟩
    · exact h.beside (.of_codes rfl rfl)
    · exact h.beside (beside_applyEvent _ o fun snap => ⟨_, hfold snap, rfl⟩)
  | revoke hash now o =>
    obtain ⟨ledgers, hledgers, rfl⟩ := map_eq_some_iff.mp hstep
    simp only [TwoLedgers.step] at hledgers
    split at hledgers
    · cases hledgers
    cases hledgers
    obtain ⟨record, entry, heq, -, hfold⟩ := s.ledgers.codes.revoke_event hash now o
    rw [heq]
    refine h.beside (beside_applyEvent _ o fun snap => ?_)
    obtain ⟨snap', hstep, hconsumed, -⟩ := hfold snap
    exact ⟨snap', hstep, hconsumed⟩
  | redeem => exact h.redeem hstep
  | complete => exact h.complete hstep
  | codesReload => exact h.codesReload hstep
  | restart => cases hstep

theorem tracked_of_reachable (h : ledgerProcess.Reachable s) : s.Tracked := by
  refine h.invariant ?_ fun s l s' hs _ hstep => hs.step hstep
  rintro s ⟨hwritten, hanswered, hknown, ownersFile, codesFile, io, hboot⟩
  exact .init hwritten hanswered hknown hboot

end LedgerProcess

end Dweb
