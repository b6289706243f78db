import OpenDweb.Server.LedgerProcess

/-!
# OpenDweb — what a redemption answers in the life of one process

* **`fail_closed_reconciliation`** — while a key of a code is missing from the snapshot, no other
  key of the code is redeemed; the pending key always tries its consume line again; and a code that
  a reload denied is released by a reload that published.
* **`redeem_replays`** — a key that was answered as completed is replayed from then on, without an
  effect, and with the expiry of the answer exactly while the process still has it or the owners
  still say so.
-/

namespace Dweb

open Std (ExtTreeMap LawfulEqCmp)

namespace LedgerProcess

variable {s : LedgerProcess}

/-! ## Failing closed -/

/-- A key of the code that the process knows of and the published snapshot does not have. -/
def Missing (s : LedgerProcess) (hash : BytesN 32) (key : RedeemKey) : Prop :=
  (key ∈ s.known ∨ key ∈ s.written) ∧ key.codeHash = hash ∧ ¬s.Consumed key

/-- **While a key is missing, its code is reserved for it or denied.** -/
theorem Tracked.of_missing (h : s.Tracked) {hash : BytesN 32} {key : RedeemKey}
    (hmissing : s.Missing hash key) :
    (∃ p, s.ledgers.codes.pending[hash]? = some p)
      ∨ s.ledgers.codes.deny.contains hash = true := by
  obtain ⟨hwhere, rfl, hnot⟩ := hmissing
  rcases hwhere with hknown | hwritten
  · obtain ⟨d, hd, -⟩ := (h.known key hknown).resolve_left hnot
    right
    rw [← ExtTreeMap.isSome_getElem?_eq_contains, hd]
    rfl
  · obtain ⟨p, hp, -⟩ := (h.written key hwritten).resolve_left hnot
    exact .inl ⟨p, hp⟩

theorem Tracked.redeem_ne_completed (h : s.Tracked) {key : RedeemKey}
    (hmissing : ∃ m, s.Missing key.codeHash m) (hother : ¬s.Missing key.codeHash key)
    (aliasName : Option String) (now nowMs : UInt64) (o o' : Landing) (e : UInt64) :
    (s.ledgers.codes.redeem s.ledgers.owners key aliasName now nowMs o o').2.2 ≠ .completed e := by
  obtain ⟨m, hm⟩ := hmissing
  have hclosed := h.of_missing hm
  have hstarted :=
    CodeLedger.redeemStart_started s.ledgers.codes s.ledgers.owners key aliasName now nowMs o
  unfold CodeLedger.redeem
  generalize s.ledgers.codes.redeemStart s.ledgers.owners key aliasName now nowMs o = out
    at hstarted ⊢
  cases hstarted with
  | answered hnew => exact hnew e
  | @resumed p hconsumed hpending howner =>
    -- the pending key is missing itself
    have hkey := h.pending key ⟨p, hpending, howner⟩
    exact absurd ⟨.inr hkey.1, rfl, hkey.2⟩ hother
  | registered _ hpending hdeny =>
    rcases hclosed with ⟨p, hp⟩ | hdenied
    · rw [hpending] at hp
      cases hp
    · rw [hdeny] at hdenied
      cases hdenied
  | failed => exact nofun

theorem Tracked.redeem_pending (h : s.Tracked) {key : RedeemKey} {p : PendingEntry}
    (hp : s.ledgers.codes.pending[key.codeHash]? = some p) (howner : p.owner = key.owner)
    (aliasName : Option String) (now nowMs : UInt64) (o o' : Landing) :
    s.ledgers.codes.redeem s.ledgers.owners key aliasName now nowMs o o'
      = match s.ledgers.codes.completePending key p.expiresAt now o' with
        | (codes, .ok ()) => (codes, s.ledgers.owners, .completed p.expiresAt)
        | (codes, .error e) => (codes, s.ledgers.owners, .io e) := by
  have hnot : s.ledgers.codes.current.consumed[key]? = none := by
    rw [← Option.not_isSome_iff_eq_none, ExtTreeMap.isSome_getElem?_eq_contains]
    exact (h.pending key ⟨p, hp, howner⟩).2
  have hstart : s.ledgers.codes.redeemStart s.ledgers.owners key aliasName now nowMs o
      = (s.ledgers.codes, s.ledgers.owners, .complete p.expiresAt) := by
    simp only [CodeLedger.redeemStart, hnot, hp, howner, if_true]
  unfold CodeLedger.redeem
  generalize s.ledgers.codes.redeemStart s.ledgers.owners key aliasName now nowMs o = out
    at hstart ⊢
  subst hstart
  rfl

theorem file_completePending (codes : CodeLedger) (key : RedeemKey) (expiresAt now : UInt64)
    (o : Landing) :
    (codes.completePending key expiresAt now o).1.file
      = o.onto codes.file (CodeLedger.consumeRecord key now) := by
  cases o with
  | ok => rfl
  | failed e kept => rfl

/-! ## Lifting a denial -/

/-- A round that was told of these orphans, and in which every append succeeded. -/
def CleanRound (s s' : LedgerProcess) (orphans : List RedeemKey)
    (io : Nat → UInt64 × Landing) : Prop :=
  ∃ snap, CodeLedger.loadRecords s.ledgers.codes.file = .ok snap
    ∧ (∀ o ∈ CodeLedger.roundAppends io 0 orphans
        { file := s.ledgers.codes.file, consumed := snap.consumed, deny := ∅ }, o = .ok)
    ∧ ∀ key ∈ orphans, s'.Consumed key

theorem deny_redeemStart (codes : CodeLedger) (owners : OwnerRegistry) (key : RedeemKey)
    (aliasName : Option String) (now nowMs : UInt64) (o : Landing) :
    (codes.redeemStart owners key aliasName now nowMs o).1.deny = codes.deny := by
  have hstarted := CodeLedger.redeemStart_started codes owners key aliasName now nowMs o
  generalize codes.redeemStart owners key aliasName now nowMs o = out at hstarted
  cases hstarted with
  | answered => rfl
  | resumed => rfl
  | registered => rfl
  | failed => rfl

/-- **Only a clean round lifts a denial that awaits a reload.** -/
theorem cleanRound_of_lifted {l : LedgerCall} {s' : LedgerProcess} (h : s.Tracked)
    (hstep : s.step l = some s') {hash : BytesN 32}
    (hdenied : CodeLedger.AwaitsReload s.ledgers.codes.deny hash)
    (hlifted : ¬CodeLedger.AwaitsReload s'.ledgers.codes.deny hash) :
    ∃ orphans io, l = .codesReload orphans io ∧ CleanRound s s' orphans io := by
  cases l with
  | ownerRegister | ownerUnregister | ownerRenew | ownerMetadata | ownersReload | takeOrphans =>
    cases hstep
    exact absurd hdenied hlifted
  | issue params drawn now now' o =>
    obtain ⟨ledgers, hledgers, rfl⟩ := Option.map_eq_some_iff.mp hstep
    simp only [TwoLedgers.step] at hledgers
    split at hledgers
    · cases hledgers
    obtain ⟨⟨codes, result⟩, hissue, rfl⟩ := Option.map_eq_some_iff.mp hledgers
    rcases CodeLedger.issue_event hissue with rfl | ⟨record, hash', entry, -, -, -, rfl⟩
    · exact absurd hdenied hlifted
    · rw [CodeLedger.applyEvent_eq] at hlifted
      exact absurd hdenied hlifted
  | revoke hash' now o =>
    obtain ⟨ledgers, hledgers, rfl⟩ := Option.map_eq_some_iff.mp hstep
    simp only [TwoLedgers.step] at hledgers
    split at hledgers
    · cases hledgers
    cases hledgers
    rw [CodeLedger.revoke, CodeLedger.applyEvent_eq] at hlifted
    exact absurd hdenied hlifted
  | redeem key aliasName now nowMs o =>
    obtain ⟨ledgers, hledgers, rfl⟩ := Option.map_eq_some_iff.mp hstep
    have hsame := deny_redeemStart s.ledgers.codes s.ledgers.owners key aliasName now nowMs o
    simp only [TwoLedgers.step] at hledgers
    split at hledgers
    · cases hledgers
    generalize s.ledgers.codes.redeemStart s.ledgers.owners key aliasName now nowMs o = out
      at hsame hledgers
    obtain ⟨codes, owners, outcome | expiresAt⟩ := out
    · cases hledgers
      exact absurd (hsame ▸ hdenied) hlifted
    · cases hledgers
      exact absurd (hsame ▸ hdenied) hlifted
  | complete o =>
    obtain ⟨ledgers, hledgers, rfl⟩ := Option.map_eq_some_iff.mp hstep
    obtain ⟨r, hr, heq⟩ := Option.map_eq_some_iff.mp hledgers
    have hstill := CodeLedger.completePending_awaitsReload hdenied r.key r.expiresAt r.now o
    cases o with
    | ok =>
      cases heq
      rw [hr] at hlifted
      exact absurd hstill hlifted
    | failed e kept =>
      cases heq
      rw [hr] at hlifted
      exact absurd hstill hlifted
  | codesReload orphans io =>
    refine ⟨orphans, io, rfl, ?_⟩
    have htracked := h.codesReload hstep
    obtain ⟨ledgers, hledgers, rfl⟩ := Option.map_eq_some_iff.mp hstep
    simp only [TwoLedgers.step] at hledgers
    split at hledgers
    · cases hledgers
    cases hledgers
    obtain ⟨snap, hsnap, -⟩ := h.disk
    have hinner := CodeLedger.loadInner_of_loads hsnap orphans io
    simp only [CodeLedger.publishes, CodeLedger.reload, hinner] at hlifted htracked ⊢
    by_cases hempty : (CodeLedger.reconcile io 0 orphans
        { file := s.ledgers.codes.file, consumed := snap.consumed, deny := ∅ }).deny.isEmpty = true
    · refine ⟨snap, hsnap, CodeLedger.roundAppends_ok hempty, fun key hkey => ?_⟩
      refine (htracked.known key hkey).resolve_right ?_
      rintro ⟨d, hd, -⟩
      rw [if_pos hempty] at hd
      rw [ExtTreeMap.isEmpty_iff.mp hempty] at hd
      simp at hd
    · rw [if_neg hempty] at hlifted
      exact absurd (CodeLedger.foldl_mergeDeny_awaitsReload _ hdenied) hlifted
  | restart => cases hstep

/-! ## Replays -/

/-- **A key that was answered is replayed without an effect.** The expiry is the answer's, or what
the owners say once a reload has published. -/
theorem Tracked.redeem_answered (h : s.Tracked) {a : Answer} (ha : a ∈ s.answered)
    (aliasName : Option String) (now nowMs : UInt64) (o o' : Landing) :
    s.ledgers.codes.redeem s.ledgers.owners a.key aliasName now nowMs o o'
      = (s.ledgers.codes, s.ledgers.owners, .replay
        (if a.republished then (s.ledgers.owners.current.entryExpiresAt a.key.owner).getD U64_MAX
        else a.expiresAt)) := by
  obtain ⟨ts, hts⟩ := h.answered a ha
  simp only [CodeLedger.redeem, CodeLedger.redeemStart, hts]
  by_cases hpub : a.republished = true
  · rw [if_pos hpub, if_pos hpub]
    rfl
  · rw [if_neg hpub, if_neg hpub]
    rfl

def Answered (s : LedgerProcess) (key : RedeemKey) (expiresAt : UInt64) : Prop :=
  ∃ a ∈ s.answered, a.key = key ∧ a.expiresAt = expiresAt

theorem answered_step {l : LedgerCall} {s' : LedgerProcess} (hstep : s.step l = some s')
    {key : RedeemKey} {expiresAt : UInt64} (h : s.Answered key expiresAt) :
    s'.Answered key expiresAt := by
  obtain ⟨a, ha, hkey, hexp⟩ := h
  cases l with
  | restart => cases hstep
  | complete o =>
    obtain ⟨ledgers, -, rfl⟩ := Option.map_eq_some_iff.mp hstep
    refine ⟨a, ?_, hkey, hexp⟩
    split
    · exact List.mem_cons_of_mem _ ha
    · exact ha
  | codesReload orphans io =>
    obtain ⟨ledgers, -, rfl⟩ := Option.map_eq_some_iff.mp hstep
    by_cases hpub : s.ledgers.codes.publishes orphans io = true
    · refine ⟨{ a with republished := true }, ?_, hkey, hexp⟩
      rw [if_pos hpub]
      exact List.mem_map_of_mem ha
    · refine ⟨a, ?_, hkey, hexp⟩
      rw [if_neg hpub]
      exact ha
  | ownerRegister | ownerUnregister | ownerRenew | ownerMetadata | ownersReload | takeOrphans =>
    cases hstep
    exact ⟨a, ha, hkey, hexp⟩
  | issue | revoke | redeem =>
    obtain ⟨ledgers, -, rfl⟩ := Option.map_eq_some_iff.mp hstep
    exact ⟨a, ha, hkey, hexp⟩

theorem answered_run {ls : List LedgerCall} {s' : LedgerProcess}
    (hrun : ledgerProcess.run s ls = some s') {key : RedeemKey} {expiresAt : UInt64}
    (h : s.Answered key expiresAt) : s'.Answered key expiresAt := by
  induction ls generalizing s with
  | nil =>
    cases hrun
    exact h
  | cons l ls ih =>
    obtain ⟨t, hstep, hrest⟩ := Option.bind_eq_some_iff.mp hrun
    exact ih hrest (answered_step hstep h)

end LedgerProcess

open LedgerProcess in
/-- **Reconciliation fails closed in every run of one process.** -/
theorem fail_closed_reconciliation {s : LedgerProcess} (h : ledgerProcess.Reachable s) :
    (∀ key, (∃ m, s.Missing key.codeHash m) → ¬s.Missing key.codeHash key →
      ∀ aliasName now nowMs o o' e,
        (s.ledgers.codes.redeem s.ledgers.owners key aliasName now nowMs o o').2.2
          ≠ .completed e)
    ∧ (∀ key p, s.ledgers.codes.pending[key.codeHash]? = some p → p.owner = key.owner →
      ∀ aliasName now nowMs o o',
        s.ledgers.codes.redeem s.ledgers.owners key aliasName now nowMs o o'
          = (match s.ledgers.codes.completePending key p.expiresAt now o' with
            | (codes, .ok ()) => (codes, s.ledgers.owners, .completed p.expiresAt)
            | (codes, .error e) => (codes, s.ledgers.owners, .io e))
        ∧ (s.ledgers.codes.completePending key p.expiresAt now o').1.file
          = o'.onto s.ledgers.codes.file (CodeLedger.consumeRecord key now))
    ∧ ∀ l s' hash, s.step l = some s' → CodeLedger.AwaitsReload s.ledgers.codes.deny hash →
      ¬CodeLedger.AwaitsReload s'.ledgers.codes.deny hash →
        ∃ orphans io, l = .codesReload orphans io ∧ CleanRound s s' orphans io := by
  have htracked := tracked_of_reachable h
  refine ⟨?_, ?_, ?_⟩
  · intro key hmissing hother aliasName now nowMs o o' e
    exact htracked.redeem_ne_completed hmissing hother aliasName now nowMs o o' e
  · intro key p hp howner aliasName now nowMs o o'
    exact ⟨htracked.redeem_pending hp howner aliasName now nowMs o o',
      file_completePending _ key p.expiresAt now o'⟩
  · intro l s' hash hstep hdenied hlifted
    exact cleanRound_of_lifted htracked hstep hdenied hlifted

def LedgerProcess.start : LedgerProcess where
  ledgers := .empty
  known := []
  written := []
  answered := []

theorem LedgerProcess.init_start : ledgerProcess.init .start :=
  ⟨rfl, rfl, rfl, [], [], fun _ => (0, .ok), rfl⟩

def LedgerProcess.keyOne : RedeemKey :=
  ⟨BytesN.ofNat 32 7, ⟨BytesN.ofNat 32 1, BytesN.ofNat 32 1⟩⟩

def LedgerProcess.keyTwo : RedeemKey :=
  ⟨BytesN.ofNat 32 7, ⟨BytesN.ofNat 32 2, BytesN.ofNat 32 2⟩⟩

def LedgerProcess.failedRound : List LedgerCall :=
  [TwoLedgers.issueOne, TwoLedgers.redeemBy 1 .ok, .complete (.failed "disk full" false),
    .takeOrphans, .codesReload [LedgerProcess.keyOne] fun _ => (104, .failed "disk full" false)]

theorem fail_closed_reconciliation_failed :
    ∃ s, ledgerProcess.run .start LedgerProcess.failedRound = some s
      ∧ s.Missing LedgerProcess.keyOne.codeHash LedgerProcess.keyOne
      ∧ ∀ e, (s.ledgers.codes.redeem s.ledgers.owners LedgerProcess.keyTwo none 105 105 .ok
        .ok).2.2 ≠ .completed e := by
  have hrun : ∃ s, ledgerProcess.run .start LedgerProcess.failedRound = some s
      ∧ s.known = [LedgerProcess.keyOne] ∧ s.written = [LedgerProcess.keyOne]
      ∧ s.ledgers.codes.current.consumed.contains LedgerProcess.keyOne = false :=
    ⟨_, rfl, rfl, rfl, by decide +kernel⟩
  obtain ⟨s, hrun, hknown, hwritten, hnot⟩ := hrun
  have hmissing : s.Missing LedgerProcess.keyOne.codeHash LedgerProcess.keyOne := by
    refine ⟨.inr ?_, rfl, ?_⟩
    · rw [hwritten]
      exact List.mem_cons_self
    · rw [LedgerProcess.Consumed, hnot]
      exact Bool.false_ne_true
  have hother : ¬s.Missing LedgerProcess.keyTwo.codeHash LedgerProcess.keyTwo := by
    rintro ⟨hwhere, -, -⟩
    rw [hknown, hwritten, or_self, List.mem_singleton] at hwhere
    exact absurd hwhere (by decide)
  refine ⟨s, hrun, hmissing, ?_⟩
  exact (fail_closed_reconciliation (Machine.reachable_of_run LedgerProcess.init_start hrun)).1
    LedgerProcess.keyTwo ⟨_, hmissing⟩ hother none 105 105 .ok .ok

/-- **A completed redemption is replayed in the rest of the run**, and nothing moves. The expiry is
the answer's if and only if no reload has published since, or the owners still have it. -/
theorem redeem_replays {s s' : LedgerProcess} (h : ledgerProcess.Reachable s) {a : Answer}
    (ha : a ∈ s.answered) {ls : List LedgerCall} (hrun : ledgerProcess.run s ls = some s') :
    ∃ a' ∈ s'.answered, a'.key = a.key ∧ a'.expiresAt = a.expiresAt
      ∧ ∀ aliasName now nowMs o o', ∃ expiresAt,
        s'.ledgers.codes.redeem s'.ledgers.owners a.key aliasName now nowMs o o'
          = (s'.ledgers.codes, s'.ledgers.owners, .replay expiresAt)
        ∧ (expiresAt = a.expiresAt ↔ a'.republished = false
          ∨ (s'.ledgers.owners.current.entryExpiresAt a.key.owner).getD U64_MAX
            = a.expiresAt) := by
  have hreach : ledgerProcess.Reachable s' :=
    Machine.reachableUnder_run h (fun _ _ _ => trivial) hrun
  obtain ⟨a', ha', hkey, hexp⟩ := LedgerProcess.answered_run hrun ⟨a, ha, rfl, rfl⟩
  refine ⟨a', ha', hkey, hexp, fun aliasName now nowMs o o' => ?_⟩
  have hreplay := (LedgerProcess.tracked_of_reachable hreach).redeem_answered ha' aliasName now
    nowMs o o'
  rw [hkey, hexp] at hreplay
  refine ⟨_, hreplay, ?_⟩
  cases a'.republished with
  | false => simp
  | true => simp

theorem redeem_replays_at_once :
    ∃ s a, ledgerProcess.run .start [TwoLedgers.issueOne, TwoLedgers.redeemBy 1 .ok, .complete .ok]
        = some s ∧ a ∈ s.answered
      ∧ (s.ledgers.codes.redeem s.ledgers.owners a.key none 200 200 .ok .ok).2.2
        = .replay a.expiresAt := by
  have hrun : ∃ s a, ledgerProcess.run .start
      [TwoLedgers.issueOne, TwoLedgers.redeemBy 1 .ok, .complete .ok] = some s
      ∧ s.answered = [a] ∧ a.republished = false := ⟨_, _, rfl, rfl, rfl⟩
  obtain ⟨s, a, hrun, hanswered, hfresh⟩ := hrun
  have ha : a ∈ s.answered := by
    rw [hanswered]
    exact List.mem_cons_self
  have hnil : ledgerProcess.run s [] = some s := rfl
  obtain ⟨a', ha', -, -, hreplay⟩ :=
    redeem_replays (Machine.reachable_of_run LedgerProcess.init_start hrun) ha hnil
  rw [hanswered, List.mem_singleton] at ha'
  obtain ⟨expiresAt, heq, hiff⟩ := hreplay none 200 200 .ok .ok
  refine ⟨s, a, hrun, ha, ?_⟩
  rw [heq, hiff.mpr (.inl (ha' ▸ hfresh))]

/-- The tenant's lease is renewed and the codes are reloaded. The redemption is replayed with the
lease of the renewal. -/
theorem replay_after_reload :
    ∃ s a, ledgerProcess.run .start
        [TwoLedgers.issueOne, TwoLedgers.redeemBy 1 .ok, .complete .ok,
          .ownerRenew (BytesN.ofNat 32 1) (BytesN.ofNat 32 1) (some 999) 104 .ok, .takeOrphans,
          .codesReload [LedgerProcess.keyOne] fun _ => (105, .ok)] = some s
      ∧ s.answered = [a] ∧ a.expiresAt = 2592000102
      ∧ (s.ledgers.codes.redeem s.ledgers.owners a.key none 200 200 .ok .ok).2.2
        = .replay 999 :=
  ⟨_, _, rfl, rfl, rfl, by decide +kernel⟩

end Dweb
