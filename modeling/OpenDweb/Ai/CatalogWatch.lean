import OpenDweb.Ai.StoreMachine

/-!
# OpenDweb — the catalog and its revisions

`buildCatalogView` and `watchCatalogRevision` of `opendweb-ext-ai/src/provider/catalog.mjs` and
`handleCatalog` of `wire/endpoints.mjs`, over the store as a machine. The revision is read in one
step and the catalog is built in a later one.

* **`watchMachine`** — consumers that each poll with the last revision that they received, while
  the store takes its steps.
* **`CatalogSound`** — answers of a key and a revision agree; a consumer that would be answered
  unchanged has the current catalog.
* **`Traceable`** — no save is refused after a change, what throws in a transaction throws before
  its first save, and an answer is built from the revision that was read for it.
* **`revisions_identify_content`** — then it is so, and the revision never decreases.
* **`SampleCatalog.revision_used_twice`** — without it, a rollback gives a number out again.
-/

namespace Dweb

open List

/-! ## The catalog -/

structure CatalogGrant where
  keyId : String
  group : String
deriving DecidableEq

structure CatalogView (Entry : Type) where
  keyId : String
  group : String
  limits : GroupLimits
  services : List Entry
deriving DecidableEq

structure CatalogAnswer (Entry : Type) where
  grant : CatalogGrant
  rev : Nat
  catalog : CatalogView Entry

inductive CatalogPoll where
  | watching (grant : CatalogGrant) (since : Nat)
  /-- Has read a revision, and is about to build the catalog. -/
  | changed (grant : CatalogGrant) (rev : Nat)

/-- A consumer with its key, what it last received, and its poll. -/
structure CatalogConsumer (Entry : Type) where
  keyId : String
  copy : Option (Nat × CatalogView Entry)
  poll : Option CatalogPoll

/-- What the catalog has from outside: the disclosure of a service, and the budget of a body. -/
structure CatalogPlatform (Slots Auth Entry : Type) where
  buildServiceEntry : Service Slots Auth → Entry
  exceeds : Nat → CatalogView Entry → Bool

variable {Raw Slots Auth Entry : Type}

def buildCatalogView (C : CatalogPlatform Slots Auth Entry) (data : StoreContent Slots Auth)
    (grant : CatalogGrant) : CatalogView Entry where
  keyId := grant.keyId
  group := grant.group
  limits := ((data.getGroup grant.group).bind ServiceGroup.limits).getD ⟨none, none⟩
  services := (data.groupServices grant.group).map C.buildServiceEntry

/-- `keyStatus`, where it is valid. -/
def StoreContent.validKey (data : StoreContent Slots Auth) (keyId : String) :
    Option CatalogGrant :=
  match data.getKey keyId with
  | some key => if key.revokedAt = none then some ⟨keyId, key.group⟩ else none
  | none => none

/-! ## The machine -/

structure WatchState (Raw Slots Auth Entry : Type) where
  store : StoreState Raw Slots Auth
  consumers : List (CatalogConsumer Entry)
  answers : List (CatalogAnswer Entry)

inductive WatchLabel (Raw Slots Auth : Type) where
  | store (l : StoreLabel Raw Slots Auth)
  | poll (k : Nat)
  /-- The revision is compared: at once, and after the wait. -/
  | look (k : Nat)
  | answer (k : Nat)

namespace WatchState

variable (P : StorePlatform Raw Slots Auth) (C : CatalogPlatform Slots Auth Entry)
  [DecidableEq Auth]

def step (s : WatchState Raw Slots Auth Entry) :
    WatchLabel Raw Slots Auth → Option (WatchState Raw Slots Auth Entry)
  | .store l => (s.store.step P l).map fun store => { s with store }
  | .poll k =>
    match s.consumers[k]? with
    | some ⟨keyId, copy, none⟩ =>
      match s.store.data.content.validKey keyId with
      | some grant =>
        let since := copy.elim 0 Prod.fst
        some { s with
          consumers := s.consumers.set k ⟨keyId, copy, some (.watching grant since)⟩ }
      | none => some s
    | _ => none
  | .look k =>
    match s.consumers[k]? with
    | some ⟨keyId, copy, some (.watching grant since)⟩ =>
      let rev := s.store.data.revision
      let poll := if rev ≠ since then some (.changed grant rev) else none
      some { s with consumers := s.consumers.set k ⟨keyId, copy, poll⟩ }
    | _ => none
  | .answer k =>
    match s.consumers[k]? with
    | some ⟨keyId, copy, some (.changed grant rev)⟩ =>
      let catalog := buildCatalogView C s.store.data.content grant
      if C.exceeds rev catalog then
        some { s with consumers := s.consumers.set k ⟨keyId, copy, none⟩ }
      else
        some { s with
          consumers := s.consumers.set k ⟨keyId, some (rev, catalog), none⟩
          answers := ⟨grant, rev, catalog⟩ :: s.answers }
    | _ => none

def current (s : WatchState Raw Slots Auth Entry) (grant : CatalogGrant) : CatalogView Entry :=
  buildCatalogView C s.store.data.content grant

end WatchState

def watchMachine (P : StorePlatform Raw Slots Auth) (C : CatalogPlatform Slots Auth Entry)
    [DecidableEq Auth] :
    Machine (WatchState Raw Slots Auth Entry) (WatchLabel Raw Slots Auth) where
  init s := (storeMachine P).init s.store ∧ s.answers = [] ∧
    ∀ c ∈ s.consumers, c.copy = none ∧ c.poll = none
  step s l := s.step P C l

/-! ## What revisions are for -/

variable (P : StorePlatform Raw Slots Auth) (C : CatalogPlatform Slots Auth Entry)
  [DecidableEq Auth]

/-- **Soundness of the revisions**, in a state. -/
structure CatalogSound (s : WatchState Raw Slots Auth Entry) : Prop where
  agree : ∀ a ∈ s.answers, ∀ b ∈ s.answers, a.grant.keyId = b.grant.keyId → a.rev = b.rev →
    a.catalog = b.catalog
  unchanged : ∀ c ∈ s.consumers, ∀ grant since rev catalog,
    c.poll = some (.watching grant since) → c.copy = some (rev, catalog) →
    s.store.data.revision = since → catalog = s.current C grant
  settles : ∀ k keyId copy grant, s.consumers[k]? = some ⟨keyId, copy, none⟩ →
    s.store.data.content.validKey keyId = some grant →
    (copy = none → s.store.data.revision ≠ 0) →
    C.exceeds s.store.data.revision (s.current C grant) = false →
    ∃ s' rev, ((watchMachine P C).run s [.poll k, .look k] = some s' ∨
        (watchMachine P C).run s [.poll k, .look k, .answer k] = some s') ∧
      s'.store = s.store ∧ s'.consumers[k]? = some ⟨keyId, some (rev, s.current C grant), none⟩

variable [DecidableEq Slots]

def StoreState.EntersTraceable (s : StoreState Raw Slots Auth) (world : StoreWorld)
    (op : StoreOp Raw Slots Auth) : Prop :=
  match op.run P world s.data.content with
  | .ok (some content) =>
    checkSave P world s.baseline content = .ok () ∨ content = s.data.content
  | _ => True

def StoreTask.HooksTraceable (s : StoreState Raw Slots Auth) (world : StoreWorld)
    (serviceId : String) : StoreTask Slots Auth → Prop
  | .hooked _ prepared => s.EntersTraceable P world (.pushService prepared serviceId)
  | _ => True

def StoreTraceable (s : StoreState Raw Slots Auth) : StoreLabel Raw Slots Auth → Prop
  | .call _ world op => op.waits = false → s.EntersTraceable P world op
  | .hooks i world serviceId => ∀ task ∈ s.tasks[i]?, task.HooksTraceable P s world serviceId
  | .abort id _ => ∀ tx ∈ s.txs.find? (·.id = id), tx.snapshot.revision = s.data.revision
  | _ => True

def CatalogConsumer.AnswersCurrent (revision : Nat) (c : CatalogConsumer Entry) : Prop :=
  match c.poll with
  | some (.changed _ rev) => rev = revision
  | _ => True

/-- **The condition on a step.** -/
def Traceable (s : WatchState Raw Slots Auth Entry) : WatchLabel Raw Slots Auth → Prop
  | .store l => StoreTraceable P s.store l
  | .answer k => ∀ c ∈ s.consumers[k]?, c.AnswersCurrent s.store.data.revision
  | _ => True

instance StoreState.decidableEntersTraceable (s : StoreState Raw Slots Auth) (world : StoreWorld)
    (op : StoreOp Raw Slots Auth) : Decidable (s.EntersTraceable P world op) :=
  match hrun : op.run P world s.data.content with
  | .error _ => isTrue (by rw [EntersTraceable, hrun]; trivial)
  | .ok none => isTrue (by rw [EntersTraceable, hrun]; trivial)
  | .ok (some content) =>
    decidable_of_iff (checkSave P world s.baseline content = .ok () ∨ content = s.data.content)
      (by rw [EntersTraceable, hrun])

instance StoreTask.decidableHooksTraceable (s : StoreState Raw Slots Auth) (world : StoreWorld)
    (serviceId : String) : (task : StoreTask Slots Auth) →
      Decidable (task.HooksTraceable P s world serviceId)
  | .hooked _ prepared =>
    inferInstanceAs (Decidable (s.EntersTraceable P world (.pushService prepared serviceId)))
  | .writing _ _ _ => isTrue trivial
  | .written _ => isTrue trivial

instance StoreTraceable.decidable (s : StoreState Raw Slots Auth) :
    (l : StoreLabel Raw Slots Auth) → Decidable (StoreTraceable P s l)
  | .call _ world op =>
    inferInstanceAs (Decidable (op.waits = false → s.EntersTraceable P world op))
  | .hooks i world serviceId =>
    inferInstanceAs (Decidable (∀ task ∈ s.tasks[i]?, task.HooksTraceable P s world serviceId))
  | .land _ => isTrue trivial
  | .fail _ => isTrue trivial
  | .finish _ => isTrue trivial
  | .begin => isTrue trivial
  | .commit _ => isTrue trivial
  | .abort id _ =>
    inferInstanceAs (Decidable (∀ tx ∈ s.txs.find? (·.id = id),
      tx.snapshot.revision = s.data.revision))

instance CatalogConsumer.decidableAnswersCurrent (revision : Nat) :
    (c : CatalogConsumer Entry) → Decidable (c.AnswersCurrent revision)
  | ⟨_, _, none⟩ => isTrue trivial
  | ⟨_, _, some (.watching _ _)⟩ => isTrue trivial
  | ⟨_, _, some (.changed _ rev)⟩ => inferInstanceAs (Decidable (rev = revision))

instance Traceable.decidable (s : WatchState Raw Slots Auth Entry) :
    (l : WatchLabel Raw Slots Auth) → Decidable (Traceable P s l)
  | .store l => inferInstanceAs (Decidable (StoreTraceable P s.store l))
  | .poll _ => isTrue trivial
  | .look _ => isTrue trivial
  | .answer k =>
    inferInstanceAs (Decidable (∀ c ∈ s.consumers[k]?, c.AnswersCurrent s.store.data.revision))

/-! ## Steps of the store -/

section

variable {P : StorePlatform Raw Slots Auth} {C : CatalogPlatform Slots Auth Entry}

def KeysStay (content content' : StoreContent Slots Auth) : Prop :=
  ∀ keyId key, content.getKey keyId = some key →
    ∃ key', content'.getKey keyId = some key' ∧ key'.group = key.group

omit [DecidableEq Slots] [DecidableEq Auth] in
variable {content content' : StoreContent Slots Auth} {world : StoreWorld}
    {s : StoreState Raw Slots Auth}

theorem KeysStay.of_eq (h : content'.keys = content.keys) : KeysStay content content' := by
  intro keyId key hkey
  refine ⟨key, ?_, rfl⟩
  rw [StoreContent.getKey, h]
  exact hkey

theorem find?_set_findIdx {α : Type} (f : α → String) (l : List α) (x : α) (id : String) :
    (l.set (l.findIdx (f · = f x)) x).find? (f · = id) = 
      if id = f x ∧ l.any (f · = f x) then some x else l.find? (f · = id) := by
  induction l with
  | nil => simp
  | cons a l ih =>
    rw [findIdx_cons]
    by_cases ha : f a = f x
    · by_cases hid : id = f x
      · simp [ha, hid]
      · simp [ha, hid, Ne.symm hid]
    · by_cases haid : f a = id
      · have hid : id ≠ f x := fun h => ha (haid.trans h)
        simp [haid, hid]
      · simp [ha, haid, ih]

omit [DecidableEq Slots] [DecidableEq Auth] in
theorem addServicePush_keys {prepared : PreparedService Slots Auth} {serviceId : String}
    (h : addServicePush world content prepared serviceId = .ok content') :
    content'.keys = content.keys := by
  simp only [addServicePush, ite_throw_eq_ok, bind_eq_ok, pure_eq_ok] at h
  obtain ⟨-, u, -, heq⟩ := h
  rw [← heq]

omit [DecidableEq Slots] [DecidableEq Auth] in
theorem StoreOp.run_keysStay {op : StoreOp Raw Slots Auth}
    (h : op.run P world content = .ok (some content')) : KeysStay content content' := by
  cases op with
  | addService input serviceId =>
    simp only [StoreOp.run, bind_eq_ok, pure_eq_ok, Option.some.injEq] at h
    obtain ⟨prepared, -, content'', hpush, heq⟩ := h
    exact .of_eq (heq ▸ addServicePush_keys hpush)
  | pushService prepared serviceId =>
    simp only [StoreOp.run, bind_eq_ok, pure_eq_ok, Option.some.injEq] at h
    obtain ⟨content'', hpush, heq⟩ := h
    exact .of_eq (heq ▸ addServicePush_keys hpush)
  | removeService name =>
    simp only [StoreOp.run, bind_eq_ok, pure_eq_ok, Option.some.injEq] at h
    obtain ⟨removed, -, heq⟩ := h
    exact .of_eq (heq ▸ rfl)
  | setServiceEnabled serviceId enabled =>
    simp only [StoreOp.run, bind_eq_ok] at h
    obtain ⟨service, -, h⟩ := h
    split at h
    · cases h
    · simp only [bind_eq_ok, pure_eq_ok, Option.some.injEq] at h
      obtain ⟨u, -, heq⟩ := h
      exact .of_eq (heq ▸ rfl)
  | setServiceAuth serviceId auth =>
    simp only [StoreOp.run, bind_eq_ok, pure_eq_ok, Option.some.injEq] at h
    obtain ⟨service, -, auth', -, u, -, heq⟩ := h
    exact .of_eq (heq ▸ rfl)
  | addGroup name serviceNames limits =>
    simp only [StoreOp.run, ite_throw_eq_ok, bind_eq_ok, pure_eq_ok, Option.some.injEq] at h
    obtain ⟨-, -, serviceIds, -, u, -, heq⟩ := h
    exact .of_eq (heq ▸ rfl)
  | setGroupServices name serviceNames =>
    simp only [StoreOp.run, bind_eq_ok, pure_eq_ok, Option.some.injEq] at h
    obtain ⟨group, -, serviceIds, -, heq⟩ := h
    exact .of_eq (heq ▸ rfl)
  | setGroupLimits name limits =>
    simp only [StoreOp.run, bind_eq_ok, pure_eq_ok, Option.some.injEq] at h
    obtain ⟨group, -, u, -, heq⟩ := h
    exact .of_eq (heq ▸ rfl)
  | removeGroup name =>
    simp only [StoreOp.run, ite_throw_eq_ok, bind_eq_ok, pure_eq_ok, Option.some.injEq] at h
    obtain ⟨group, -, -, heq⟩ := h
    exact .of_eq (heq ▸ rfl)
  | issueKey groupName name keyId key createdAt =>
    simp only [StoreOp.run, ite_throw_eq_ok, bind_eq_ok, pure_eq_ok, Option.some.injEq] at h
    obtain ⟨group, -, -, -, heq⟩ := h
    intro keyId' key' hkey'
    refine ⟨key', ?_, rfl⟩
    rw [StoreContent.getKey, ← heq]
    exact find?_append.trans (by rw [show content.keys.find? _ = _ from hkey']; rfl)
  | revokeKey keyId now =>
    simp only [StoreOp.run, bind_eq_ok, okOr_eq_ok] at h
    obtain ⟨found, hfound, h⟩ := h
    split at h
    · cases h
    · simp only [pure_eq_ok, Option.some.injEq] at h
      have hid : found.keyId = keyId := by simpa using find?_some hfound
      subst hid
      intro keyId' key' hkey'
      have hget := find?_set_findIdx ProviderKey.keyId content.keys
        { found with revokedAt := some now } keyId'
      rw [← h]
      by_cases hsame : keyId' = found.keyId
      · subst hsame
        have hmem : content.keys.any (·.keyId = found.keyId) = true :=
          any_eq_true.mpr ⟨found, mem_of_find?_eq_some hfound, by simp⟩
        rw [if_pos ⟨rfl, hmem⟩] at hget
        rw [hfound, Option.some.injEq] at hkey'
        exact ⟨_, hget, by rw [← hkey']⟩
      · rw [if_neg fun hand => hsame hand.1] at hget
        exact ⟨key', hget.trans hkey', rfl⟩
  | setAlias name =>
    simp only [StoreOp.run, ite_throw_eq_ok, pure_eq_ok, Option.some.injEq] at h
    obtain ⟨-, heq⟩ := h
    exact .of_eq (heq ▸ rfl)

def SnapshotsHold (s : StoreState Raw Slots Auth) : Prop :=
  ∀ tx ∈ s.txs, tx.snapshot.revision ≤ s.data.revision ∧
    (tx.snapshot.revision = s.data.revision → tx.snapshot = s.data)

/-- What a step of the store does to what the catalog is made of. -/
structure Advances (s s' : StoreState Raw Slots Auth) : Prop where
  data : s'.data = s.data ∨
    s.data.revision < s'.data.revision ∧ KeysStay s.data.content s'.data.content
  snapshots : SnapshotsHold s → SnapshotsHold s'

omit [DecidableEq Slots] [DecidableEq Auth] in
theorem Advances.of_eq {s s' : StoreState Raw Slots Auth} (hdata : s'.data = s.data)
    (htxs : ∀ tx ∈ s'.txs, ∃ tx' ∈ s.txs, tx'.snapshot = tx.snapshot) : Advances s s' where
  data := .inl hdata
  snapshots hbefore tx hmem := by
    obtain ⟨tx', hmem', hsnapshot⟩ := htxs tx hmem
    rw [hdata, ← hsnapshot]
    exact hbefore tx' hmem'

omit [DecidableEq Slots] [DecidableEq Auth] in
theorem Advances.of_lt {s s' : StoreState Raw Slots Auth}
    (hrev : s.data.revision < s'.data.revision)
    (hkeys : KeysStay s.data.content s'.data.content)
    (htxs : ∀ tx ∈ s'.txs, ∃ tx' ∈ s.txs, tx'.snapshot = tx.snapshot) : Advances s s' where
  data := .inr ⟨hrev, hkeys⟩
  snapshots hbefore tx hmem := by
    obtain ⟨tx', hmem', hsnapshot⟩ := htxs tx hmem
    have := (hbefore tx' hmem').1
    rw [hsnapshot] at this
    refine ⟨by omega, fun heq => ?_⟩
    omega

omit [DecidableEq Slots] [DecidableEq Auth] in
theorem Advances.ofTasks {s' : StoreState Raw Slots Auth} {tasks : List (StoreTask Slots Auth)}
    (h : Advances { s with tasks } s') : Advances s s' :=
  ⟨h.data, h.snapshots⟩

omit [DecidableEq Slots] [DecidableEq Auth] in
theorem StoreState.snapshot_of_mem_disturb {owner : Option Nat} {txs : List (StoreTx Slots Auth)}
    {tx : StoreTx Slots Auth} (h : tx ∈ StoreState.disturb owner txs) :
    ∃ tx' ∈ txs, tx'.snapshot = tx.snapshot := by
  obtain ⟨tx', hmem, rfl⟩ := mem_map.mp h
  exact ⟨tx', hmem, rfl⟩

omit [DecidableEq Slots] in
theorem StoreState.enter_advances {owner : Option Nat} {op : StoreOp Raw Slots Auth}
    (h : s.EntersTraceable P world op) : Advances s (s.enter P owner world op) := by
  have hsame : ∀ tx ∈ s.txs, ∃ tx' ∈ s.txs, tx'.snapshot = tx.snapshot :=
    fun tx hmem => ⟨tx, hmem, rfl⟩
  rw [StoreState.enter]
  rw [StoreState.EntersTraceable] at h
  cases hrun : op.run P world s.data.content with
  | error err => exact .of_eq rfl hsame
  | ok changed =>
    rw [hrun] at h
    cases changed with
    | none => exact .of_eq rfl fun tx hmem => StoreState.snapshot_of_mem_disturb hmem
    | some content =>
      show Advances s (s.save P owner world op content)
      rw [StoreState.save]
      cases hcheck : checkSave P world s.baseline content with
      | error err =>
        have hcontent : content = s.data.content := by
          rcases h with hok | hcontent
          · rw [hcheck] at hok
            cases hok
          · exact hcontent
        subst hcontent
        exact .of_eq rfl hsame
      | ok u =>
        exact .of_lt (Nat.lt_succ_self _) (StoreOp.run_keysStay hrun)
          fun tx hmem => StoreState.snapshot_of_mem_disturb hmem

omit [DecidableEq Slots] in
theorem StoreState.rollback_advances {tx : StoreTx Slots Auth} (hsnapshot : tx.snapshot = s.data) :
    Advances s (s.rollback P tx world) := by
  have hleft : ∀ tx' ∈ StoreState.disturb none (s.txs.filter (·.id ≠ tx.id)),
      ∃ tx'' ∈ s.txs, tx''.snapshot = tx'.snapshot := by
    intro tx' hmem
    obtain ⟨tx'', hmem, heq⟩ := StoreState.snapshot_of_mem_disturb hmem
    exact ⟨tx'', mem_of_mem_filter hmem, heq⟩
  rw [StoreState.rollback]
  cases hcheck : checkSave P world s.baseline tx.snapshot.content with
  | error err => exact .of_eq hsnapshot hleft
  | ok u =>
    refine .of_lt ?_ ?_ hleft
    · show s.data.revision < tx.snapshot.revision + 1
      rw [hsnapshot]
      exact Nat.lt_succ_self _
    · show KeysStay s.data.content tx.snapshot.content
      rw [hsnapshot]
      exact .of_eq rfl

omit [DecidableEq Slots] in
theorem StoreState.step_advances {s' : StoreState Raw Slots Auth} {l : StoreLabel Raw Slots Auth}
    (hsnapshots : SnapshotsHold s) (h : StoreTraceable P s l) (hstep : s.step P l = some s') :
    Advances s s' := by
  have hsame : ∀ tx ∈ s.txs, ∃ tx' ∈ s.txs, tx'.snapshot = tx.snapshot :=
    fun tx hmem => ⟨tx, hmem, rfl⟩
  cases l with
  | call owner world op =>
    obtain ⟨-, hstep⟩ := Option.ite_none_right_eq_some.mp hstep
    split at hstep
    · cases hstep
    · next input serviceId =>
      split at hstep
      · split at hstep
        · cases hstep
          exact .of_eq rfl hsame
        · cases hstep
          exact .of_eq rfl hsame
      · next hhooks =>
        cases hstep
        exact StoreState.enter_advances (h (Bool.eq_false_iff.mpr hhooks))
    · next hpush hadd =>
      cases hstep
      refine StoreState.enter_advances (h ?_)
      cases op with
      | addService input serviceId => exact (hadd input serviceId rfl).elim
      | _ => rfl
  | hooks i world serviceId =>
    simp only [StoreState.step] at hstep
    split at hstep
    · next owner prepared htask =>
      cases hstep
      have henters : s.EntersTraceable P world (.pushService prepared serviceId) := h _ htask
      exact .ofTasks (StoreState.enter_advances henters)
    · cases hstep
  | land i =>
    simp only [StoreState.step] at hstep
    split at hstep
    · cases hstep
      exact .of_eq rfl hsame
    · cases hstep
  | fail i =>
    simp only [StoreState.step] at hstep
    split at hstep
    · cases hstep
      exact .of_eq rfl hsame
    · cases hstep
      exact .of_eq rfl hsame
    · cases hstep
  | finish i =>
    simp only [StoreState.step] at hstep
    split at hstep
    · cases hstep
      exact .of_eq rfl hsame
    · cases hstep
  | begin =>
    cases hstep
    refine ⟨.inl rfl, fun hbefore tx hmem => ?_⟩
    rcases mem_cons.mp hmem with heq | hmem
    · rw [heq]
      exact ⟨Nat.le_refl _, fun _ => rfl⟩
    · exact hbefore tx hmem
  | commit id =>
    obtain ⟨-, hstep⟩ := Option.ite_none_right_eq_some.mp hstep
    cases hstep
    exact .of_eq rfl fun tx hmem => ⟨tx, mem_of_mem_filter hmem, rfl⟩
  | abort id world =>
    simp only [StoreState.step] at hstep
    split at hstep
    · next tx htx =>
      cases hstep
      exact StoreState.rollback_advances
        ((hsnapshots tx (mem_of_find?_eq_some htx)).2 (h tx htx))
    · cases hstep

/-! ## The invariant -/

def CatalogGrant.Holds (content : StoreContent Slots Auth) (grant : CatalogGrant) : Prop :=
  ∃ key, content.getKey grant.keyId = some key ∧ key.group = grant.group

def CatalogPoll.grant : CatalogPoll → CatalogGrant
  | .watching grant _ => grant
  | .changed grant _ => grant

variable (C) in
structure CatalogAnswer.Dated (data : StoreData Slots Auth) (a : CatalogAnswer Entry) : Prop where
  grant : a.grant.Holds data.content
  le : a.rev ≤ data.revision
  catalog : a.rev = data.revision → a.catalog = buildCatalogView C data.content a.grant

structure CatalogConsumer.Tracked (content : StoreContent Slots Auth)
    (answers : List (CatalogAnswer Entry)) (c : CatalogConsumer Entry) : Prop where
  grant : ∀ poll, c.poll = some poll → poll.grant.keyId = c.keyId ∧ poll.grant.Holds content
  since : ∀ grant since, c.poll = some (.watching grant since) → since = c.copy.elim 0 Prod.fst
  copy : ∀ rev catalog, c.copy = some (rev, catalog) →
    ∃ a ∈ answers, a.grant.keyId = c.keyId ∧ a.rev = rev ∧ a.catalog = catalog

variable (C) in
structure WatchInv (s : WatchState Raw Slots Auth Entry) : Prop where
  snapshots : SnapshotsHold s.store
  dated : ∀ a ∈ s.answers, a.Dated C s.store.data
  agree : ∀ a ∈ s.answers, ∀ b ∈ s.answers, a.grant.keyId = b.grant.keyId → a.rev = b.rev →
    a.catalog = b.catalog
  tracked : ∀ c ∈ s.consumers, c.Tracked s.store.data.content s.answers

variable {s s' : WatchState Raw Slots Auth Entry} {content content' : StoreContent Slots Auth}
  {grant grant' : CatalogGrant} {a : CatalogAnswer Entry} {answers : List (CatalogAnswer Entry)}
  {c : CatalogConsumer Entry}

omit [DecidableEq Slots] [DecidableEq Auth] in
theorem CatalogGrant.Holds.eq (h : grant.Holds content) (h' : grant'.Holds content)
    (hkey : grant.keyId = grant'.keyId) : grant = grant' := by
  obtain ⟨key, hget, hgroup⟩ := h
  obtain ⟨key', hget', hgroup'⟩ := h'
  rw [hkey, hget', Option.some.injEq] at hget
  cases grant
  cases grant'
  subst hget
  simp_all

omit [DecidableEq Slots] [DecidableEq Auth] in
theorem CatalogGrant.Holds.stay (h : grant.Holds content) (hkeys : KeysStay content content') :
    grant.Holds content' := by
  obtain ⟨key, hget, hgroup⟩ := h
  obtain ⟨key', hget', hgroup'⟩ := hkeys _ _ hget
  exact ⟨key', hget', hgroup'.trans hgroup⟩

omit [DecidableEq Slots] [DecidableEq Auth] in
theorem CatalogGrant.Holds.of_validKey {keyId : String}
    (h : content.validKey keyId = some grant) : grant.keyId = keyId ∧ grant.Holds content := by
  rw [StoreContent.validKey] at h
  cases hkey : content.getKey keyId with
  | none =>
    rw [hkey] at h
    cases h
  | some key =>
    rw [hkey] at h
    simp only [Option.ite_none_right_eq_some, Option.some.injEq] at h
    rw [← h.2]
    exact ⟨rfl, key, hkey, rfl⟩

omit [DecidableEq Slots] [DecidableEq Auth] in
theorem CatalogConsumer.Tracked.stay (h : c.Tracked content answers)
    (hkeys : KeysStay content content') : c.Tracked content' answers :=
  { h with grant := fun poll hpoll => ⟨(h.grant poll hpoll).1, (h.grant poll hpoll).2.stay hkeys⟩ }

omit [DecidableEq Slots] [DecidableEq Auth] in
theorem CatalogConsumer.Tracked.cons (h : c.Tracked content answers) :
    c.Tracked content (a :: answers) :=
  { h with
    copy := fun rev catalog hcopy =>
      have ⟨b, hmem, hb⟩ := h.copy rev catalog hcopy
      ⟨b, mem_cons_of_mem _ hmem, hb⟩ }

omit [DecidableEq Slots] in
theorem WatchInv.init (h : (watchMachine P C).init s) : WatchInv C s := by
  obtain ⟨⟨-, -, -, -, -, htxs, -⟩, hanswers, hconsumers⟩ := h
  exact {
    snapshots := by simp [SnapshotsHold, htxs]
    dated := by simp [hanswers]
    agree := by simp [hanswers]
    tracked := by
      intro c hc
      obtain ⟨hcopy, hpoll⟩ := hconsumers c hc
      exact ⟨by simp [hpoll], by simp [hpoll], by simp [hcopy]⟩ }

omit [DecidableEq Slots] [DecidableEq Auth] in
theorem WatchInv.store {store : StoreState Raw Slots Auth} (h : WatchInv C s)
    (hadvances : Advances s.store store) : WatchInv C { s with store } := by
  have hkeys : KeysStay s.store.data.content store.data.content := by
    rcases hadvances.data with hdata | ⟨-, hkeys⟩
    · exact .of_eq (by rw [hdata])
    · exact hkeys
  exact {
    snapshots := hadvances.snapshots h.snapshots
    dated := by
      intro a hmem
      have hdated := h.dated a hmem
      refine ⟨hdated.grant.stay hkeys, ?_, ?_⟩
      · rcases hadvances.data with hdata | ⟨hlt, -⟩
        · exact hdata ▸ hdated.le
        · exact Nat.le_trans hdated.le (Nat.le_of_lt hlt)
      · intro hrev
        rcases hadvances.data with hdata | ⟨hlt, -⟩
        · show a.catalog = buildCatalogView C store.data.content a.grant
          rw [hdata] at hrev ⊢
          exact hdated.catalog hrev
        · -- what was answered has an earlier revision
          have hrev : a.rev = store.data.revision := hrev
          have := hdated.le
          omega
    agree := h.agree
    tracked := fun c hc => (h.tracked c hc).stay hkeys }

omit [DecidableEq Slots] [DecidableEq Auth] in
theorem WatchInv.setConsumer {k : Nat} (h : WatchInv C s)
    (hc : c.Tracked s.store.data.content s.answers) :
    WatchInv C { s with consumers := s.consumers.set k c } :=
  { h with tracked := forall_mem_set h.tracked hc }

omit [DecidableEq Slots] [DecidableEq Auth] in
theorem CatalogConsumer.Tracked.idle {keyId : String} {copy : Option (Nat × CatalogView Entry)}
    {poll : Option CatalogPoll} (h : CatalogConsumer.Tracked content answers ⟨keyId, copy, poll⟩) :
    CatalogConsumer.Tracked content answers ⟨keyId, copy, none⟩ where
  grant _ hpoll := by cases hpoll
  since _ _ hpoll := by cases hpoll
  copy := h.copy

omit [DecidableEq Slots] in
theorem WatchInv.step {l : WatchLabel Raw Slots Auth} (h : WatchInv C s)
    (htraceable : Traceable P s l) (hstep : (watchMachine P C).step s l = some s') :
    WatchInv C s' := by
  have hstep : s.step P C l = some s' := hstep
  cases l with
  | store l =>
    obtain ⟨store, hstore, heq⟩ := Option.map_eq_some_iff.mp hstep
    subst heq
    exact h.store (StoreState.step_advances h.snapshots htraceable hstore)
  | poll k =>
    simp only [WatchState.step] at hstep
    split at hstep
    · next keyId copy hconsumer =>
      have htracked := h.tracked _ (mem_of_getElem? hconsumer)
      split at hstep
      · next grant hvalid =>
        cases hstep
        refine h.setConsumer ⟨?_, ?_, htracked.copy⟩
        · intro poll hpoll
          cases hpoll
          exact CatalogGrant.Holds.of_validKey hvalid
        · intro grant' since hpoll
          cases hpoll
          rfl
      · cases hstep
        exact h
    · cases hstep
  | look k =>
    simp only [WatchState.step] at hstep
    split at hstep
    · next keyId copy grant since hconsumer =>
      have htracked := h.tracked _ (mem_of_getElem? hconsumer)
      cases hstep
      refine h.setConsumer ?_
      split
      · refine ⟨?_, ?_, htracked.copy⟩
        · intro poll hpoll
          cases hpoll
          exact htracked.grant (.watching grant since) rfl
        · intro grant' since' hpoll
          cases hpoll
      · exact htracked.idle
    · cases hstep
  | answer k =>
    simp only [WatchState.step] at hstep
    split at hstep
    · next keyId copy grant rev hconsumer =>
      have htracked := h.tracked _ (mem_of_getElem? hconsumer)
      obtain ⟨hkey, hgrant⟩ := htracked.grant _ rfl
      have hrev : rev = s.store.data.revision := htraceable _ hconsumer
      split at hstep
      · cases hstep
        exact h.setConsumer htracked.idle
      · cases hstep
        let a : CatalogAnswer Entry :=
          ⟨grant, rev, buildCatalogView C s.store.data.content grant⟩
        have hdated : a.Dated C s.store.data := ⟨hgrant, Nat.le_of_eq hrev, fun _ => rfl⟩
        -- an earlier answer of this key and revision is of this content, too
        have hagree : ∀ b ∈ s.answers, a.grant.keyId = b.grant.keyId → a.rev = b.rev →
            a.catalog = b.catalog := by
          intro b hmem hkey hsame
          have hb := h.dated b hmem
          have hgrants : a.grant = b.grant := hdated.grant.eq hb.grant hkey
          rw [hb.catalog (hsame.symm.trans hrev), ← hgrants]
        exact {
          snapshots := h.snapshots
          dated := by
            intro b hmem
            rcases mem_cons.mp hmem with heq | hmem
            · rw [heq]
              exact hdated
            · exact h.dated b hmem
          agree := by
            intro b hb b' hb' hkey hsame
            rcases mem_cons.mp hb with heq | hb <;> rcases mem_cons.mp hb' with heq' | hb'
            · rw [heq, heq']
            · subst heq
              exact hagree b' hb' hkey hsame
            · subst heq'
              exact (hagree b hb hkey.symm hsame.symm).symm
            · exact h.agree b hb b' hb' hkey hsame
          tracked := by
            refine forall_mem_set (fun c hc => (h.tracked c hc).cons) ⟨?_, ?_, ?_⟩
            · intro poll hpoll
              cases hpoll
            · intro grant' since hpoll
              cases hpoll
            · intro rev' catalog hcopy
              cases hcopy
              exact ⟨a, mem_cons_self, hkey, rfl, rfl⟩ }
    · cases hstep

omit [DecidableEq Slots] [DecidableEq Auth] in
theorem WatchInv.current {rev : Nat} {catalog : CatalogView Entry} (h : WatchInv C s)
    (hc : c ∈ s.consumers) (hcopy : c.copy = some (rev, catalog)) (hkey : grant.keyId = c.keyId)
    (hgrant : grant.Holds s.store.data.content) (hrev : s.store.data.revision = rev) :
    catalog = s.current C grant := by
  obtain ⟨a, hmem, ha, harev, hcatalog⟩ := (h.tracked c hc).copy rev catalog hcopy
  have hdated := h.dated a hmem
  have hgrants : a.grant = grant := hdated.grant.eq hgrant (ha.trans hkey.symm)
  rw [← hcatalog, hdated.catalog (harev.trans hrev.symm), hgrants]
  rfl

def WatchState.put (s : WatchState Raw Slots Auth Entry) (k : Nat) (c : CatalogConsumer Entry) :
    WatchState Raw Slots Auth Entry :=
  { s with consumers := s.consumers.set k c }

omit [DecidableEq Slots] in
/-- **A poll of a consumer**, while the store takes no step. -/
theorem WatchInv.settles {k : Nat} {keyId : String} {copy : Option (Nat × CatalogView Entry)}
    (h : WatchInv C s) (hconsumer : s.consumers[k]? = some ⟨keyId, copy, none⟩)
    (hvalid : s.store.data.content.validKey keyId = some grant)
    (hfirst : copy = none → s.store.data.revision ≠ 0)
    (hfits : C.exceeds s.store.data.revision (s.current C grant) = false) :
    ∃ s' rev, ((watchMachine P C).run s [.poll k, .look k] = some s' ∨
        (watchMachine P C).run s [.poll k, .look k, .answer k] = some s') ∧
      s'.store = s.store ∧
      s'.consumers[k]? = some ⟨keyId, some (rev, s.current C grant), none⟩ := by
  obtain ⟨hkey, hgrant⟩ := CatalogGrant.Holds.of_validKey hvalid
  have hlt : k < s.consumers.length := (List.getElem?_eq_some_iff.mp hconsumer).1
  have hput : ∀ (t : WatchState Raw Slots Auth Entry) c, k < t.consumers.length →
      (t.put k c).consumers[k]? = some c := fun t c hlt => getElem?_set_self hlt
  let since := copy.elim 0 Prod.fst
  let s₁ := s.put k ⟨keyId, copy, some (.watching grant since)⟩
  have hpoll : (watchMachine P C).step s (.poll k) = some s₁ := by
    show s.step P C (.poll k) = _
    simp only [WatchState.step, hconsumer, hvalid]
    rfl
  have hs₁ : s₁.consumers[k]? = some ⟨keyId, copy, some (.watching grant since)⟩ := hput s _ hlt
  have hlt₁ : k < s₁.consumers.length := (List.getElem?_eq_some_iff.mp hs₁).1
  let s₂ := s₁.put k ⟨keyId, copy,
    if s.store.data.revision ≠ since then some (.changed grant s.store.data.revision) else none⟩
  have hlook : (watchMachine P C).step s₁ (.look k) = some s₂ := by
    show s₁.step P C (.look k) = _
    simp only [WatchState.step, hs₁]
    rfl
  have hs₂ : s₂.consumers[k]? = some ⟨keyId, copy, if s.store.data.revision ≠ since then
      some (.changed grant s.store.data.revision) else none⟩ := hput s₁ _ hlt₁
  by_cases hchanged : s.store.data.revision ≠ since
  · -- it is answered with the catalog
    rw [if_pos hchanged] at hs₂
    have hlt₂ : k < s₂.consumers.length := (List.getElem?_eq_some_iff.mp hs₂).1
    let s₃ : WatchState Raw Slots Auth Entry :=
      { s₂.put k ⟨keyId, some (s.store.data.revision, s.current C grant), none⟩ with
        answers := ⟨grant, s.store.data.revision, s.current C grant⟩ :: s₂.answers }
    have hanswer : (watchMachine P C).step s₂ (.answer k) = some s₃ := by
      show s₂.step P C (.answer k) = _
      simp only [WatchState.step, hs₂]
      rw [if_neg (by rw [Bool.not_eq_true]; exact hfits)]
      rfl
    refine ⟨s₃, _, .inr ?_, rfl, hput s₂ _ hlt₂⟩
    simp only [Machine.run, hpoll, hlook, hanswer, Option.bind_some]
  · -- it has this revision, and so this catalog
    rw [if_neg hchanged] at hs₂
    have hsince : s.store.data.revision = since := by simpa using hchanged
    cases hcopy : copy with
    | none => exact absurd (by rw [hsince]; simp [since, hcopy]) (hfirst hcopy)
    | some received =>
      obtain ⟨rev, catalog⟩ := received
      have hrev : s.store.data.revision = rev := by rw [hsince]; simp [since, hcopy]
      have hcurrent : catalog = s.current C grant :=
        h.current (mem_of_getElem? hconsumer) hcopy hkey hgrant hrev
      refine ⟨s₂, rev, .inl ?_, rfl, ?_⟩
      · simp only [Machine.run, hpoll, hlook, Option.bind_some]
      · rw [hs₂, hcopy, hcurrent]

omit [DecidableEq Slots] in
theorem WatchInv.sound (h : WatchInv C s) : CatalogSound P C s where
  agree := h.agree
  unchanged c hc grant since rev catalog hpoll hcopy hrev := by
    have htracked := h.tracked c hc
    obtain ⟨hkey, hgrant⟩ := htracked.grant _ hpoll
    have hsince := htracked.since grant since hpoll
    rw [hcopy] at hsince
    exact h.current hc hcopy hkey hgrant (hrev.trans hsince)
  settles _ _ _ _ hconsumer hvalid hfirst hfits := h.settles hconsumer hvalid hfirst hfits

omit [DecidableEq Slots] in
theorem WatchInv.revision_le {l : WatchLabel Raw Slots Auth} (h : WatchInv C s)
    (htraceable : Traceable P s l) (hstep : (watchMachine P C).step s l = some s') :
    s.store.data.revision ≤ s'.store.data.revision := by
  have hstep : s.step P C l = some s' := hstep
  cases l with
  | store l =>
    obtain ⟨store, hstore, heq⟩ := Option.map_eq_some_iff.mp hstep
    subst heq
    rcases (StoreState.step_advances h.snapshots htraceable hstore).data with hdata | ⟨hlt, -⟩
    · exact Nat.le_of_eq (by rw [hdata])
    · exact Nat.le_of_lt hlt
  | poll k =>
    simp only [WatchState.step] at hstep
    split at hstep
    · split at hstep <;> cases hstep <;> exact Nat.le_refl _
    · cases hstep
  | look k =>
    simp only [WatchState.step] at hstep
    split at hstep
    · cases hstep
      exact Nat.le_refl _
    · cases hstep
  | answer k =>
    simp only [WatchState.step] at hstep
    split at hstep
    · split at hstep <;> cases hstep <;> exact Nat.le_refl _
    · cases hstep

omit [DecidableEq Slots] in
/-- **Revisions identify content**: over every interleaving whose steps are traceable. -/
theorem revisions_identify_content (P : StorePlatform Raw Slots Auth)
    (C : CatalogPlatform Slots Auth Entry) (s : WatchState Raw Slots Auth Entry)
    (h : (watchMachine P C).ReachableUnder (Traceable P) s) :
    CatalogSound P C s ∧ ∀ l s', Traceable P s l → (watchMachine P C).step s l = some s' →
      s.store.data.revision ≤ s'.store.data.revision := by
  have hinv : WatchInv C s :=
    h.invariant (I := WatchInv C) (fun _ hinit => WatchInv.init hinit)
      (fun _ _ _ hinv htraceable hstep => hinv.step htraceable hstep)
  exact ⟨hinv.sound, fun l s' htraceable hstep => hinv.revision_le htraceable hstep⟩

end

/-! ## A catalog of one key -/

namespace SampleCatalog

def platform : StorePlatform Unit Unit Unit where
  normalizeSlots _ := .ok ((), none)
  serviceSchema _ := true
  hashKeyMaterial _ := String.ofList (List.replicate 64 'a')

def catalog : CatalogPlatform Unit Unit String where
  buildServiceEntry service := service.name
  exceeds _ _ := false

def world : StoreWorld := ⟨fun _ => false, fun _ => false⟩

def data : StoreData Unit Unit where
  revision := 5
  content := {
    services := [⟨"s1", "chat", (), none, true, none⟩]
    groups := [⟨"team", ["s1"], none⟩]
    keys := [⟨"k1", "team", String.ofList (List.replicate 64 'a'), some "default",
      some "sk-aifly-1", 7, none⟩]
    metaAlias := none }

def start : WatchState Unit Unit Unit String where
  store := {
    data := data
    file := data
    baseline := persistedEnabled data.content.services
    tasks := []
    txs := []
    txCount := 0
    writes := 0
    landed := 0
    start := data.content
    entries := []
    voids := []
    returned := [] }
  consumers := [⟨"k1", none, none⟩, ⟨"k1", none, none⟩]
  answers := []

theorem init_start : (watchMachine platform catalog).init start := by
  refine ⟨⟨by decide +kernel, rfl, rfl, rfl, rfl, rfl, rfl, rfl, rfl, rfl, rfl⟩, rfl, ?_⟩
  intro c hc
  simp only [start, mem_cons, not_mem_nil, or_false, or_self] at hc
  rw [hc]
  exact ⟨rfl, rfl⟩

theorem polled_twice : ∃ s, CatalogSound platform catalog s ∧
    s.answers.map (·.rev) = [7, 5] ∧ s.answers.map (·.catalog.services) = [[], ["chat"]] := by
  have hrun : ((watchMachine platform catalog).runUnder (Traceable platform) start
      [.poll 0, .look 0, .answer 0, .poll 0, .store .begin, .store (.abort 0 world),
        .store (.call none world (.setGroupServices "team" [])), .store (.fail 0), .look 0,
        .answer 0]).any
      (fun s => s.answers.map (·.rev) = [7, 5] &&
        s.answers.map (·.catalog.services) = [[], ["chat"]]) = true := by decide +kernel
  obtain ⟨s, hreach, hs⟩ := Machine.exists_reachableUnder init_start hrun
  simp only [Bool.and_eq_true, decide_eq_true_eq] at hs
  exact ⟨s, (revisions_identify_content platform catalog s hreach).1, hs⟩

/-- **A revision that is used twice**: in a transaction that is rolled back, and by the rollback.
A consumer is answered unchanged, and its catalog is not the current one. -/
theorem revision_used_twice : ∃ s, (watchMachine platform catalog).Reachable s ∧
    ¬ CatalogSound platform catalog s ∧ s.store.tasks.length = 0 ∧ s.store.data.revision = 6 ∧
    s.consumers.map (fun c => c.copy.map fun copy => (copy.1, copy.2.services)) =
      [some (6, []), some (6, ["chat"])] ∧
    (s.current catalog ⟨"k1", "team"⟩).services = ["chat"] := by
  have hrun : ((watchMachine platform catalog).runUnder (fun _ _ => True) start
      [.store .begin, .store (.call (some 0) world (.setGroupServices "team" [])),
        .store (.land 0), .store (.finish 0), .poll 0, .look 0, .answer 0,
        .store (.abort 0 world), .store (.land 0), .store (.finish 0), .poll 0, .look 0,
        .poll 1, .look 1, .answer 1]).any
      (fun s => s.answers.any (fun a => s.answers.any fun b =>
          a.grant.keyId = b.grant.keyId && a.rev = b.rev && a.catalog ≠ b.catalog) &&
        s.store.tasks.length = 0 && s.store.data.revision = 6 &&
        s.consumers.map (fun c => c.copy.map fun copy => (copy.1, copy.2.services)) =
          [some (6, []), some (6, ["chat"])] &&
        (s.current catalog ⟨"k1", "team"⟩).services = ["chat"]) = true := by decide +kernel
  obtain ⟨s, hreach, hs⟩ := Machine.exists_reachableUnder init_start hrun
  simp only [Bool.and_eq_true, decide_eq_true_eq] at hs
  obtain ⟨⟨⟨⟨hanswers, htasks⟩, hrev⟩, hcopies⟩, hcurrent⟩ := hs
  refine ⟨s, hreach, fun hsound => ?_, htasks, hrev, hcopies, hcurrent⟩
  obtain ⟨a, ha, hanswers⟩ := any_eq_true.mp hanswers
  obtain ⟨b, hb, hdiffer⟩ := any_eq_true.mp hanswers
  simp only [Bool.and_eq_true, decide_eq_true_eq] at hdiffer
  obtain ⟨⟨hkey, hsame⟩, hcatalog⟩ := hdiffer
  exact hcatalog (hsound.agree a ha b hb hkey hsame)

end SampleCatalog


end Dweb
