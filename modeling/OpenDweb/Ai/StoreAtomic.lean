import OpenDweb.Ai.StoreMachine

/-!
# OpenDweb — atomicity of the provider store

* **`replayStore`** — operations one after the other, on the content at the start: what the store is to
  have.
* **`StoreDurable`** — memory has what the operations give that have not thrown; the file has what
  some of them give, in their order, and of those all that have returned.
* **`Orderly`** — no operation throws after it has changed the data, writes land in their order,
  what is answered without a write is on the file and in the writes under way, and a transaction
  that throws has had the store for itself.
* **`store_durable`** — then it is so, in every interleaving.
* **`SampleStore.revoked_twice`** — without it, a revocation is acknowledged that is not on disk.
-/

namespace Dweb

open List Option Bool

variable {Raw Slots Auth : Type}

/-! ## What the store is to have -/

section

variable (P : StorePlatform Raw Slots Auth)

def StoreEntry.effect (e : StoreEntry Raw Slots Auth) (content : StoreContent Slots Auth) :
    StoreContent Slots Auth :=
  match e.op.run P e.world content with
  | .ok (some content') => content'
  | _ => content

def replayStore (entries : List (StoreEntry Raw Slots Auth)) (content : StoreContent Slots Auth) :
    StoreContent Slots Auth :=
  entries.foldl (fun content e => e.effect P content) content

def StoreEntry.stands (voids : List (Nat × Nat)) (e : StoreEntry Raw Slots Auth) : Bool :=
  voids.all fun v => e.owner ≠ some v.1

/-- Not rolled back by a write up to the `n`th. -/
def StoreEntry.standsAt (voids : List (Nat × Nat)) (n : Nat) (e : StoreEntry Raw Slots Auth) :
    Bool :=
  voids.all fun v => e.owner ≠ some v.1 || n < v.2

/-- Written by the `n`th write, or by one before. -/
def StoreEntry.writtenBy (n : Nat) (e : StoreEntry Raw Slots Auth) : Bool := e.number.all (· ≤ n)

def StoreState.acked (s : StoreState Raw Slots Auth) (e : StoreEntry Raw Slots Auth) : Bool :=
  e.number.all (· ∈ s.returned)

def StoreState.live (s : StoreState Raw Slots Auth) : List (StoreEntry Raw Slots Auth) :=
  s.entries.filter (·.stands s.voids)

/-- **Atomicity**, in a state. -/
structure StoreDurable (s : StoreState Raw Slots Auth) : Prop where
  memory : s.data.content = replayStore P s.live s.start
  file : ∃ part, part.Sublist (s.entries.filter (·.standsAt s.voids s.landed)) ∧
    (∀ e ∈ s.live, s.acked e → e ∈ part) ∧ s.file.content = replayStore P part s.start
  opens : storeFileSchema P s.file.content = true

/-! ## The condition -/

variable [DecidableEq Slots] [DecidableEq Auth]

def StoreTask.Keeps (e : StoreEntry Raw Slots Auth) : StoreTask Slots Auth → Prop
  | .writing _ payload _ => e.effect P payload.content = payload.content
  | _ => True

/-- Between its call and its `save`, and in `save` before the write. -/
def StoreState.EntersOrderly (s : StoreState Raw Slots Auth) (world : StoreWorld)
    (op : StoreOp Raw Slots Auth) : Prop :=
  match op.run P world s.data.content with
  | .error _ => True
  | .ok none =>
    -- it changes neither the file nor what is being written to it
    let e : StoreEntry Raw Slots Auth := ⟨none, none, world, op⟩
    e.effect P s.file.content = s.file.content ∧ ∀ task ∈ s.tasks, task.Keeps P e
  | .ok (some content) =>
    storeFileSchema P content = true ∧
      (checkSave P world s.baseline content = .ok () ∨ content = s.data.content)

def StoreState.Empty (s : StoreState Raw Slots Auth) (id : Nat) : Prop :=
  ∀ e ∈ s.entries, e.owner ≠ some id

/-- The rest of an `addService` that has waited for its hooks. -/
def StoreTask.HooksOrderly (s : StoreState Raw Slots Auth) (world : StoreWorld)
    (serviceId : String) : StoreTask Slots Auth → Prop
  | .hooked _ prepared => s.EntersOrderly P world (.pushService prepared serviceId)
  | _ => True

def StoreTask.LandsOrderly (s : StoreState Raw Slots Auth) : StoreTask Slots Auth → Prop
  | .writing number _ _ => s.landed < number
  | _ => True

/-- A write that may fail: there is nothing to roll back. -/
def StoreTask.FailsOrderly (s : StoreState Raw Slots Auth) : StoreTask Slots Auth → Prop
  | .writing _ _ none => False
  | .writing _ _ (some id) => s.Empty id
  | _ => True

/-- **The condition on a step.** -/
def Orderly (s : StoreState Raw Slots Auth) : StoreLabel Raw Slots Auth → Prop
  | .call _ world op => op.waits = false → s.EntersOrderly P world op
  | .hooks i world serviceId => ∀ task ∈ s.tasks[i]?, task.HooksOrderly P s world serviceId
  | .land i => ∀ task ∈ s.tasks[i]?, task.LandsOrderly s
  | .fail i => ∀ task ∈ s.tasks[i]?, task.FailsOrderly s
  | .abort id world => ∀ tx ∈ s.txs.find? (·.id = id), tx.isAlone = true ∧
      (checkSave P world s.baseline tx.snapshot.content = .ok () ∨ s.Empty id)
  | _ => True

instance StoreTask.decidableKeeps (e : StoreEntry Raw Slots Auth) :
    (task : StoreTask Slots Auth) → Decidable (task.Keeps P e)
  | .hooked _ _ => isTrue trivial
  | .writing _ payload _ =>
    inferInstanceAs (Decidable (e.effect P payload.content = payload.content))
  | .written _ => isTrue trivial

instance StoreState.decidableEntersOrderly (s : StoreState Raw Slots Auth) (world : StoreWorld)
    (op : StoreOp Raw Slots Auth) : Decidable (s.EntersOrderly P world op) :=
  match hrun : op.run P world s.data.content with
  | .error _ => isTrue (by rw [EntersOrderly, hrun]; trivial)
  | .ok none =>
    decidable_of_iff
      ((⟨none, none, world, op⟩ : StoreEntry Raw Slots Auth).effect P s.file.content =
        s.file.content ∧ ∀ task ∈ s.tasks, task.Keeps P ⟨none, none, world, op⟩)
      (by rw [EntersOrderly, hrun])
  | .ok (some content) =>
    decidable_of_iff
      (storeFileSchema P content = true ∧
        (checkSave P world s.baseline content = .ok () ∨ content = s.data.content))
      (by rw [EntersOrderly, hrun])

instance StoreState.decidableEmpty (s : StoreState Raw Slots Auth) (id : Nat) :
    Decidable (s.Empty id) :=
  inferInstanceAs (Decidable (∀ e ∈ s.entries, e.owner ≠ some id))

instance StoreTask.decidableHooksOrderly (s : StoreState Raw Slots Auth) (world : StoreWorld)
    (serviceId : String) : (task : StoreTask Slots Auth) →
      Decidable (task.HooksOrderly P s world serviceId)
  | .hooked _ prepared =>
    inferInstanceAs (Decidable (s.EntersOrderly P world (.pushService prepared serviceId)))
  | .writing _ _ _ => isTrue trivial
  | .written _ => isTrue trivial

instance StoreTask.decidableLandsOrderly (s : StoreState Raw Slots Auth) :
    (task : StoreTask Slots Auth) → Decidable (task.LandsOrderly s)
  | .hooked _ _ => isTrue trivial
  | .writing number _ _ => inferInstanceAs (Decidable (s.landed < number))
  | .written _ => isTrue trivial

instance StoreTask.decidableFailsOrderly (s : StoreState Raw Slots Auth) :
    (task : StoreTask Slots Auth) → Decidable (task.FailsOrderly s)
  | .hooked _ _ => isTrue trivial
  | .writing _ _ none => inferInstanceAs (Decidable False)
  | .writing _ _ (some id) => inferInstanceAs (Decidable (s.Empty id))
  | .written _ => isTrue trivial

instance Orderly.decidable (s : StoreState Raw Slots Auth) :
    (l : StoreLabel Raw Slots Auth) → Decidable (Orderly P s l)
  | .call _ world op => inferInstanceAs (Decidable (op.waits = false → s.EntersOrderly P world op))
  | .hooks i world serviceId =>
    inferInstanceAs (Decidable (∀ task ∈ s.tasks[i]?, task.HooksOrderly P s world serviceId))
  | .land i => inferInstanceAs (Decidable (∀ task ∈ s.tasks[i]?, task.LandsOrderly s))
  | .fail i => inferInstanceAs (Decidable (∀ task ∈ s.tasks[i]?, task.FailsOrderly s))
  | .finish _ => isTrue trivial
  | .begin => isTrue trivial
  | .commit _ => isTrue trivial
  | .abort id world =>
    inferInstanceAs (Decidable (∀ tx ∈ s.txs.find? (·.id = id), tx.isAlone = true ∧
      (checkSave P world s.baseline tx.snapshot.content = .ok () ∨ s.Empty id)))

/-! ## What a content shows -/

/-- A content with all that was written up to the `n`th write. -/
def Shows (start : StoreContent Slots Auth) (entries : List (StoreEntry Raw Slots Auth))
    (voids : List (Nat × Nat)) (n : Nat) (content : StoreContent Slots Auth) : Prop :=
  ∃ part, part.Sublist (entries.filter (·.standsAt voids n)) ∧
    (∀ e ∈ entries.filter (·.stands voids), e.writtenBy n → e ∈ part) ∧
    content = replayStore P part start

end

section

variable {P : StorePlatform Raw Slots Auth} {start content : StoreContent Slots Auth}
  {entries part : List (StoreEntry Raw Slots Auth)} {voids : List (Nat × Nat)} {n m id : Nat}
  {e : StoreEntry Raw Slots Auth}

@[simp]
theorem replayStore_append_one : replayStore P (entries ++ [e]) start = e.effect P (replayStore P entries start) := by
  rw [replayStore, foldl_append]
  rfl

theorem StoreEntry.standsAt_of_stands (h : e.stands voids) (n : Nat) : e.standsAt voids n := by
  rw [StoreEntry.standsAt, List.all_eq_true]
  intro v hv
  rw [StoreEntry.stands, List.all_eq_true] at h
  rw [or_eq_true]
  exact Or.inl (h v hv)

theorem StoreEntry.stands_of_owner (h : ∀ v ∈ voids, e.owner ≠ some v.1) : e.stands voids := by
  rw [StoreEntry.stands, List.all_eq_true]
  exact fun v hv => decide_eq_true (h v hv)

theorem Shows.later (h : Shows P start entries voids n content) (hlater : e.writtenBy n = false) :
    Shows P start (entries ++ [e]) voids n content := by
  obtain ⟨part, hsub, hall, hcontent⟩ := h
  refine ⟨part, ?_, ?_, hcontent⟩
  · rw [filter_append]
    exact hsub.trans (sublist_append_left _ _)
  · intro e' hmem hwritten
    rw [filter_append, mem_append] at hmem
    rcases hmem with hmem | hmem
    · exact hall e' hmem hwritten
    · rw [mem_singleton.mp (mem_of_mem_filter hmem), hlater] at hwritten
      cases hwritten

theorem Shows.unchanged (h : Shows P start entries voids n content) (hstands : e.stands voids)
    (heffect : e.effect P content = content) :
    Shows P start (entries ++ [e]) voids n content := by
  obtain ⟨part, hsub, hall, hcontent⟩ := h
  refine ⟨part ++ [e], ?_, ?_, ?_⟩
  · rw [filter_append, filter_cons_of_pos (StoreEntry.standsAt_of_stands hstands n)]
    exact hsub.append (List.Sublist.refl _)
  · intro e' hmem hwritten
    rw [filter_append, mem_append] at hmem
    rcases hmem with hmem | hmem
    · exact mem_append_left _ (hall e' hmem hwritten)
    · exact mem_append_right _ (mem_of_mem_filter hmem)
  · rw [replayStore_append_one, ← hcontent, heffect]

theorem Shows.void (h : Shows P start entries voids n content) (hlater : n < m) :
    Shows P start entries ((id, m) :: voids) n content := by
  obtain ⟨part, hsub, hall, hcontent⟩ := h
  refine ⟨part, ?_, ?_, hcontent⟩
  · have hsame : ∀ e : StoreEntry Raw Slots Auth,
        e.standsAt ((id, m) :: voids) n = e.standsAt voids n := by
      intro e
      rw [StoreEntry.standsAt, all_cons]
      simp [hlater, StoreEntry.standsAt]
    simpa only [hsame] using hsub
  · intro e hmem hwritten
    refine hall e ?_ hwritten
    rw [mem_filter] at hmem ⊢
    refine ⟨hmem.1, ?_⟩
    have hstands := hmem.2
    rw [StoreEntry.stands, all_cons, and_eq_true] at hstands
    exact hstands.2

theorem filter_standsAt_void (hempty : ∀ e ∈ entries, e.owner ≠ some id) :
    entries.filter (·.standsAt ((id, 0) :: voids) n) = entries.filter (·.standsAt voids n) := by
  apply filter_congr
  intro e he
  simp [StoreEntry.standsAt, hempty e he]

theorem filter_stands_void (hempty : ∀ e ∈ entries, e.owner ≠ some id) :
    entries.filter (·.stands ((id, m) :: voids)) = entries.filter (·.stands voids) := by
  apply filter_congr
  intro e he
  simp [StoreEntry.stands, hempty e he]

theorem Shows.voidEmpty (h : Shows P start entries voids n content)
    (hempty : ∀ e ∈ entries, e.owner ≠ some id) :
    Shows P start entries ((id, 0) :: voids) n content := by
  obtain ⟨part, hsub, hall, hcontent⟩ := h
  refine ⟨part, ?_, ?_, hcontent⟩
  · rw [filter_standsAt_void hempty]
    exact hsub
  · rw [filter_stands_void hempty]
    exact hall

theorem Shows.all (hcontent : content = replayStore P (entries.filter (·.stands voids)) start) (n : Nat) :
    Shows P start entries voids n content :=
  ⟨_, monotone_filter_right _ fun _ h => StoreEntry.standsAt_of_stands h n,
    fun _ hmem _ => hmem, hcontent⟩

/-! ## The invariant -/

def StoreState.liveWithout (s : StoreState Raw Slots Auth) (id : Nat) :
    List (StoreEntry Raw Slots Auth) :=
  s.live.filter (·.owner ≠ some id)

variable (P) in
structure StoreInv (s : StoreState Raw Slots Auth) : Prop where
  memory : s.data.content = replayStore P s.live s.start
  file : Shows P s.start s.entries s.voids s.landed s.file.content
  payloads : ∀ n payload rollback, .writing n payload rollback ∈ s.tasks → s.landed < n →
    Shows P s.start s.entries s.voids n payload.content
  numbers : ∀ n payload rollback, .writing n payload rollback ∈ s.tasks → n ≤ s.writes
  landed : s.landed ≤ s.writes
  written : ∀ n, .written n ∈ s.tasks → n ≤ s.landed
  returned : ∀ n ∈ s.returned, n ≤ s.landed
  snapshots : ∀ tx ∈ s.txs, tx.isAlone = true →
    tx.snapshot.content = replayStore P (s.liveWithout tx.id) s.start
  ids : ∀ tx ∈ s.txs, tx.id < s.txCount
  owners : ∀ e ∈ s.entries, ∀ id, e.owner = some id → id < s.txCount
  voids : ∀ v ∈ s.voids, v.1 < s.txCount ∧ s.isOpen v.1 = false
  rollbacks : ∀ n payload id, .writing n payload (some id) ∈ s.tasks → ∃ v ∈ s.voids, v.1 = id
  schemaData : storeFileSchema P s.data.content = true
  schemaFile : storeFileSchema P s.file.content = true
  schemaPayloads : ∀ n payload rollback, .writing n payload rollback ∈ s.tasks →
    storeFileSchema P payload.content = true
  schemaSnapshots : ∀ tx ∈ s.txs, storeFileSchema P tx.snapshot.content = true

variable {s s' : StoreState Raw Slots Auth}

theorem StoreInv.durable (h : StoreInv P s) : StoreDurable P s where
  memory := h.memory
  file := by
    obtain ⟨part, hsub, hall, hcontent⟩ := h.file
    refine ⟨part, hsub, fun e hmem hacked => hall e hmem ?_, hcontent⟩
    cases hnumber : e.number with
    | none => simp [StoreEntry.writtenBy, hnumber]
    | some n =>
      have hreturned : n ∈ s.returned := by simpa [StoreState.acked, hnumber] using hacked
      simpa [StoreEntry.writtenBy, hnumber] using h.returned n hreturned
  opens := h.schemaFile

theorem StoreInv.init [DecidableEq Auth] (h : (storeMachine P).init s) : StoreInv P s := by
  obtain ⟨hschema, hdata, hstart, -, htasks, htxs, hentries, hvoids, hreturned, hwrites, hlanded⟩ :=
    h
  have hlive : s.live = [] := by rw [StoreState.live, hentries]; rfl
  exact {
    memory := by rw [hlive, hstart, hdata]; rfl
    file := by
      apply Shows.all
      rw [hentries, hstart]
      rfl
    payloads := by simp [htasks]
    numbers := by simp [htasks]
    landed := by omega
    written := by simp [htasks]
    returned := by simp [hreturned]
    snapshots := by simp [htxs]
    ids := by simp [htxs]
    owners := by simp [hentries]
    voids := by simp [hvoids]
    rollbacks := by simp [htasks]
    schemaData := by rw [hdata]; exact hschema
    schemaFile := hschema
    schemaPayloads := by simp [htasks]
    schemaSnapshots := by simp [htxs] }

/-! ## Steps -/

theorem StoreInv.ofTasks {tasks : List (StoreTask Slots Auth)} (h : StoreInv P s)
    (htasks : ∀ task ∈ tasks, task ∈ s.tasks ∨ ∃ owner prepared, task = .hooked owner prepared) :
    StoreInv P { s with tasks } := by
  have hwriting : ∀ n payload rollback, .writing n payload rollback ∈ tasks →
      .writing n payload rollback ∈ s.tasks := by
    intro n payload rollback hmem
    rcases htasks _ hmem with hmem | ⟨owner, prepared, heq⟩
    · exact hmem
    · cases heq
  exact { h with
    payloads := fun n payload rollback hmem => h.payloads n payload rollback (hwriting _ _ _ hmem)
    numbers := fun n payload rollback hmem => h.numbers n payload rollback (hwriting _ _ _ hmem)
    written := by
      intro n hmem
      rcases htasks _ hmem with hmem | ⟨owner, prepared, heq⟩
      · exact h.written n hmem
      · cases heq
    rollbacks := fun n payload id hmem => h.rollbacks n payload id (hwriting _ _ _ hmem)
    schemaPayloads := fun n payload rollback hmem =>
      h.schemaPayloads n payload rollback (hwriting _ _ _ hmem) }

variable {tx : StoreTx Slots Auth} {world : StoreWorld} {i : Nat}

theorem StoreState.mem_disturb {owner : Option Nat} {txs : List (StoreTx Slots Auth)}
    (h : tx ∈ StoreState.disturb owner txs) :
    ∃ tx' ∈ txs, tx'.id = tx.id ∧ tx'.snapshot = tx.snapshot ∧
      (tx.isAlone = true → tx'.isAlone = true ∧ owner = some tx.id) := by
  obtain ⟨tx', hmem, rfl⟩ := List.mem_map.mp h
  refine ⟨tx', hmem, rfl, rfl, fun halone => ?_⟩
  simpa using halone

theorem StoreState.any_disturb (owner : Option Nat) (txs : List (StoreTx Slots Auth)) (id : Nat) :
    (StoreState.disturb owner txs).any (·.id = id) = txs.any (·.id = id) := by
  rw [StoreState.disturb, List.any_map]
  rfl

theorem StoreInv.stands (h : StoreInv P s) (howner : e.owner.all s.isOpen = true) :
    e.stands s.voids = true := by
  apply StoreEntry.stands_of_owner
  intro v hv heq
  rw [heq, all_some, (h.voids v hv).2] at howner
  cases howner

theorem StoreInv.liveWithout_append (hstands : e.stands s.voids = true)
    (howner : e.owner = some tx.id) :
    (({ s with entries := s.entries ++ [e] } : StoreState Raw Slots Auth).liveWithout tx.id) =
      s.liveWithout tx.id := by
  rw [StoreState.liveWithout, StoreState.live, filter_append,
    filter_cons_of_pos hstands, filter_append]
  simp [howner, StoreState.liveWithout, StoreState.live]

theorem StoreState.live_append (hstands : e.stands s.voids = true) :
    ({ s with entries := s.entries ++ [e] } : StoreState Raw Slots Auth).live = s.live ++ [e] := by
  rw [StoreState.live, filter_append, filter_cons_of_pos hstands]
  rfl

theorem StoreInv.snapshots_append (h : StoreInv P s) (hstands : e.stands s.voids = true) :
    ∀ tx ∈ StoreState.disturb e.owner s.txs, tx.isAlone = true → tx.snapshot.content =
      replayStore P (({ s with entries := s.entries ++ [e] } : StoreState Raw Slots Auth).liveWithout
        tx.id) s.start := by
  intro tx hmem halone
  obtain ⟨tx', hmem', hid, hsnapshot, hback⟩ := StoreState.mem_disturb hmem
  obtain ⟨halone', howner⟩ := hback halone
  rw [StoreInv.liveWithout_append hstands howner, ← hsnapshot, ← hid]
  exact h.snapshots tx' hmem' halone'

theorem StoreInv.owners_append (h : StoreInv P s) (howner : e.owner.all s.isOpen = true) :
    ∀ e' ∈ s.entries ++ [e], ∀ id, e'.owner = some id → id < s.txCount := by
  intro e' hmem id hid
  rcases mem_append.mp hmem with hmem | hmem
  · exact h.owners e' hmem id hid
  · rw [mem_singleton.mp hmem] at hid
    rw [hid, all_some] at howner
    obtain ⟨tx, hmem, htx⟩ := List.any_eq_true.mp howner
    exact of_decide_eq_true htx ▸ h.ids tx hmem

theorem StoreInv.idempotent (h : StoreInv P s) (howner : e.owner.all s.isOpen = true)
    (hdata : e.effect P s.data.content = s.data.content)
    (hfile : e.effect P s.file.content = s.file.content)
    (hpayloads : ∀ n payload rollback, .writing n payload rollback ∈ s.tasks →
      e.effect P payload.content = payload.content) :
    StoreInv P { s with
      txs := StoreState.disturb e.owner s.txs
      entries := s.entries ++ [e] } := by
  have hstands := h.stands howner
  exact { h with
    memory := by
      show s.data.content = replayStore P (({ s with entries := s.entries ++ [e] } :
        StoreState Raw Slots Auth).live) s.start
      rw [StoreState.live_append hstands, replayStore_append_one, ← h.memory, hdata]
    file := h.file.unchanged hstands hfile
    payloads := fun n payload rollback hmem hlater =>
      (h.payloads n payload rollback hmem hlater).unchanged hstands
        (hpayloads n payload rollback hmem)
    snapshots := h.snapshots_append hstands
    ids := by
      intro tx hmem
      obtain ⟨tx', hmem', hid, -⟩ := StoreState.mem_disturb hmem
      exact hid ▸ h.ids tx' hmem'
    owners := h.owners_append howner
    voids := fun v hv => ⟨(h.voids v hv).1, (StoreState.any_disturb _ _ _).trans (h.voids v hv).2⟩
    schemaSnapshots := by
      intro tx hmem
      obtain ⟨tx', hmem', -, hsnapshot, -⟩ := StoreState.mem_disturb hmem
      exact hsnapshot ▸ h.schemaSnapshots tx' hmem' }

theorem StoreInv.saved {data : StoreData Slots Auth} (h : StoreInv P s)
    (howner : e.owner.all s.isOpen = true) (hnumber : e.number = some (s.writes + 1))
    (hdata : e.effect P s.data.content = data.content)
    (hschema : storeFileSchema P data.content = true) :
    StoreInv P { s with
      data
      tasks := .writing (s.writes + 1) data none :: s.tasks
      txs := StoreState.disturb e.owner s.txs
      writes := s.writes + 1
      entries := s.entries ++ [e] } := by
  have hstands := h.stands howner
  have hlater : ∀ n, n ≤ s.writes → e.writtenBy n = false := by
    intro n hn
    simp only [StoreEntry.writtenBy, hnumber, all_some, decide_eq_false_iff_not]
    omega
  have hlive := StoreState.live_append hstands
  have hmemory : data.content = replayStore P (s.live ++ [e]) s.start := by
    rw [replayStore_append_one, ← h.memory, hdata]
  exact {
    memory := by
      show data.content = replayStore P (({ s with entries := s.entries ++ [e] } :
        StoreState Raw Slots Auth).live) s.start
      rw [hlive]
      exact hmemory
    file := h.file.later (hlater _ h.landed)
    payloads := by
      intro n payload rollback hmem hn
      rcases mem_cons.mp hmem with heq | hmem
      · cases heq
        exact Shows.all (hmemory.trans (by rw [← hlive]; rfl)) _
      · exact (h.payloads n payload rollback hmem hn).later
          (hlater n (h.numbers n payload rollback hmem))
    numbers := by
      intro n payload rollback hmem
      rcases mem_cons.mp hmem with heq | hmem
      · cases heq
        exact Nat.le_refl _
      · exact Nat.le_succ_of_le (h.numbers n payload rollback hmem)
    landed := Nat.le_succ_of_le h.landed
    written := by
      intro n hmem
      rcases mem_cons.mp hmem with heq | hmem
      · cases heq
      · exact h.written n hmem
    returned := h.returned
    snapshots := h.snapshots_append hstands
    ids := by
      intro tx hmem
      obtain ⟨tx', hmem', hid, -⟩ := StoreState.mem_disturb hmem
      exact hid ▸ h.ids tx' hmem'
    owners := h.owners_append howner
    voids := fun v hv => ⟨(h.voids v hv).1, (StoreState.any_disturb _ _ _).trans (h.voids v hv).2⟩
    rollbacks := by
      intro n payload id hmem
      rcases mem_cons.mp hmem with heq | hmem
      · cases heq
      · exact h.rollbacks n payload id hmem
    schemaData := hschema
    schemaFile := h.schemaFile
    schemaPayloads := by
      intro n payload rollback hmem
      rcases mem_cons.mp hmem with heq | hmem
      · cases heq
        exact hschema
      · exact h.schemaPayloads n payload rollback hmem
    schemaSnapshots := by
      intro tx hmem
      obtain ⟨tx', hmem', -, hsnapshot, -⟩ := StoreState.mem_disturb hmem
      exact hsnapshot ▸ h.schemaSnapshots tx' hmem' }

theorem StoreInv.enter [DecidableEq Auth] {owner : Option Nat} {op : StoreOp Raw Slots Auth}
    (h : StoreInv P s) (howner : owner.all s.isOpen = true) (horderly : s.EntersOrderly P world op) :
    StoreInv P (s.enter P owner world op) := by
  rw [StoreState.enter]
  rw [StoreState.EntersOrderly] at horderly
  cases hrun : op.run P world s.data.content with
  | error err => exact h
  | ok changed =>
    rw [hrun] at horderly
    cases changed with
    | none =>
      obtain ⟨hfile, hpayloads⟩ := horderly
      have hdata : (⟨none, owner, world, op⟩ : StoreEntry Raw Slots Auth).effect P
          s.data.content = s.data.content := by
        rw [StoreEntry.effect, hrun]
      exact h.idempotent (e := ⟨none, owner, world, op⟩) howner hdata hfile
        fun n payload rollback hmem => hpayloads _ hmem
    | some content =>
      obtain ⟨hschema, hsave⟩ := horderly
      show StoreInv P (s.save P owner world op content)
      rw [StoreState.save]
      cases hcheck : checkSave P world s.baseline content with
      | error err =>
        -- it is refused, but had changed nothing
        have hsame : content = s.data.content := by
          rcases hsave with hok | hsame
          · rw [hcheck] at hok
            cases hok
          · exact hsame
        subst hsame
        exact h
      | ok u =>
        have hdata : (⟨some (s.writes + 1), owner, world, op⟩ :
            StoreEntry Raw Slots Auth).effect P s.data.content = content := by
          rw [StoreEntry.effect, hrun]
        exact h.saved (e := ⟨some (s.writes + 1), owner, world, op⟩) howner rfl hdata hschema

theorem StoreState.live_void (s : StoreState Raw Slots Auth) (id m : Nat) :
    s.entries.filter (·.stands ((id, m) :: s.voids)) = s.liveWithout id := by
  rw [StoreState.liveWithout, StoreState.live, List.filter_filter]
  rfl

theorem StoreInv.closed (h : StoreInv P s) (hmem : tx ∈ s.txs) :
    ∀ v ∈ (tx.id, m) :: s.voids, v.1 < s.txCount ∧
      (StoreState.disturb none (s.txs.filter (·.id ≠ tx.id))).any (·.id = v.1) = false := by
  intro v hv
  rw [StoreState.any_disturb]
  rcases mem_cons.mp hv with heq | hv
  · rw [heq]
    refine ⟨h.ids tx hmem, ?_⟩
    rw [List.any_eq_false]
    intro tx' hmem'
    simpa using (mem_filter.mp hmem').2
  · refine ⟨(h.voids v hv).1, ?_⟩
    rw [List.any_eq_false]
    intro tx' hmem'
    exact List.any_eq_false.mp (h.voids v hv).2 tx' (mem_of_mem_filter hmem')

theorem StoreInv.mem_left {tx' : StoreTx Slots Auth}
    (h : tx' ∈ StoreState.disturb none (s.txs.filter (·.id ≠ tx.id))) :
    tx'.isAlone = false ∧ ∃ tx'' ∈ s.txs, tx''.id = tx'.id ∧ tx''.snapshot = tx'.snapshot := by
  obtain ⟨tx'', hmem, hid, hsnapshot, hback⟩ := StoreState.mem_disturb h
  refine ⟨?_, tx'', mem_of_mem_filter hmem, hid, hsnapshot⟩
  cases halone : tx'.isAlone with
  | false => rfl
  | true => cases (hback halone).2

theorem StoreInv.rollback [DecidableEq Auth] (h : StoreInv P s) (hmem : tx ∈ s.txs)
    (halone : tx.isAlone = true)
    (hsave : checkSave P world s.baseline tx.snapshot.content = .ok () ∨ s.Empty tx.id) :
    StoreInv P (s.rollback P tx world) := by
  have hmemory : tx.snapshot.content = replayStore P (s.liveWithout tx.id) s.start :=
    h.snapshots tx hmem halone
  have hsnapshots : ∀ voids, ∀ tx' ∈ StoreState.disturb none (s.txs.filter (·.id ≠ tx.id)),
      tx'.isAlone = true → tx'.snapshot.content = replayStore P
        ((({ s with voids } : StoreState Raw Slots Auth)).liveWithout tx'.id) s.start := by
    intro voids tx' hmem' halone'
    rw [(StoreInv.mem_left hmem').1] at halone'
    cases halone'
  have hids : ∀ tx' ∈ StoreState.disturb none (s.txs.filter (·.id ≠ tx.id)),
      tx'.id < s.txCount := by
    intro tx' hmem'
    obtain ⟨tx'', hmem'', hid, -⟩ := (StoreInv.mem_left hmem').2
    exact hid ▸ h.ids tx'' hmem''
  have hschemas : ∀ tx' ∈ StoreState.disturb none (s.txs.filter (·.id ≠ tx.id)),
      storeFileSchema P tx'.snapshot.content = true := by
    intro tx' hmem'
    obtain ⟨tx'', hmem'', -, hsnapshot⟩ := (StoreInv.mem_left hmem').2
    exact hsnapshot ▸ h.schemaSnapshots tx'' hmem''
  rw [StoreState.rollback]
  cases hcheck : checkSave P world s.baseline tx.snapshot.content with
  | error err =>
    -- it is not written, but there is nothing to write
    have hempty : s.Empty tx.id := by
      rcases hsave with hok | hempty
      · rw [hcheck] at hok
        cases hok
      · exact hempty
    exact { h with
      memory := by
        show tx.snapshot.content = replayStore P (s.entries.filter (·.stands ((tx.id, 0) :: s.voids)))
          s.start
        rw [StoreState.live_void]
        exact hmemory
      file := h.file.voidEmpty hempty
      payloads := fun n payload rollback hmem hn =>
        (h.payloads n payload rollback hmem hn).voidEmpty hempty
      snapshots := hsnapshots _
      ids := hids
      voids := h.closed hmem
      rollbacks := fun n payload id hmem =>
        have ⟨v, hv, hid⟩ := h.rollbacks n payload id hmem
        ⟨v, mem_cons_of_mem _ hv, hid⟩
      schemaData := h.schemaSnapshots tx hmem
      schemaSnapshots := hschemas }
  | ok u =>
    exact {
      memory := by
        show tx.snapshot.content = replayStore P
          (s.entries.filter (·.stands ((tx.id, s.writes + 1) :: s.voids))) s.start
        rw [StoreState.live_void]
        exact hmemory
      file := h.file.void (Nat.lt_succ_of_le h.landed)
      payloads := by
        intro n payload rollback hmem' hn
        rcases mem_cons.mp hmem' with heq | hmem'
        · cases heq
          refine Shows.all ?_ _
          rw [StoreState.live_void]
          exact hmemory
        · exact (h.payloads n payload rollback hmem' hn).void
            (Nat.lt_succ_of_le (h.numbers n payload rollback hmem'))
      numbers := by
        intro n payload rollback hmem'
        rcases mem_cons.mp hmem' with heq | hmem'
        · cases heq
          exact Nat.le_refl _
        · exact Nat.le_succ_of_le (h.numbers n payload rollback hmem')
      landed := Nat.le_succ_of_le h.landed
      written := by
        intro n hmem'
        rcases mem_cons.mp hmem' with heq | hmem'
        · cases heq
        · exact h.written n hmem'
      returned := h.returned
      snapshots := hsnapshots _
      ids := hids
      owners := h.owners
      voids := h.closed hmem
      rollbacks := by
        intro n payload id hmem'
        rcases mem_cons.mp hmem' with heq | hmem'
        · cases heq
          exact ⟨_, mem_cons_self, rfl⟩
        · obtain ⟨v, hv, hid⟩ := h.rollbacks n payload id hmem'
          exact ⟨v, mem_cons_of_mem _ hv, hid⟩
      schemaData := h.schemaSnapshots tx hmem
      schemaFile := h.schemaFile
      schemaPayloads := by
        intro n payload rollback hmem'
        rcases mem_cons.mp hmem' with heq | hmem'
        · cases heq
          exact h.schemaSnapshots tx hmem
        · exact h.schemaPayloads n payload rollback hmem'
      schemaSnapshots := hschemas }

theorem StoreInv.land {payload : StoreData Slots Auth} {rollback : Option Nat} (h : StoreInv P s)
    (hmem : .writing n payload rollback ∈ s.tasks) (hlater : s.landed < n) :
    StoreInv P { s with file := payload, tasks := s.tasks.set i (.written n), landed := n } := by
  have hcases : ∀ task ∈ s.tasks.set i (.written n), task ∈ s.tasks ∨ task = .written n :=
    fun task => mem_or_eq_of_mem_set
  have hwriting : ∀ k payload rollback, .writing k payload rollback ∈ s.tasks.set i (.written n) →
      .writing k payload rollback ∈ s.tasks := by
    intro k payload rollback hmem
    rcases hcases _ hmem with hmem | heq
    · exact hmem
    · cases heq
  exact { h with
    file := h.payloads n payload rollback hmem hlater
    payloads := fun k payload rollback hmem hn =>
      h.payloads k payload rollback (hwriting k payload rollback hmem) (Nat.lt_trans hlater hn)
    numbers := fun k payload rollback hmem =>
      h.numbers k payload rollback (hwriting k payload rollback hmem)
    landed := h.numbers n payload rollback hmem
    written := by
      intro k hmem
      rcases hcases _ hmem with hmem | heq
      · exact Nat.le_trans (h.written k hmem) (Nat.le_of_lt hlater)
      · cases heq
        exact Nat.le_refl _
    returned := fun k hk => Nat.le_trans (h.returned k hk) (Nat.le_of_lt hlater)
    rollbacks := fun k payload id hmem =>
      h.rollbacks k payload id (hwriting k payload (some id) hmem)
    schemaFile := h.schemaPayloads n payload rollback hmem
    schemaPayloads := fun k payload rollback hmem =>
      h.schemaPayloads k payload rollback (hwriting k payload rollback hmem) }

theorem StoreInv.failEmpty {payload : StoreData Slots Auth} (h : StoreInv P s)
    (hmem : .writing n payload (some id) ∈ s.tasks) (hempty : s.Empty id) :
    StoreInv P { s with tasks := s.tasks.eraseIdx i, voids := (id, 0) :: s.voids } := by
  have hleft : StoreInv P { s with tasks := s.tasks.eraseIdx i } :=
    h.ofTasks fun task htask => Or.inl (mem_of_mem_eraseIdx htask)
  have hlive : s.entries.filter (·.stands ((id, 0) :: s.voids)) = s.live :=
    filter_stands_void hempty
  exact { hleft with
    memory := by
      show s.data.content = replayStore P (s.entries.filter (·.stands ((id, 0) :: s.voids))) s.start
      rw [hlive]
      exact h.memory
    file := h.file.voidEmpty hempty
    payloads := fun k payload rollback hmem hn =>
      (hleft.payloads k payload rollback hmem hn).voidEmpty hempty
    snapshots := by
      intro tx hmem halone
      show tx.snapshot.content = replayStore P ((s.entries.filter
        (·.stands ((id, 0) :: s.voids))).filter (·.owner ≠ some tx.id)) s.start
      rw [hlive]
      exact h.snapshots tx hmem halone
    voids := by
      intro v hv
      rcases mem_cons.mp hv with heq | hv
      · obtain ⟨v', hv', hid⟩ := h.rollbacks n payload id hmem
        have := h.voids v' hv'
        rw [hid] at this
        rw [heq]
        exact this
      · exact h.voids v hv
    rollbacks := fun k payload id hmem =>
      have ⟨v, hv, hid⟩ := hleft.rollbacks k payload id hmem
      ⟨v, mem_cons_of_mem _ hv, hid⟩ }

theorem StoreInv.finish (h : StoreInv P s) (hmem : .written n ∈ s.tasks) :
    StoreInv P { s with
      baseline := persistedEnabled s.data.content.services
      tasks := s.tasks.eraseIdx i
      returned := n :: s.returned } := by
  have hleft : StoreInv P { s with tasks := s.tasks.eraseIdx i } :=
    h.ofTasks fun task htask => Or.inl (mem_of_mem_eraseIdx htask)
  exact { hleft with
    returned := by
      intro k hk
      rcases mem_cons.mp hk with heq | hk
      · exact heq ▸ h.written n hmem
      · exact h.returned k hk }

theorem StoreInv.begin (h : StoreInv P s) :
    StoreInv P { s with
      txs := ⟨s.txCount, s.data, true⟩ :: s.txs
      txCount := s.txCount + 1 } := by
  have hnone : s.liveWithout s.txCount = s.live := by
    rw [StoreState.liveWithout, filter_eq_self]
    intro e he
    have howner : e.owner ≠ some s.txCount := fun heq =>
      Nat.lt_irrefl _ (h.owners e (mem_of_mem_filter he) _ heq)
    exact decide_eq_true howner
  exact { h with
    snapshots := by
      intro tx hmem halone
      rcases mem_cons.mp hmem with heq | hmem
      · rw [heq]
        exact h.memory.trans (by rw [← hnone]; rfl)
      · exact h.snapshots tx hmem halone
    ids := by
      intro tx hmem
      rcases mem_cons.mp hmem with heq | hmem
      · rw [heq]
        exact Nat.lt_succ_self _
      · exact Nat.lt_succ_of_lt (h.ids tx hmem)
    owners := fun e he id hid => Nat.lt_succ_of_lt (h.owners e he id hid)
    voids := by
      intro v hv
      obtain ⟨hlt, hclosed⟩ := h.voids v hv
      refine ⟨Nat.lt_succ_of_lt hlt, ?_⟩
      show (_ :: s.txs).any _ = false
      rw [any_cons, or_eq_false_iff]
      exact ⟨decide_eq_false (Nat.ne_of_gt hlt), hclosed⟩
    schemaSnapshots := by
      intro tx hmem
      rcases mem_cons.mp hmem with heq | hmem
      · exact heq ▸ h.schemaData
      · exact h.schemaSnapshots tx hmem }

theorem StoreInv.commit (h : StoreInv P s) (id : Nat) :
    StoreInv P { s with txs := s.txs.filter (·.id ≠ id) } :=
  { h with
    snapshots := fun tx hmem => h.snapshots tx (mem_of_mem_filter hmem)
    ids := fun tx hmem => h.ids tx (mem_of_mem_filter hmem)
    voids := by
      intro v hv
      refine ⟨(h.voids v hv).1, ?_⟩
      show (s.txs.filter _).any _ = false
      rw [List.any_eq_false]
      exact fun tx hmem =>
        List.any_eq_false.mp (h.voids v hv).2 tx (mem_of_mem_filter hmem)
    schemaSnapshots := fun tx hmem => h.schemaSnapshots tx (mem_of_mem_filter hmem) }

theorem StoreState.EntersOrderly.ofTasks [DecidableEq Auth] {op : StoreOp Raw Slots Auth}
    {tasks : List (StoreTask Slots Auth)} (h : s.EntersOrderly P world op)
    (htasks : ∀ task ∈ tasks, task ∈ s.tasks) :
    ({ s with tasks } : StoreState Raw Slots Auth).EntersOrderly P world op := by
  unfold StoreState.EntersOrderly at h ⊢
  cases hrun : op.run P world s.data.content with
  | error err => trivial
  | ok changed =>
    simp only [hrun] at h ⊢
    cases changed with
    | none => exact ⟨h.1, fun task hmem => h.2 task (htasks task hmem)⟩
    | some content => exact h

theorem StoreInv.step [DecidableEq Auth] {l : StoreLabel Raw Slots Auth} (h : StoreInv P s)
    (horderly : Orderly P s l) (hstep : (storeMachine P).step s l = some s') : StoreInv P s' := by
  have hstep : s.step P l = some s' := hstep
  cases l with
  | call owner world op =>
    simp only [StoreState.step] at hstep
    split at hstep
    · next howner =>
      split at hstep
      · cases hstep
      · next input serviceId =>
        split at hstep
        · next hhooks =>
          split at hstep
          · cases hstep
            exact h
          · next prepared hcheck =>
            cases hstep
            refine h.ofTasks fun task htask => ?_
            rcases mem_cons.mp htask with heq | htask
            · exact Or.inr ⟨owner, prepared, heq⟩
            · exact Or.inl htask
        · next hhooks =>
          cases hstep
          exact h.enter howner (horderly (eq_false_iff.mpr hhooks))
      · next hpush hadd =>
        cases hstep
        refine h.enter howner ?_
        cases op with
        | addService input serviceId => exact (hadd input serviceId rfl).elim
        | _ => exact horderly rfl
    · cases hstep
  | hooks i world serviceId =>
    simp only [StoreState.step] at hstep
    split at hstep
    · next owner prepared htask =>
      cases hstep
      have hleft : StoreInv P { s with tasks := s.tasks.eraseIdx i } :=
        h.ofTasks fun task htask => Or.inl (mem_of_mem_eraseIdx htask)
      refine hleft.enter ?_ ?_
      · cases owner with
        | none => rfl
        | some id =>
          show ((some id).filter s.isOpen).all s.isOpen = true
          rw [Option.all_filter]
          cases s.isOpen id <;> simp
      · have henters : s.EntersOrderly P world (.pushService prepared serviceId) :=
          horderly _ htask
        exact henters.ofTasks fun task hmem => mem_of_mem_eraseIdx hmem
    · cases hstep
  | land i =>
    simp only [StoreState.step] at hstep
    split at hstep
    · next number payload rollback htask =>
      cases hstep
      exact h.land (mem_of_getElem? htask) (horderly _ htask)
    · cases hstep
  | fail i =>
    simp only [StoreState.step] at hstep
    split at hstep
    · next number payload htask => exact (horderly _ htask).elim
    · next number payload id htask =>
      cases hstep
      exact h.failEmpty (mem_of_getElem? htask) (horderly _ htask)
    · cases hstep
  | finish i =>
    simp only [StoreState.step] at hstep
    split at hstep
    · next number htask =>
      cases hstep
      exact h.finish (mem_of_getElem? htask)
    · cases hstep
  | begin =>
    cases hstep
    exact h.begin
  | commit id =>
    simp only [StoreState.step] at hstep
    split at hstep
    · cases hstep
      exact h.commit id
    · cases hstep
  | abort id world =>
    simp only [StoreState.step] at hstep
    split at hstep
    · next tx htx =>
      cases hstep
      obtain ⟨halone, hsave⟩ := horderly tx htx
      have hid : tx.id = id := by simpa using find?_some htx
      exact h.rollback (mem_of_find?_eq_some htx) halone (hid ▸ hsave)
    · cases hstep

/-- **Atomicity of the store**: over every interleaving whose steps are orderly. -/
theorem store_durable [DecidableEq Auth] (P : StorePlatform Raw Slots Auth)
    (s : StoreState Raw Slots Auth) (h : (storeMachine P).ReachableUnder (Orderly P) s) :
    StoreDurable P s :=
  (h.invariant (I := StoreInv P) (fun _ hinit => StoreInv.init hinit)
    (fun _ _ _ hinv horderly hstep => hinv.step horderly hstep)).durable

end

/-! ## A store with one key -/

namespace SampleStore

def platform : StorePlatform Unit Unit Unit where
  normalizeSlots _ := .ok ((), none)
  serviceSchema _ := true
  hashKeyMaterial _ := String.ofList (List.replicate 64 'a')

def world : StoreWorld := ⟨fun _ => false, fun _ => false⟩

def data : StoreData Unit Unit where
  revision := 3
  content := {
    services := []
    groups := [⟨"team", [], none⟩]
    keys := [⟨"k1", "team", String.ofList (List.replicate 64 'a'), some "default",
      some "sk-aifly-1", 7, none⟩]
    metaAlias := none }

def start : StoreState Unit Unit Unit where
  data := data
  file := data
  baseline := persistedEnabled data.content.services
  tasks := []
  txs := []
  txCount := 0
  writes := 0
  landed := 0
  start := data.content
  entries := []
  voids := []
  returned := []

theorem init_start : (storeMachine platform).init start :=
  ⟨by decide +kernel, rfl, rfl, rfl, rfl, rfl, rfl, rfl, rfl, rfl, rfl⟩

theorem revoked_for_good : ∃ s, StoreDurable platform s ∧
    s.file.content.keys.map ProviderKey.revokedAt = [some 8] ∧ s.file.content.metaAlias = none := by
  have hrun : ((storeMachine platform).runUnder (Orderly platform) start
      [.call none world (.revokeKey "k1" 8), .land 0, .finish 0, .begin,
        .call (some 0) world (.setAlias "home"), .land 0, .finish 0, .abort 0 world, .land 0,
        .finish 0, .call none world (.revokeKey "k1" 9)]).any
      (fun s => s.file.content.keys.map ProviderKey.revokedAt = [some 8] &&
        s.file.content.metaAlias = none) = true := by decide +kernel
  obtain ⟨s, hreach, hs⟩ := Machine.exists_reachableUnder init_start hrun
  simp only [and_eq_true, decide_eq_true_eq] at hs
  exact ⟨s, store_durable platform s hreach, hs⟩

/-- **The write of a revocation fails**, and the revocation that follows finds nothing to do: it
is acknowledged, and the key is not revoked on disk. -/
theorem revoked_twice : ∃ s, (storeMachine platform).Reachable s ∧ ¬ StoreDurable platform s ∧
    s.data.content.keys.map ProviderKey.revokedAt = [some 8] ∧
    s.file.content.keys.map ProviderKey.revokedAt = [none] ∧ s.entries.all s.acked = true ∧
    s.entries.length = 1 := by
  have hrun : ((storeMachine platform).runUnder (fun _ _ => True) start
      [.call none world (.revokeKey "k1" 8), .fail 0, .call none world (.revokeKey "k1" 9)]).any
      (fun s => s.data.content ≠ replayStore platform s.live s.start &&
        s.data.content.keys.map ProviderKey.revokedAt = [some 8] &&
        s.file.content.keys.map ProviderKey.revokedAt = [none] && s.entries.all s.acked &&
        s.entries.length = 1) = true := by decide +kernel
  obtain ⟨s, hreach, hs⟩ := Machine.exists_reachableUnder init_start hrun
  simp only [and_eq_true, decide_eq_true_eq] at hs
  obtain ⟨⟨⟨⟨hmemory, hkeys⟩, hfile⟩, hacked⟩, hone⟩ := hs
  exact ⟨s, hreach, fun hdurable => hmemory hdurable.memory, hkeys, hfile, hacked, hone⟩

end SampleStore

end Dweb
