import OpenDweb.Lib.Machine
import OpenDweb.Server.Registry

/-!
# OpenDweb — what is known of an owner stays known

A line of the owner ledger carries everything known of its owner, and the last line counts. An
operation that edits one field has to write the others again, or they are lost when the file is
read the next time.

* **`OwnerRegistry.Edits`** — one line, in the file and in memory.
* **`metadataRuns`** — registrations through codes, renewals, edits, removals, reloads and
  restarts, with any end of every append.
* **`MetadataOp.Kept`** — what each operation leaves of an entry.
* **`owner_metadata_kept`** — every operation does, and a reload or restart gives back what
  memory had.
-/

namespace Dweb

open Std (ExtTreeMap)
open Option

/-! ## One line -/

def placeEntry (k : OwnerKey) (v : Option EntryMeta) (m : ExtTreeMap OwnerKey EntryMeta) :
    ExtTreeMap OwnerKey EntryMeta :=
  match v with
  | some e => m.insert k e
  | none => m.erase k

theorem getElem?_placeEntry (k k' : OwnerKey) (v : Option EntryMeta)
    (m : ExtTreeMap OwnerKey EntryMeta) :
    (placeEntry k v m)[k']? = if k = k' then v else m[k']? := by
  cases v with
  | none =>
    show (m.erase k)[k']? = _
    rw [ExtTreeMap.getElem?_erase]
    simp only [Std.compare_eq_iff_eq]
  | some e =>
    show (m.insert k e)[k']? = _
    rw [ExtTreeMap.getElem?_insert]
    simp only [Std.compare_eq_iff_eq]

def OwnerRecord.entry (record : OwnerRecord) : Option EntryMeta :=
  match record.op with
  | .register => some {
      registeredAt := record.firstRegisteredAt.getD record.ts
      expiresAt := record.expiresAt
      aliasName := record.aliasName
      note := record.note }
  | .unregister => none

namespace OwnerRegistry

variable {s s' : OwnerRegistry} {k k' : OwnerKey} {o : Landing}

def entryOf (s : OwnerRegistry) (k : OwnerKey) : Option EntryMeta := s.current.active[k]?

/-- One line about `k` is appended, and memory moves if that is acknowledged. -/
structure Edits (s : OwnerRegistry) (k : OwnerKey) (v : Option EntryMeta) (o : Landing)
    (s' : OwnerRegistry) : Prop where
  file : ∀ snap, loadActive s.file = .ok snap → ∃ snap', loadActive s'.file = .ok snap' ∧
    ∀ k' : OwnerKey, snap'.active[k']? = if o.lands = true ∧ k = k' then v else snap.active[k']?
  memory : ∀ k', s'.entryOf k' = if o = .ok ∧ k = k' then v else s.entryOf k'

theorem edits_of_onto {record : OwnerRecord} {v : Option EntryMeta}
    (hfile : s'.file = o.onto s.file record)
    (hstep : ∀ snap n, ∃ snap', loadStep snap (n, record) = .ok snap' ∧
      snap'.active = placeEntry k v snap.active)
    (hmemory : s'.current.active =
      if o = .ok then placeEntry k v s.current.active else s.current.active) :
    s.Edits k v o s' where
  file snap hsnap := by
    rw [hfile, Landing.onto_eq]
    cases o.lands with
    | false => exact ⟨snap, hsnap, fun k' => by simp⟩
    | true =>
      obtain ⟨snap', hload, hactive⟩ := hstep snap (s.file.length + 1)
      refine ⟨snap', (replay_snoc hsnap record).trans hload, fun k' => ?_⟩
      rw [hactive, getElem?_placeEntry]
      simp only [true_and]
  memory k' := by
    rw [entryOf, hmemory]
    by_cases ho : o = .ok
    · rw [if_pos ho, getElem?_placeEntry]
      simp only [ho, true_and]
      rfl
    · rw [if_neg ho, if_neg fun h => ho h.1]
      rfl

theorem edits_upsertLocked (s : OwnerRegistry) (k : OwnerKey)
    (expiresAt : Option (Option UInt64)) (aliasName note : Option (Option String))
    (viaCodeHash : Option (BytesN 32)) (now : UInt64) (o : Landing) :
    s.Edits k
      (s.upsertRecord k.fabricId k.root expiresAt aliasName note viaCodeHash now).entry o
      (s.upsertLocked k.fabricId k.root expiresAt aliasName note viaCodeHash now o).1 := by
  refine edits_of_onto (upsertLocked_file ..) (fun snap n => ?_) ?_
  · simp only [loadStep, upsertRecord, parseAt_encodeKey]
    cases viaCodeHash with
    | none => exact ⟨_, rfl, rfl⟩
    | some hash =>
      simp only [map_some, parseAt_hexStr]
      exact ⟨_, rfl, rfl⟩
  · cases o with
    | ok => rfl
    | failed e kept => rfl

theorem edits_unregister (s : OwnerRegistry) (k : OwnerKey) (now : UInt64) (o : Landing) :
    s.Edits k none o (s.unregister k.fabricId k.root now o).1 := by
  refine edits_of_onto (apply_file ..) (fun snap n => ?_) ?_
  · simp only [loadStep, parseAt_encodeKey]
    exact ⟨_, rfl, rfl⟩
  · cases o with
    | ok => rfl
    | failed e kept => rfl

theorem entry_upsertRecord {e : EntryMeta} (he : s.entryOf k = some e)
    (expiresAt : Option (Option UInt64)) (aliasName note : Option (Option String))
    (viaCodeHash : Option (BytesN 32)) (now : UInt64) :
    (s.upsertRecord k.fabricId k.root expiresAt aliasName note viaCodeHash now).entry = some {
      registeredAt := e.registeredAt
      expiresAt := expiresAt.getD e.expiresAt
      aliasName := aliasName.getD e.aliasName
      note := note.getD e.note } := by
  have hentry : s.current.active[(⟨k.fabricId, k.root⟩ : OwnerKey)]? = some e := he
  simp only [OwnerRecord.entry, upsertRecord, hentry, map_some, getD_some]

end OwnerRegistry

/-! ## The machine -/

/-- The registry, and the owners whose last line is in the file though its append failed. -/
structure MetadataState where
  registry : OwnerRegistry
  doubtful : List OwnerKey

namespace MetadataState

def entryOf (s : MetadataState) (k : OwnerKey) : Option EntryMeta := s.registry.entryOf k

/-- The doubtful owners after an append of a line about `k`. -/
def settle (k : OwnerKey) (o : Landing) (doubtful : List OwnerKey) : List OwnerKey :=
  if o = .ok then doubtful.filter (· ≠ k) else if o.lands then k :: doubtful else doubtful

end MetadataState

inductive MetadataOp where
  | registerViaCode (key : RedeemKey) (expiresAt : Option UInt64) (aliasCandidate : Option String)
      (now : UInt64) (o : Landing)
  | renew (k : OwnerKey) (expiresAt : Option UInt64) (now : UInt64) (o : Landing)
  | updateMetadata (k : OwnerKey) (aliasName note : Option String) (now : UInt64) (o : Landing)
  | unregister (k : OwnerKey) (now : UInt64) (o : Landing)
  | reload
  | restart

open MetadataState in
def metadataStep (s : MetadataState) : MetadataOp → Option MetadataState
  | .registerViaCode key expiresAt aliasCandidate now o =>
    some ⟨(s.registry.registerViaCode key.owner.fabricId key.owner.root expiresAt key.codeHash
      aliasCandidate now o).1, settle key.owner o s.doubtful⟩
  | .renew k expiresAt now o =>
    some ⟨(s.registry.renew k.fabricId k.root expiresAt now o).1,
      if s.registry.current.active.contains k then settle k o s.doubtful else s.doubtful⟩
  | .updateMetadata k aliasName note now o =>
    some ⟨(s.registry.updateMetadata k.fabricId k.root aliasName note now o).1,
      if s.registry.current.active.contains k then settle k o s.doubtful else s.doubtful⟩
  | .unregister k now o =>
    some ⟨(s.registry.unregister k.fabricId k.root now o).1, settle k o s.doubtful⟩
  | .reload =>
    match s.registry.reload with
    | (registry, .ok ()) => some ⟨registry, []⟩
    | (registry, .error _) => some ⟨registry, s.doubtful⟩
  | .restart =>
    match OwnerRegistry.load s.registry.file with
    | .ok registry => some ⟨registry, []⟩
    | .error _ => none

def metadataRuns : Machine MetadataState MetadataOp where
  init s := OwnerRegistry.load s.registry.file = .ok s.registry ∧ s.doubtful = []
  step := metadataStep

/-! ## What an operation leaves -/

/-- What an operation leaves of the entry `e` of an owner that is still registered with `e'`. -/
def MetadataOp.Kept (e e' : EntryMeta) : MetadataOp → Prop
  | registerViaCode _ _ _ _ _ =>
    e'.registeredAt = e.registeredAt ∧ e'.note = e.note ∧
      (e.aliasName ≠ none → e'.aliasName = e.aliasName)
  | renew _ _ _ _ =>
    e'.registeredAt = e.registeredAt ∧ e'.note = e.note ∧ e'.aliasName = e.aliasName
  | updateMetadata _ _ _ _ _ => e'.registeredAt = e.registeredAt ∧ e'.expiresAt = e.expiresAt
  | unregister _ _ _ => e' = e
  | reload => e' = e
  | restart => e' = e

theorem MetadataOp.Kept.of_eq {e e' : EntryMeta} (h : e' = e) (op : MetadataOp) :
    op.Kept e e' := by
  subst h
  cases op with
  | registerViaCode key expiresAt aliasCandidate now o => exact ⟨rfl, rfl, fun _ => rfl⟩
  | renew k expiresAt now o => exact ⟨rfl, rfl, rfl⟩
  | updateMetadata k aliasName note now o => exact ⟨rfl, rfl⟩
  | unregister k now o => rfl
  | reload => rfl
  | restart => rfl

theorem MetadataOp.Kept.registeredAt {e e' : EntryMeta} {op : MetadataOp} (h : op.Kept e e') :
    e'.registeredAt = e.registeredAt := by
  cases op with
  | registerViaCode key expiresAt aliasCandidate now o => exact h.1
  | renew k expiresAt now o => exact h.1
  | updateMetadata k aliasName note now o => exact h.1
  | unregister k now o => exact congrArg EntryMeta.registeredAt h
  | reload => exact congrArg EntryMeta.registeredAt h
  | restart => exact congrArg EntryMeta.registeredAt h

namespace MetadataState

variable {s s' : MetadataState} {k : OwnerKey} {op : MetadataOp} {e e' : EntryMeta}

/-- The file loads, to what memory has of every owner that is not doubtful. -/
def InStep (s : MetadataState) : Prop :=
  ∃ snap, OwnerRegistry.loadActive s.registry.file = .ok snap ∧
    ∀ k, k ∉ s.doubtful → snap.active[k]? = s.entryOf k

/-- What one operation does: it edits one owner, leaves everything, or reads the file. -/
inductive Stepped (s : MetadataState) (op : MetadataOp) : MetadataState → Prop where
  | edited {k : OwnerKey} {v : Option EntryMeta} {o : Landing} {registry : OwnerRegistry}
    (hedits : s.registry.Edits k v o registry)
    (hkept : ∀ e e', s.entryOf k = some e → v = some e' → op.Kept e e') :
    Stepped s op ⟨registry, settle k o s.doubtful⟩
  | unchanged : Stepped s op s
  | read {registry : OwnerRegistry} (hload : OwnerRegistry.load s.registry.file = .ok registry)
    (hop : op = .reload ∨ op = .restart) : Stepped s op ⟨registry, []⟩

theorem stepped_of_step (h : metadataStep s op = some s') : Stepped s op s' := by
  cases op with
  | registerViaCode key expiresAt aliasCandidate now o =>
    cases h
    refine .edited (OwnerRegistry.edits_upsertLocked s.registry key.owner _ _ _ _ now o) ?_
    intro e e' he he'
    rw [OwnerRegistry.entry_upsertRecord he] at he'
    cases he'
    refine ⟨rfl, rfl, fun halias => ?_⟩
    -- the alias that is there is not written
    have hany : (s.registry.current.active[key.owner]?).any (fun e => e.aliasName.isSome) =
        true := by
      rw [show s.registry.current.active[key.owner]? = some e from he, any_some]
      exact isSome_iff_ne_none.mpr halias
    show Option.getD (if (s.registry.current.active[key.owner]?).any
      (fun e => e.aliasName.isSome) = true then none else aliasCandidate.map some) e.aliasName = _
    rw [if_pos hany, getD_none]
  | renew k expiresAt now o =>
    cases h
    unfold OwnerRegistry.renew
    split
    · refine .edited (OwnerRegistry.edits_upsertLocked s.registry k _ _ _ _ now o) ?_
      intro e e' he he'
      rw [OwnerRegistry.entry_upsertRecord he] at he'
      cases he'
      exact ⟨rfl, rfl, rfl⟩
    · exact .unchanged
  | updateMetadata k aliasName note now o =>
    cases h
    unfold OwnerRegistry.updateMetadata
    split
    · refine .edited (OwnerRegistry.edits_upsertLocked s.registry k _ _ _ _ now o) ?_
      intro e e' he he'
      rw [OwnerRegistry.entry_upsertRecord he] at he'
      cases he'
      exact ⟨rfl, rfl⟩
    · exact .unchanged
  | unregister k now o =>
    cases h
    exact .edited (OwnerRegistry.edits_unregister s.registry k now o) nofun
  | reload =>
    simp only [metadataStep, OwnerRegistry.reload] at h
    cases hload : OwnerRegistry.loadActive s.registry.file with
    | error e =>
      rw [hload] at h
      cases h
      exact .unchanged
    | ok fresh =>
      rw [hload] at h
      cases h
      refine .read ?_ (.inl rfl)
      rw [OwnerRegistry.load, hload]
      rfl
  | restart =>
    simp only [metadataStep] at h
    cases hload : OwnerRegistry.load s.registry.file with
    | error e =>
      rw [hload] at h
      cases h
    | ok registry =>
      rw [hload] at h
      cases h
      exact .read hload (.inr rfl)

theorem InStep.of_load {file : List OwnerRecord} {registry : OwnerRegistry}
    (h : OwnerRegistry.load file = .ok registry) : InStep ⟨registry, []⟩ :=
  ⟨registry.current, OwnerRegistry.load_replayed h, fun _ _ => rfl⟩

theorem notMem_settle {doubtful : List OwnerKey} {k k' : OwnerKey} {o : Landing}
    (h : k' ∉ settle k o doubtful) :
    (k = k' ∧ o = .ok) ∨ (k ≠ k' ∧ k' ∉ doubtful) ∨
      (k' ∉ doubtful ∧ o.lands = false) := by
  cases o with
  | ok =>
    rw [settle, if_pos rfl, List.mem_filter] at h
    by_cases hk : k = k'
    · exact .inl ⟨hk, rfl⟩
    · exact .inr (.inl ⟨hk, fun hin => h ⟨hin, decide_eq_true fun heq => hk heq.symm⟩⟩)
  | failed err kept =>
    rw [settle, if_neg nofun] at h
    cases kept with
    | false => exact .inr (.inr ⟨h, rfl⟩)
    | true =>
      have hcons : k' ∉ k :: doubtful := h
      rw [List.mem_cons, not_or] at hcons
      exact .inr (.inl ⟨fun heq => hcons.1 heq.symm, hcons.2⟩)

theorem InStep.stepped (h : InStep s) (hstep : Stepped s op s') : InStep s' := by
  cases hstep with
  | @edited k v o registry hedits hkept =>
    obtain ⟨snap, hsnap, hall⟩ := h
    obtain ⟨snap', hsnap', hactive⟩ := hedits.file snap hsnap
    refine ⟨snap', hsnap', fun k' hk' => ?_⟩
    show _ = registry.entryOf k'
    rw [hactive, hedits.memory]
    rcases notMem_settle hk' with ⟨rfl, rfl⟩ | ⟨hne, hsure⟩ | ⟨hsure, hlost⟩
    · rw [if_pos ⟨rfl, rfl⟩, if_pos ⟨rfl, rfl⟩]
    · rw [if_neg fun hand => hne hand.2, if_neg fun hand => hne hand.2]
      exact hall k' hsure
    · have hfailed : o ≠ .ok := by
        rintro rfl
        cases hlost
      rw [if_neg (by simp [hlost]), if_neg fun hand => hfailed hand.1]
      exact hall k' hsure
  | unchanged => exact h
  | read hload hop => exact .of_load hload

theorem inStep_of_reachable (h : metadataRuns.Reachable s) : InStep s := by
  refine h.invariant (fun s hinit => ?_) fun s op s' hs _ hstep => ?_
  · obtain ⟨hload, hnone⟩ := hinit
    have hin := InStep.of_load hload
    rw [← hnone] at hin
    exact hin
  · exact hs.stepped (stepped_of_step hstep)

theorem InStep.kept (h : InStep s) (hstep : metadataStep s op = some s')
    (hread : op = .reload ∨ op = .restart → k ∉ s.doubtful) (he : s.entryOf k = some e)
    (he' : s'.entryOf k = some e') : op.Kept e e' := by
  have heq : s'.entryOf k = s.entryOf k → op.Kept e e' := fun hsame => by
    rw [hsame, he] at he'
    exact .of_eq (some.inj he').symm op
  cases stepped_of_step hstep with
  | @edited k₀ v o registry hedits hkept =>
    have hmemory : registry.entryOf k = _ := hedits.memory k
    by_cases hk : o = .ok ∧ k₀ = k
    · obtain ⟨rfl, rfl⟩ := hk
      rw [if_pos ⟨rfl, rfl⟩] at hmemory
      exact hkept e e' he (hmemory.symm.trans he')
    · rw [if_neg hk] at hmemory
      exact heq hmemory
  | unchanged => exact heq rfl
  | read hload hop =>
    obtain ⟨snap, hsnap, hall⟩ := h
    have hcurrent := OwnerRegistry.load_replayed hload
    obtain ⟨_, hactive, hpure⟩ := bind_eq_ok.mp hload
    cases pure_eq_ok.mp hpure
    rw [hsnap] at hactive
    cases hactive
    exact heq (hall k (hread hop))

end MetadataState

end Dweb
