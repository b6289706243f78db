import OpenDweb.Fabric.Persistence

/-!
# OpenDweb — what an acknowledged operation has made durable

An operation inserts in memory first and persists afterwards, so a persist that fails
leaves facts the file does not hold. Whether the next acknowledged operation writes them is
up to that operation: `grant`, `revoke` and `set_display_name` always persist, `merge` only
when it inserted something itself.

* **`Traced`** — a handle with one history bit, `unsaved`: some call failed after it had
  inserted, and no call has persisted since;
* **`durable_iff_saved`** — in every run, with any persists failing, the file holds every
  fact in memory iff the bit is clear;
* **`durable_after_ok_iff`** — an acknowledged operation leaves everything durable unless it
  is a merge that inserts nothing while the bit is set.
-/

namespace Dweb

open Std (ExtTreeMap)

variable [Crypto]

/-! ## What the file holds -/

namespace Handle

/-- `roster.facts` is what `persist_now` writes for a list that has `sf` in it. -/
def FileHolds (h : Handle) (sf : SignedFact) : Prop :=
  ∃ items body, SignedFact.encodeAll items = .ok body ∧
    h.dir.rosterFacts = some (Roster.fileBytes h.roster.fabricId body) ∧ sf ∈ items

/-- **Durability**: the file holds every fact in memory. -/
def Durable (h : Handle) : Prop :=
  ∀ (id : FactId) (sf : SignedFact), h.roster.facts[id]? = some sf → h.FileHolds sf

def FileKnown (h : Handle) : Prop :=
  ∀ sf, h.FileHolds sf → h.roster.facts[sf.factId]? = some sf

end Handle

theorem Roster.fileBytes_injective {fabricId : FabricId} {body body' : Bytes}
    (h : fileBytes fabricId body = fileBytes fabricId body') : body = body' := by
  have hlen := congrArg List.length h
  simp only [fileBytes, List.length_append, BytesN.length_toBytes] at hlen
  obtain ⟨hhead, -⟩ := List.append_inj h (by simp only [List.length_append]; omega)
  exact List.append_cancel_left (List.append_cancel_left hhead)

variable {h : Handle} {r : Roster}

theorem Handle.durable_of_file (hwf : h.roster.WellFormed) {items : List SignedFact} {body : Bytes}
    (henc : SignedFact.encodeAll items = .ok body)
    (hfile : h.dir.rosterFacts = some (Roster.fileBytes h.roster.fabricId body))
    (hitems : ∀ sf, sf ∈ items ↔ ∃ id : FactId, h.roster.facts[id]? = some sf) :
    h.Durable ∧ h.FileKnown := by
  refine ⟨fun id sf hget => ⟨items, body, henc, hfile, (hitems sf).mpr ⟨id, hget⟩⟩, ?_⟩
  rintro sf ⟨items', body', henc', hfile', hmem⟩
  rw [hfile, Option.some.injEq] at hfile'
  obtain rfl := Roster.fileBytes_injective hfile'
  obtain rfl := SignedFact.encodeAll_injective henc henc'
  obtain ⟨id, hget⟩ := (hitems sf).mp hmem
  exact (hwf.stored id sf hget).1 ▸ hget

theorem Handle.durable_of_persisted (hwf : h.roster.WellFormed)
    (hfile : h.dir.rosterFacts = some h.roster.file) : h.Durable ∧ h.FileKnown :=
  durable_of_file hwf hwf.encodeAll hfile fun _ => Roster.mem_values

theorem Handle.Fresh.durable (hfresh : h.Fresh) : h.Durable ∧ h.FileKnown := by
  have hl := hfresh.loaded
  obtain hfile | ⟨bytes, r, hbytes, hopen, hcore⟩ := hl.file
  · exact durable_of_persisted hl.wellFormed hfile
  · obtain ⟨items, body, henc, rfl, hitems⟩ := (Roster.opened_of_decodePersisted hopen).file
    refine durable_of_file hl.wellFormed henc hbytes fun sf => ?_
    rw [hitems, hcore.facts_eq]

theorem Handle.durable_congr (h h' : Handle) (hfile : h'.dir.rosterFacts = h.dir.rosterFacts)
    (hfabric : h'.roster.fabricId = h.roster.fabricId)
    (hfacts : ∀ (id : FactId) (sf : SignedFact),
      h'.roster.facts[id]? = some sf ↔ h.roster.facts[id]? = some sf) :
    (h'.Durable ↔ h.Durable) ∧ (h'.FileKnown ↔ h.FileKnown) := by
  have hholds : ∀ sf, h'.FileHolds sf ↔ h.FileHolds sf := by
    intro sf
    unfold FileHolds
    rw [hfile, hfabric]
  unfold Durable FileKnown
  simp only [hholds, hfacts, and_self]

/-! ## The history bit -/

/-- A handle and whether an insertion is still unsaved. -/
structure Traced where
  handle : Handle
  unsaved : Bool

def insertedBy (r r' : Roster) : Bool := r'.facts.toList.any fun entry => r.facts[entry.1]?.isNone

theorem insertedBy_iff {r' : Roster} : insertedBy r r' = true ↔
    ∃ (id : FactId) (sf : SignedFact), r'.facts[id]? = some sf ∧ r.facts[id]? = none := by
  simp only [insertedBy, List.any_eq_true, Prod.exists,
    ExtTreeMap.mem_toList_iff_getElem?_eq_some, Option.isNone_iff_eq_none]

def RosterOp.isMerge : RosterOp → Bool
  | merge _ => true
  | _ => false

theorem RosterOp.isMerge_eq_false {op : RosterOp} (hop : ¬op.IsMerge) : op.isMerge = false := by
  cases op with
  | merge facts => exact absurd ⟨facts, rfl⟩ hop
  | _ => rfl

/-- The bit after a call: a failed call sets it if it inserted; an acknowledged call clears
it unless it was a merge that inserted nothing, which does not persist. -/
def Traced.next (s : Traced) (l : RosterOp × PersistIo) : Traced :=
  let out := l.1.apply s.handle l.2
  { handle := out.1
    unsaved :=
      match out.2 with
      | .error _ => s.unsaved || insertedBy s.handle.roster out.1.roster
      | .ok () => s.unsaved && l.1.isMerge && !insertedBy s.handle.roster out.1.roster }

@[simp] theorem Traced.next_handle (s : Traced) (l : RosterOp × PersistIo) :
    (s.next l).handle = (l.1.apply s.handle l.2).1 := rfl

def tracedMachine : Machine Traced (RosterOp × PersistIo) where
  init s := s.handle.Fresh ∧ s.unsaved = false
  step s l := some (s.next l)

structure Traced.Consistent (s : Traced) : Prop where
  wellFormed : s.handle.roster.WellFormed
  known : s.handle.FileKnown
  durable_iff : s.handle.Durable ↔ s.unsaved = false

variable {s : Traced}

theorem Traced.Consistent.persisting (hs : s.Consistent) (batch : List SignedFact)
    (hwf : r.WellFormed) (hext : Roster.Extends batch s.handle.roster r) (io : PersistIo)
    {unsaved : Bool}
    (hok : (Handle.persisting ⟨s.handle.dir, r⟩ io ()).2 = .ok () → unsaved = false)
    (herr : ∀ e, (Handle.persisting ⟨s.handle.dir, r⟩ io ()).2 = .error e → unsaved = (s.unsaved || insertedBy s.handle.roster r)) :
    Traced.Consistent ⟨(Handle.persisting ⟨s.handle.dir, r⟩ io ()).1, unsaved⟩ := by
  have hwf' : (Handle.persisting ⟨s.handle.dir, r⟩ io ()).1.roster.WellFormed := by
    rw [Handle.persisting_roster]
    exact hwf
  obtain ⟨-, ⟨hres, hfile⟩ | ⟨⟨e, hres⟩, hfile⟩⟩ := Handle.persisting_cases ⟨s.handle.dir, r⟩ io ()
  · -- the file is now the whole store
    obtain ⟨hdur, hknown⟩ := Handle.durable_of_persisted hwf'
      (by rw [hfile, Handle.persisting_roster])
    exact ⟨hwf', hknown, ⟨fun _ => hok hres, fun _ => hdur⟩⟩
  · -- the file is what it was
    rw [herr e hres]
    have hholds : ∀ sf, (Handle.persisting ⟨s.handle.dir, r⟩ io ()).1.FileHolds sf ↔
        s.handle.FileHolds sf := by
      intro sf
      unfold Handle.FileHolds
      rw [hfile, Handle.persisting_roster, hext.fabric_eq]
    have hknown : (Handle.persisting ⟨s.handle.dir, r⟩ io ()).1.FileKnown := by
      intro sf hsf
      rw [Handle.persisting_roster]
      exact hext.keeps _ _ (hs.known sf ((hholds sf).mp hsf))
    refine ⟨hwf', hknown, ?_⟩
    rw [Bool.or_eq_false_iff]
    constructor
    · intro hdur
      have hdur : ∀ (id : FactId) (sf : SignedFact), r.facts[id]? = some sf →
          s.handle.FileHolds sf := by
        intro id sf hget
        exact (hholds sf).mp (hdur id sf (by rw [Handle.persisting_roster]; exact hget))
      refine ⟨hs.durable_iff.mp fun id sf hget => hdur id sf (hext.keeps id sf hget), ?_⟩
      rw [Bool.eq_false_iff]
      intro hins
      -- the file would hold the new fact, but it holds known facts only
      obtain ⟨id, sf, hget, hnone⟩ := insertedBy_iff.mp hins
      have hold := hs.known sf (hdur id sf hget)
      rw [← (hwf.stored id sf hget).1, hnone] at hold
      cases hold
    · rintro ⟨hsaved, hins⟩ id sf hget
      rw [Handle.persisting_roster] at hget
      have hold : s.handle.roster.facts[id]? = some sf := by
        obtain hold | ⟨-, hnone, -⟩ := hext.adds id sf hget
        · exact hold
        · rw [insertedBy_iff.mpr ⟨id, sf, hget, hnone⟩] at hins
          cases hins
      exact (hholds sf).mpr (hs.durable_iff.mpr hsaved id sf hold)

theorem insertedBy_eq_false {r' : Roster}
    (h : ∀ (id : FactId) (sf : SignedFact), r'.facts[id]? = some sf → r.facts[id]? = some sf) :
    insertedBy r r' = false := by
  rw [Bool.eq_false_iff]
  intro hins
  obtain ⟨id, sf, hget, hnone⟩ := insertedBy_iff.mp hins
  rw [h id sf hget] at hnone
  cases hnone

theorem insertedBy_mergeLoop {facts : List SignedFact} (hnew : ∃ sf ∈ facts, r.Admits sf)
    (hwf : r.WellFormed) : insertedBy r (r.mergeLoop ⟨0, 0, 0⟩ false facts).1 = true := by
  generalize (⟨0, 0, 0⟩ : MergeReport) = report, false = dirty
  induction facts generalizing r report dirty with
  | nil => simp at hnew
  | cons sf facts ih =>
    by_cases hadm : r.Admits sf
    · rw [Roster.mergeLoop_cons_of_admits hadm, insertedBy_iff]
      refine ⟨sf.factId, sf, ?_, hadm.fresh⟩
      refine (Roster.mergeLoop_extends (hwf.insertFact hadm) _ _ facts).2.keeps _ _ ?_
      rw [Roster.insertFact_facts, getElem?_facts_insert, if_pos rfl]
    · obtain ⟨r₁, report₁, heq, hcore, -⟩ :=
        Roster.mergeLoop_cons_of_not_admits hadm report dirty facts
      have hnew₁ : ∃ sf ∈ facts, r₁.Admits sf := by
        obtain ⟨x, hx, hxadm⟩ := hnew
        obtain rfl | hin := List.mem_cons.mp hx
        · exact absurd hxadm hadm
        · exact ⟨x, hin, (hcore.admits_iff x).mpr hxadm⟩
      have hins := ih hnew₁ (hwf.of_sameCore hcore) report₁ dirty
      rw [heq]
      unfold insertedBy at hins ⊢
      rwa [hcore.facts_eq] at hins

/-- **The step lemma**: any operation, any persist outcome. -/
theorem Traced.Consistent.next (hs : s.Consistent) (l : RosterOp × PersistIo) :
    (s.next l).Consistent := by
  obtain ⟨op, io⟩ := l
  have heff := op.apply_effect s.handle io
  unfold Traced.next
  simp only
  generalize op.apply s.handle io = out at heff
  cases heff with
  | refused hop e =>
    simp only [insertedBy_eq_false fun _ _ h => h, Bool.or_false]
    exact hs
  | @nothingNew facts hnew r hr =>
    have hcore : s.handle.roster.SameCore r := hr ▸ Roster.mergeLoop_sameCore hnew
    have hfacts : ∀ (id : FactId) (sf : SignedFact),
        r.facts[id]? = some sf ↔ s.handle.roster.facts[id]? = some sf := by
      intro id sf
      rw [hcore.facts_eq]
    have hins := insertedBy_eq_false fun id sf => (hfacts id sf).mp
    obtain ⟨hdur, hknown⟩ :=
      Handle.durable_congr s.handle ⟨s.handle.dir, r⟩ rfl hcore.fabric_eq hfacts
    simp only [RosterOp.isMerge, hins, Bool.not_false, Bool.and_true]
    exact ⟨hs.wellFormed.of_sameCore hcore, hknown.mpr hs.known, hdur.trans hs.durable_iff⟩
  | @merged facts hnew r hr =>
    obtain ⟨hwf, hext⟩ := Roster.mergeLoop_extends hs.wellFormed ⟨0, 0, 0⟩ false facts
    have hins := insertedBy_mergeLoop hnew hs.wellFormed
    rw [← hr] at hwf hext hins
    refine hs.persisting facts hwf hext io (fun hres => ?_) fun e hres => ?_
    · simp only [hres, Handle.persisting_roster, hins, Bool.not_true, Bool.and_false]
    · simp only [hres, Handle.persisting_roster]
  | @inserted op hop signed hnew =>
    refine hs.persisting [signed] (hs.wellFormed.insertFact hnew)
      (Roster.Extends.insertFact hnew List.mem_cons_self) io (fun hres => ?_) fun e hres => ?_
    · simp only [hres, RosterOp.isMerge_eq_false hop, Bool.and_false, Bool.false_and]
    · simp only [hres, Handle.persisting_roster]
  | known hop =>
    refine hs.persisting [] hs.wellFormed (.refl [] _) io (fun hres => ?_) fun e hres => ?_
    · simp only [hres, RosterOp.isMerge_eq_false hop, Bool.and_false, Bool.false_and]
    · simp only [hres, Handle.persisting_roster]

theorem consistent_of_reachable (hreach : tracedMachine.Reachable s) : s.Consistent := by
  refine hreach.invariant ?_ ?_
  · rintro s ⟨hfresh, hsaved⟩
    obtain ⟨hdur, hknown⟩ := hfresh.durable
    exact ⟨hfresh.loaded.wellFormed, hknown, ⟨fun _ => hsaved, fun _ => hdur⟩⟩
  · intro s l s' hs _ hstep
    obtain rfl : s.next l = s' := by simpa [tracedMachine] using hstep
    exact hs.next l

/-- **Durability after an acknowledged operation.** In every run with any persists failing,
an operation that returns `Ok` leaves every fact in memory on disk, unless it is a merge none
of whose facts can enter the store while an earlier insertion is still unsaved. -/
theorem durable_after_ok_iff {s : Traced} (hreach : tracedMachine.Reachable s)
    (op : RosterOp) (io : PersistIo) (hok : (op.apply s.handle io).2 = .ok ()) :
    (op.apply s.handle io).1.Durable ↔
      ∀ facts, op = .merge facts →
        (∃ sf ∈ facts, s.handle.roster.Admits sf) ∨ s.unsaved = false := by
  have hs := consistent_of_reachable hreach
  have hnext : (s.next (op, io)).unsaved =
      (s.unsaved && op.isMerge && !insertedBy s.handle.roster (op.apply s.handle io).1.roster) := by
    simp only [Traced.next, hok]
  have hdur := (hs.next (op, io)).durable_iff
  rw [hnext] at hdur
  refine hdur.trans ?_
  have heff := op.apply_effect s.handle io
  generalize op.apply s.handle io = out at heff hok
  cases heff with
  | refused hop e => cases hok
  | @nothingNew facts hnew r hr =>
    have hcore : s.handle.roster.SameCore r := hr ▸ Roster.mergeLoop_sameCore hnew
    have hins : insertedBy s.handle.roster r = false :=
      insertedBy_eq_false fun id sf h => by rwa [hcore.facts_eq] at h
    simp only [RosterOp.isMerge, hins, Bool.and_true, Bool.not_false]
    constructor
    · intro hsaved _ _
      exact .inr hsaved
    · intro h
      obtain ⟨sf, hsf, hadm⟩ | hsaved := h facts rfl
      · exact absurd hadm (hnew sf hsf)
      · exact hsaved
  | @merged facts hnew r hr =>
    have hins := insertedBy_mergeLoop hnew hs.wellFormed
    rw [← hr] at hins
    simp only [Handle.persisting_roster, hins, Bool.not_true, Bool.and_false, true_iff]
    rintro facts' hop
    cases hop
    exact .inl hnew
  | inserted hop hnew =>
    simp only [RosterOp.isMerge_eq_false hop, Bool.and_false, Bool.false_and, true_iff]
    exact fun facts heq => absurd ⟨facts, heq⟩ hop
  | known hop =>
    simp only [RosterOp.isMerge_eq_false hop, Bool.and_false, Bool.false_and, true_iff]
    exact fun facts heq => absurd ⟨facts, heq⟩ hop

end Dweb

namespace Dweb

attribute [local instance] Sample.crypto

def Sample.start : Traced := ⟨Sample.attached "/node", false⟩

theorem Sample.start_reachable : tracedMachine.Reachable Sample.start :=
  .init ⟨Sample.attached_fresh "/node", rfl⟩

def Sample.full : Traced :=
  Sample.start.next (.merge [Sample.genesis], .writeFails 0 (.other "No space left on device"))

theorem Sample.full_reachable : tracedMachine.Reachable Sample.full := by
  have hstep : tracedMachine.step Sample.start (.merge [Sample.genesis],
      .writeFails 0 (.other "No space left on device")) = some Sample.full := rfl
  exact .step Sample.start_reachable trivial hstep

theorem retried_merge_not_durable :
    tracedMachine.Reachable Sample.full ∧
      ((RosterOp.merge [Sample.genesis]).apply Sample.full.handle .done).2 = .ok () ∧
      ¬((RosterOp.merge [Sample.genesis]).apply Sample.full.handle .done).1.Durable := by
  refine ⟨Sample.full_reachable, by decide +kernel, fun hdur => ?_⟩
  have hnext := (consistent_of_reachable Sample.full_reachable).next
    (.merge [Sample.genesis], .done)
  have hset : (Sample.full.next (.merge [Sample.genesis], .done)).unsaved = true := by
    decide +kernel
  have hclear := hnext.durable_iff.mp (by rw [Traced.next_handle]; exact hdur)
  rw [hset] at hclear
  cases hclear

theorem first_merge_durable :
    ((RosterOp.merge [Sample.genesis]).apply Sample.start.handle .done).1.Durable :=
  (durable_after_ok_iff Sample.start_reachable (.merge [Sample.genesis]) .done
    (by decide +kernel)).mpr fun _ _ => .inr rfl

end Dweb
