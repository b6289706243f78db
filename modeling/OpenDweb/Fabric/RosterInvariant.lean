import OpenDweb.Fabric.FactCodec
import OpenDweb.Fabric.Roster

/-!
# OpenDweb — what the roster store always holds

One case lemma says everything `validate_and_insert` can do; the well-formedness of the
store and the shape of whole batches follow from it.

* **`Roster.validateAndInsert_cases`** — inserted, duplicate or quarantined, each with
  the reason and the store it leaves;
* **`Roster.WellFormed`** — every stored fact is acceptable and filed under its own id,
  at most one Genesis is stored, and it fixes the root;
* **`Roster.Extends`** — what any batch does to a store: it only adds acceptable facts,
  and a root once set stays.
-/

namespace Dweb

open Std (ExtTreeMap)

variable [Crypto]

/-! ## Acceptable facts -/

/-- A fact the store may hold: its own fabric, a verifying signature, an allowed shape. -/
structure SignedFact.Acceptable (fabricId : FabricId) (sf : SignedFact) : Prop where
  fabric_eq : sf.fact.fabricId = fabricId
  verifies : sf.verify = .ok ()
  shape : sf.fact.shapeOk = true

theorem SignedFact.verify_eq_ok {sf : SignedFact} :
    sf.verify = .ok () ↔ sf.fact.Representable ∧
      Crypto.verify sf.fact.issuer.asBytes sf.fact.layout sf.signature = true := by
  unfold SignedFact.verify
  cases hc : sf.fact.canonicalBytes with
  | error e =>
    have hno : ¬sf.fact.Representable := fun h => by
      rw [Fact.canonicalBytes_of_representable h] at hc; cases hc
    simp [hno, bind, Except.bind]
  | ok bytes =>
    obtain ⟨hrep, rfl⟩ := Fact.canonicalBytes_eq_ok.mp hc
    cases hv : Crypto.verify sf.fact.issuer.asBytes sf.fact.layout sf.signature with
    | true => simpa [bind, Except.bind, hv, pure, Except.pure] using hrep
    | false => simp [bind, Except.bind, hv, throw, throwThe, MonadExceptOf.throw]

theorem SignedFact.Acceptable.representable {fabricId : FabricId} {sf : SignedFact}
    (h : sf.Acceptable fabricId) : sf.fact.Representable :=
  (verify_eq_ok.mp h.verifies).1

/-! ## The store lookup -/

theorem getElem?_facts_insert (m : ExtTreeMap FactId SignedFact) (id id' : FactId)
    (sf : SignedFact) : (m.insert id sf)[id']? = if id = id' then some sf else m[id']? := by
  rw [ExtTreeMap.getElem?_insert]
  simp only [Std.compare_eq_iff_eq]

namespace Roster

variable {r r' : Roster} {sf : SignedFact}

theorem mem_values : sf ∈ r.values ↔ ∃ id : FactId, r.facts[id]? = some sf := by
  simp only [values, List.mem_map, Prod.exists, exists_eq_right]
  exact exists_congr fun id => ExtTreeMap.mem_toList_iff_getElem?_eq_some

@[simp] theorem insertFact_fabricId (r : Roster) (sf : SignedFact) :
    (r.insertFact sf).fabricId = r.fabricId := by
  unfold insertFact; split <;> rfl

@[simp] theorem insertFact_facts (r : Roster) (sf : SignedFact) :
    (r.insertFact sf).facts = r.facts.insert sf.factId sf := by
  unfold insertFact; split <;> rfl

@[simp] theorem insertFact_consumedInvites (r : Roster) (sf : SignedFact) :
    (r.insertFact sf).consumedInvites = r.consumedInvites := by
  unfold insertFact; split <;> rfl

structure Admits (r : Roster) (sf : SignedFact) : Prop where
  acceptable : sf.Acceptable r.fabricId
  fresh : r.facts[sf.factId]? = none
  genesis_free : sf.fact.kind = .genesis →
    r.genesisFactId = none ∨ r.genesisFactId = some sf.factId

theorem genesisConflict_eq_none :
    r.genesisConflict sf = none ↔ (sf.fact.kind = .genesis →
      (r.genesisFactId = none ∨ r.genesisFactId = some sf.factId) ∧
        ∀ existing, r.facts[sf.factId]? = some existing → existing = sf) := by
  unfold genesisConflict
  by_cases hkind : sf.fact.kind = .genesis
  · cases hg : r.genesisFactId with
    | none => cases hf : r.facts[sf.factId]? <;> simp [hkind]
    | some g => cases hf : r.facts[sf.factId]? <;> by_cases hgid : g = sf.factId <;> simp [hkind, hgid]
  · simp [hkind]

/-- **Everything `validateAndInsert` can do.** -/
theorem validateAndInsert_cases (r : Roster) (sf : SignedFact) :
    (r.Admits sf ∧ r.validateAndInsert sf = (r.insertFact sf, .inserted)) ∨
      (sf.Acceptable r.fabricId ∧ r.facts[sf.factId]? = some sf ∧
        r.validateAndInsert sf = (r, .duplicate)) ∨
      (¬r.Admits sf ∧ ∃ reason, r.validateAndInsert sf = (r, .quarantined reason)) := by
  unfold validateAndInsert
  by_cases hfabric : sf.fact.fabricId ≠ r.fabricId
  · rw [if_pos hfabric]
    exact .inr (.inr ⟨fun h => hfabric h.acceptable.fabric_eq, _, rfl⟩)
  rw [if_neg hfabric]
  have hfabric := not_not.mp hfabric
  cases hverify : sf.verify with
  | error e =>
    refine .inr (.inr ⟨fun h => ?_, _, rfl⟩)
    rw [h.acceptable.verifies] at hverify
    cases hverify
  | ok u =>
  show _ ∨ _ ∨ (_ ∧ ∃ reason, (if ¬sf.fact.shapeOk then _ else _) = _)
  by_cases hshape : ¬sf.fact.shapeOk
  · simp only [if_pos hshape]
    exact .inr (.inr ⟨fun h => hshape h.acceptable.shape, _, rfl⟩)
  simp only [if_neg hshape]
  have hacc : sf.Acceptable r.fabricId := ⟨hfabric, hverify, not_not.mp hshape⟩
  cases hconf : r.genesisConflict sf with
  | some reason =>
    refine .inr (.inr ⟨fun h => ?_, _, rfl⟩)
    have hfree := genesisConflict_eq_none.mpr fun hk =>
      ⟨h.genesis_free hk, by simp [h.fresh]⟩
    rw [hfree] at hconf
    cases hconf
  | none =>
  have hfree := genesisConflict_eq_none.mp hconf
  cases hget : r.facts[sf.factId]? with
  | none => exact .inl ⟨⟨hacc, hget, fun hk => (hfree hk).1⟩, rfl⟩
  | some existing =>
    simp only
    by_cases heq : existing = sf
    · rw [if_pos heq]
      exact .inr (.inl ⟨hacc, by rw [heq], rfl⟩)
    · rw [if_neg heq]
      refine .inr (.inr ⟨fun h => ?_, _, rfl⟩)
      rw [h.fresh] at hget
      cases hget

theorem validateAndInsert_of_admits (h : r.Admits sf) :
    r.validateAndInsert sf = (r.insertFact sf, .inserted) := by
  obtain ⟨-, heq⟩ | ⟨-, hget, -⟩ | ⟨hno, -⟩ := validateAndInsert_cases r sf
  · exact heq
  · rw [h.fresh] at hget; cases hget
  · exact absurd h hno

/-! ## Well-formed stores -/

/-- **The store invariant.** -/
structure WellFormed (r : Roster) : Prop where
  stored : ∀ (id : FactId) (sf : SignedFact), r.facts[id]? = some sf → id = sf.factId ∧ sf.Acceptable r.fabricId
  genesis_stored : ∀ id, r.genesisFactId = some id →
    ∃ sf : SignedFact, r.facts[id]? = some sf ∧ sf.fact.kind = .genesis ∧ r.root = some sf.fact.issuer
  genesis_unique : ∀ (id : FactId) (sf : SignedFact), r.facts[id]? = some sf → sf.fact.kind = .genesis →
    r.genesisFactId = some id
  root_none : r.genesisFactId = none → r.root = none

theorem wellFormed_empty (fabricId : FabricId) (consumed : Finset (BytesN 16)) :
    (empty fabricId consumed).WellFormed where
  stored := by simp [empty]
  genesis_stored := by simp [empty]
  genesis_unique := by simp [empty]
  root_none := by simp [empty]

theorem insertFact_genesisFactId (r : Roster) (sf : SignedFact) :
    (r.insertFact sf).genesisFactId =
      if sf.fact.kind = .genesis ∧ r.genesisFactId = none then some sf.factId
      else r.genesisFactId := by
  unfold insertFact; split <;> rfl

theorem insertFact_root (r : Roster) (sf : SignedFact) :
    (r.insertFact sf).root =
      if sf.fact.kind = .genesis ∧ r.genesisFactId = none then some sf.fact.issuer
      else r.root := by
  unfold insertFact; split <;> rfl

theorem WellFormed.insertFact (hwf : r.WellFormed) (h : r.Admits sf) :
    (r.insertFact sf).WellFormed where
  stored := by
    intro id sf' hget
    rw [insertFact_facts, getElem?_facts_insert] at hget
    rw [insertFact_fabricId]
    split at hget
    · rename_i hid
      obtain rfl : sf = sf' := by simpa using hget
      exact ⟨hid.symm, h.acceptable⟩
    · exact hwf.stored id sf' hget
  genesis_stored := by
    intro id hid
    rw [insertFact_genesisFactId] at hid
    rw [insertFact_facts, getElem?_facts_insert, insertFact_root]
    split at hid
    · rename_i hnew
      obtain rfl : sf.factId = id := by simpa using hid
      exact ⟨sf, by rw [if_pos rfl], hnew.1, by rw [if_pos hnew]⟩
    · rename_i hold
      obtain ⟨g, hg, hkind, hroot⟩ := hwf.genesis_stored id hid
      have hne : sf.factId ≠ id := fun heq => by
        have := h.fresh
        rw [heq, hg] at this
        cases this
      exact ⟨g, by rw [if_neg hne, hg], hkind, by rw [if_neg hold, hroot]⟩
  genesis_unique := by
    intro id sf' hget hkind
    rw [insertFact_facts, getElem?_facts_insert] at hget
    rw [insertFact_genesisFactId]
    split at hget
    · rename_i hid
      obtain rfl : sf = sf' := by simpa using hget
      obtain hnone | hsome := h.genesis_free hkind
      · rw [if_pos ⟨hkind, hnone⟩, hid]
      · rw [hsome, if_neg (by simp), hid]
    · have hold := hwf.genesis_unique id sf' hget hkind
      rw [hold, if_neg (by simp)]
  root_none := by
    intro hnone
    rw [insertFact_genesisFactId] at hnone
    rw [insertFact_root]
    split at hnone
    · cases hnone
    · rename_i hold
      rw [if_neg hold]
      exact hwf.root_none hnone

theorem WellFormed.genesis_of_root (hwf : r.WellFormed) {root : EndpointId}
    (hroot : r.root = some root) : ∃ (id : FactId) (g : SignedFact), r.genesisFactId = some id ∧
      r.facts[id]? = some g ∧ g.fact.kind = .genesis ∧ g.fact.issuer = root := by
  cases hg : r.genesisFactId with
  | none =>
    rw [hwf.root_none hg] at hroot
    cases hroot
  | some id =>
    obtain ⟨g, hget, hkind, hr⟩ := hwf.genesis_stored id hg
    rw [hroot] at hr
    exact ⟨id, g, rfl, hget, hkind, (Option.some.inj hr).symm⟩

/-! ## Batches -/

/-- What processing the facts of `batch` may do to a store. -/
structure Extends (batch : List SignedFact) (r r' : Roster) : Prop where
  fabric_eq : r'.fabricId = r.fabricId
  consumed_eq : r'.consumedInvites = r.consumedInvites
  keeps : ∀ (id : FactId) (sf : SignedFact), r.facts[id]? = some sf → r'.facts[id]? = some sf
  adds : ∀ (id : FactId) (sf : SignedFact), r'.facts[id]? = some sf → r.facts[id]? = some sf ∨
    (sf ∈ batch ∧ r.facts[id]? = none ∧ id = sf.factId ∧ sf.Acceptable r.fabricId)
  genesis_keeps : ∀ id, r.genesisFactId = some id → r'.genesisFactId = some id
  root_keeps : ∀ root, r.genesisFactId ≠ none → r.root = some root → r'.root = some root

namespace Extends

variable {batch : List SignedFact} {r r' r'' : Roster}

protected theorem refl (batch : List SignedFact) (r : Roster) : Extends batch r r where
  fabric_eq := rfl
  consumed_eq := rfl
  keeps := fun _ _ h => h
  adds := fun _ _ h => .inl h
  genesis_keeps := fun _ h => h
  root_keeps := fun _ _ h => h

theorem of_core_eq (hfabric : r'.fabricId = r.fabricId)
    (hconsumed : r'.consumedInvites = r.consumedInvites) (hfacts : r'.facts = r.facts)
    (hgenesis : r'.genesisFactId = r.genesisFactId) (hroot : r'.root = r.root) :
    Extends batch r r' where
  fabric_eq := hfabric
  consumed_eq := hconsumed
  keeps := fun _ _ h => by rw [hfacts]; exact h
  adds := fun _ _ h => .inl (by rw [← hfacts]; exact h)
  genesis_keeps := fun _ h => by rw [hgenesis]; exact h
  root_keeps := fun _ _ h => by rw [hroot]; exact h

protected theorem trans (h : Extends batch r r') (h' : Extends batch r' r'') :
    Extends batch r r'' where
  fabric_eq := h'.fabric_eq.trans h.fabric_eq
  consumed_eq := h'.consumed_eq.trans h.consumed_eq
  keeps := fun id sf hget => h'.keeps id sf (h.keeps id sf hget)
  adds := by
    intro id sf hget
    obtain hin | ⟨hmem, hnone, hid, hacc⟩ := h'.adds id sf hget
    · exact h.adds id sf hin
    · refine .inr ⟨hmem, ?_, hid, h.fabric_eq ▸ hacc⟩
      cases hr : r.facts[id]? with
      | none => rfl
      | some old => rw [h.keeps id old hr] at hnone; cases hnone
  genesis_keeps := fun id hg => h'.genesis_keeps id (h.genesis_keeps id hg)
  root_keeps := by
    intro root hg hroot
    obtain ⟨id, hid⟩ := Option.ne_none_iff_exists'.mp hg
    exact h'.root_keeps root (by rw [h.genesis_keeps id hid]; simp) (h.root_keeps root hg hroot)

theorem mono {batch' : List SignedFact} (hsub : ∀ sf ∈ batch, sf ∈ batch')
    (h : Extends batch r r') : Extends batch' r r' :=
  { h with adds := fun id sf hget => (h.adds id sf hget).imp_right fun ⟨hm, rest⟩ =>
      ⟨hsub sf hm, rest⟩ }

theorem insertFact {sf : SignedFact} (hadm : r.Admits sf) (hmem : sf ∈ batch) :
    Extends batch r (r.insertFact sf) where
  fabric_eq := insertFact_fabricId r sf
  consumed_eq := insertFact_consumedInvites r sf
  keeps := by
    intro id old hget
    have hne : sf.factId ≠ id := fun heq => by
      have := hadm.fresh
      rw [heq, hget] at this
      cases this
    rw [insertFact_facts, getElem?_facts_insert, if_neg hne, hget]
  adds := by
    intro id old hget
    rw [insertFact_facts, getElem?_facts_insert] at hget
    split at hget
    · rename_i hid
      obtain rfl : sf = old := by simpa using hget
      exact .inr ⟨hmem, hid ▸ hadm.fresh, hid.symm, hadm.acceptable⟩
    · exact .inl hget
  genesis_keeps := by
    intro id hid
    rw [insertFact_genesisFactId, hid, if_neg (by simp)]
  root_keeps := by
    intro root hg hroot
    rw [insertFact_root, if_neg (fun h => hg h.2), hroot]

end Extends

/-- The part of a store that decides its projection and its file. -/
structure SameCore (r r' : Roster) : Prop where
  fabric_eq : r'.fabricId = r.fabricId
  genesis_eq : r'.genesisFactId = r.genesisFactId
  root_eq : r'.root = r.root
  facts_eq : r'.facts = r.facts

protected theorem SameCore.refl (r : Roster) : SameCore r r := ⟨rfl, rfl, rfl, rfl⟩

theorem SameCore.trans {r'' : Roster} (h : SameCore r r') (h' : SameCore r' r'') : SameCore r r'' :=
  ⟨h'.fabric_eq.trans h.fabric_eq, h'.genesis_eq.trans h.genesis_eq,
    h'.root_eq.trans h.root_eq, h'.facts_eq.trans h.facts_eq⟩

theorem sameCore_recordQuarantine (r : Roster) (reason : String) :
    SameCore r (r.recordQuarantine reason) := ⟨rfl, rfl, rfl, rfl⟩

theorem SameCore.admits_iff (h : SameCore r r') (sf : SignedFact) : r'.Admits sf ↔ r.Admits sf := by
  constructor
  · rintro ⟨hacc, hfresh, hfree⟩
    exact ⟨h.fabric_eq ▸ hacc, h.facts_eq ▸ hfresh, h.genesis_eq ▸ hfree⟩
  · rintro ⟨hacc, hfresh, hfree⟩
    exact ⟨h.fabric_eq.symm ▸ hacc, h.facts_eq.symm ▸ hfresh, h.genesis_eq.symm ▸ hfree⟩

theorem mergeLoop_cons_of_admits (h : r.Admits sf) (report : MergeReport) (dirty : Bool)
    (batch : List SignedFact) :
    mergeLoop r report dirty (sf :: batch) =
      mergeLoop (r.insertFact sf) { report with inserted := report.inserted + 1 } true batch := by
  rw [mergeLoop, validateAndInsert_of_admits h]

theorem mergeLoop_cons_of_not_admits (h : ¬r.Admits sf) (report : MergeReport) (dirty : Bool)
    (batch : List SignedFact) :
    ∃ r₁ report₁, mergeLoop r report dirty (sf :: batch) = mergeLoop r₁ report₁ dirty batch ∧
      SameCore r r₁ ∧ r₁.consumedInvites = r.consumedInvites := by
  obtain ⟨hadm, -⟩ | ⟨-, -, heq⟩ | ⟨-, reason, heq⟩ := validateAndInsert_cases r sf
  · exact absurd hadm h
  · exact ⟨r, _, by rw [mergeLoop, heq], .refl r, rfl⟩
  · exact ⟨r.recordQuarantine reason, _, by rw [mergeLoop, heq],
      sameCore_recordQuarantine r reason, rfl⟩

theorem WellFormed.of_sameCore (hwf : r.WellFormed) (h : SameCore r r') :
    r'.WellFormed where
  stored := by rw [h.facts_eq, h.fabric_eq]; exact hwf.stored
  genesis_stored := by rw [h.facts_eq, h.genesis_eq, h.root_eq]; exact hwf.genesis_stored
  genesis_unique := by rw [h.facts_eq, h.genesis_eq]; exact hwf.genesis_unique
  root_none := by rw [h.genesis_eq, h.root_eq]; exact hwf.root_none

/-- **What a whole merge loop does to a well-formed store.** -/
theorem mergeLoop_extends (hwf : r.WellFormed) (report : MergeReport) (dirty : Bool)
    (batch : List SignedFact) :
    (mergeLoop r report dirty batch).1.WellFormed ∧
      Extends batch r (mergeLoop r report dirty batch).1 := by
  induction batch generalizing r report dirty with
  | nil => exact ⟨hwf, .refl [] r⟩
  | cons sf batch ih =>
    have hsub : ∀ x ∈ batch, x ∈ sf :: batch := fun x hx => List.mem_cons_of_mem sf hx
    by_cases hadm : r.Admits sf
    · rw [mergeLoop_cons_of_admits hadm]
      obtain ⟨hwf', hext⟩ := ih (hwf.insertFact hadm) _ true
      exact ⟨hwf', (Extends.insertFact hadm List.mem_cons_self).trans (hext.mono hsub)⟩
    · obtain ⟨r₁, report₁, heq, hcore, hcons⟩ :=
        mergeLoop_cons_of_not_admits hadm report dirty batch
      rw [heq]
      obtain ⟨hwf', hext⟩ := ih (hwf.of_sameCore hcore) report₁ dirty
      have hfirst : Extends (sf :: batch) r r₁ :=
        .of_core_eq hcore.fabric_eq hcons hcore.facts_eq hcore.genesis_eq hcore.root_eq
      exact ⟨hwf', hfirst.trans (hext.mono hsub)⟩

/-- The dirty flag: something was inserted iff some fact could enter at the start. Only
an insertion changes what can enter, so the first one decides. -/
theorem mergeLoop_dirty (r : Roster) (report : MergeReport) (dirty : Bool)
    (batch : List SignedFact) :
    (mergeLoop r report dirty batch).2.2 = true ↔
      dirty = true ∨ ∃ sf ∈ batch, r.Admits sf := by
  induction batch generalizing r report dirty with
  | nil => simp [mergeLoop]
  | cons sf batch ih =>
    by_cases hadm : r.Admits sf
    · rw [mergeLoop_cons_of_admits hadm, ih]
      simp [hadm]
    · obtain ⟨r₁, report₁, heq, hcore, -⟩ :=
        mergeLoop_cons_of_not_admits hadm report dirty batch
      rw [heq, ih]
      simp [hadm, hcore.admits_iff]

theorem mergeLoop_sameCore {report : MergeReport} {dirty : Bool} {batch : List SignedFact}
    (h : ∀ sf ∈ batch, ¬r.Admits sf) : SameCore r (mergeLoop r report dirty batch).1 := by
  induction batch generalizing r report dirty with
  | nil => exact .refl r
  | cons sf batch ih =>
    obtain ⟨r₁, report₁, heq, hcore, -⟩ :=
      mergeLoop_cons_of_not_admits (h sf List.mem_cons_self) report dirty batch
    rw [heq]
    refine hcore.trans (ih fun x hx hadm => ?_)
    exact h x (List.mem_cons_of_mem sf hx) ((hcore.admits_iff x).mp hadm)

end Roster

end Dweb
