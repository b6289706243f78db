import OpenDweb.Fabric.Projection

/-!
# OpenDweb — merge convergence

What a store holds after any merges is the set of acceptable facts it was shown, so two
nodes shown the same facts agree, in whatever order, multiplicity and batches the facts
arrived and whatever their persists did.

* **`Roster.mergeLoop_stores`** — with one Genesis in play, every acceptable fact of a
  batch is stored afterwards under its id;
* **`factSet_mergeAll`** — the stored facts are the acceptable facts of the batches;
* **`Roster.effectiveMembers_congr`** — the projection depends on no signature;
* **`merge_converges`** — same facts shown, same ids, root, Genesis and projection.
-/

namespace Dweb

open Std (ExtTreeMap)
open List Option Std.ExtTreeMap

variable [Crypto]

/-! ## Content addresses -/

theorem Fact.layout_injective {f f' : Fact} (hf : f.Representable) (hf' : f'.Representable)
    (h : f.layout = f'.layout) : f = f' := by
  have hparse := parseFactPrefix_layout hf []
  rw [h, parseFactPrefix_layout hf' [], Except.ok.injEq, Prod.mk.injEq] at hparse
  exact hparse.1.symm

def CollisionFree (inputs : List Bytes) : Prop :=
  ∀ a ∈ inputs, ∀ b ∈ inputs, Crypto.blake3 a = Crypto.blake3 b → a = b

variable {fabricId : FabricId} {h : Handle}

theorem fact_eq_of_factId_eq {L : List SignedFact}
    (hcoll : CollisionFree (L.map fun sf => sf.fact.layout)) {sf sf' : SignedFact} (hmem : sf ∈ L)
    (hmem' : sf' ∈ L) (hacc : sf.Acceptable fabricId) (hacc' : sf'.Acceptable fabricId)
    (hid : sf.factId = sf'.factId) : sf.fact = sf'.fact := by
  have hid : sf.fact.factId = sf'.fact.factId := hid
  simp only [Fact.factId, Fact.canonicalBytes_of_representable hacc.representable,
    Fact.canonicalBytes_of_representable hacc'.representable] at hid
  have hlayout := hcoll _ (List.mem_map_of_mem hmem) _ (List.mem_map_of_mem hmem') hid
  exact Fact.layout_injective hacc.representable hacc'.representable hlayout

def OneGenesis (fabricId : FabricId) (L : List SignedFact) : Prop :=
  ∀ sf ∈ L, ∀ sf' ∈ L, sf.Acceptable fabricId → sf'.Acceptable fabricId →
    sf.fact.kind = .genesis → sf'.fact.kind = .genesis → sf.factId = sf'.factId

namespace Roster

/-! ## One batch -/

/-- **An acceptable fact of a batch is stored afterwards**, as long as it does not meet
another Genesis. -/
theorem mergeLoop_stores {L batch : List SignedFact} {r : Roster} (hwf : r.WellFormed)
    (hone : OneGenesis r.fabricId L) (hsub : ∀ sf ∈ batch, sf ∈ L)
    (hstored : ∀ (id : FactId) (sf : SignedFact), r.facts[id]? = some sf → sf ∈ L)
    (report : MergeReport) (dirty : Bool) {sf : SignedFact} (hmem : sf ∈ batch)
    (hacc : sf.Acceptable r.fabricId) :
    ∃ sf' : SignedFact, (mergeLoop r report dirty batch).1.facts[sf.factId]? = some sf' := by
  induction batch generalizing r report dirty with
  | nil => cases hmem
  | cons head batch ih =>
    have hsub' : ∀ sf ∈ batch, sf ∈ L := fun x hx => hsub x (mem_cons_of_mem head hx)
    by_cases hadm : r.Admits head
    · rw [mergeLoop_cons_of_admits hadm]
      have hwf' := hwf.insertFact hadm
      have hstored' : ∀ (id : FactId) (sf : SignedFact),
          (r.insertFact head).facts[id]? = some sf → sf ∈ L := by
        intro id x hget
        obtain hold | ⟨hin, -⟩ := (Extends.insertFact hadm mem_cons_self).adds id x hget
        · exact hstored id x hold
        · exact hsub x hin
      obtain rfl | hin := mem_cons.mp hmem
      · -- just inserted, and never removed
        refine ⟨sf, (mergeLoop_extends hwf' _ _ batch).2.keeps _ _ ?_⟩
        rw [insertFact_facts, getElem?_facts_insert, if_pos rfl]
      · exact ih hwf' (by rwa [insertFact_fabricId]) hsub' hstored' _ _ hin
          (by rwa [insertFact_fabricId])
    · obtain ⟨r₁, report₁, heq, hcore, -⟩ :=
        mergeLoop_cons_of_not_admits hadm report dirty batch
      rw [heq]
      have hwf₁ := hwf.of_sameCore hcore
      obtain rfl | hin := mem_cons.mp hmem
      · -- not admitted although acceptable: its id is taken
        have htaken : ∃ sf' : SignedFact, r.facts[sf.factId]? = some sf' := by
          by_contra hfree
          refine hadm ⟨hacc, ?_, fun hkind => ?_⟩
          · cases hget : r.facts[sf.factId]? with
            | none => rfl
            | some sf' => exact absurd ⟨sf', hget⟩ hfree
          · cases hg : r.genesisFactId with
            | none => exact .inl rfl
            | some id =>
              obtain ⟨g, hget, hgk, -⟩ := hwf.genesis_stored id hg
              obtain ⟨hid, hgacc⟩ := hwf.stored id g hget
              have := hone g (hstored id g hget) sf (hsub sf hmem) hgacc hacc hgk hkind
              exact .inr (by rw [hid, this])
        obtain ⟨sf', hget⟩ := htaken
        refine ⟨sf', (mergeLoop_extends hwf₁ _ _ batch).2.keeps _ _ ?_⟩
        rw [hcore.facts_eq, hget]
      · exact ih hwf₁ (by rwa [hcore.fabric_eq]) hsub' (by rwa [hcore.facts_eq]) _ _ hin
          (by rwa [hcore.fabric_eq])

end Roster

/-! ## Batch after batch -/

def Handle.mergeAll (h : Handle) (batches : List (List SignedFact × PersistIo)) : Handle :=
  batches.foldl (fun h batch => (h.merge batch.1 batch.2).1) h

def shown (batches : List (List SignedFact × PersistIo)) : List SignedFact :=
  (batches.map Prod.fst).flatten

theorem Handle.merge_roster (h : Handle) (facts : List SignedFact) (io : PersistIo) :
    (h.merge facts io).1.roster = (h.roster.mergeLoop ⟨0, 0, 0⟩ false facts).1 := by
  unfold Handle.merge
  simp only
  split
  · rw [Handle.persisting_roster]
  · rfl

theorem mergeAll_spec {L : List SignedFact} (hwf : h.roster.WellFormed)
    (hone : OneGenesis h.roster.fabricId L)
    (hstored : ∀ (id : FactId) (sf : SignedFact), h.roster.facts[id]? = some sf → sf ∈ L)
    (batches : List (List SignedFact × PersistIo)) (hsub : ∀ sf ∈ shown batches, sf ∈ L) :
    (h.mergeAll batches).roster.WellFormed ∧
      Roster.Extends (shown batches) h.roster (h.mergeAll batches).roster ∧
      ∀ sf ∈ shown batches, sf.Acceptable h.roster.fabricId →
        ∃ sf' : SignedFact, (h.mergeAll batches).roster.facts[sf.factId]? = some sf' := by
  induction batches generalizing h with
  | nil => exact ⟨hwf, .refl _ _, by simp [shown]⟩
  | cons batch batches ih =>
    have hshown : shown (batch :: batches) = batch.1 ++ shown batches := rfl
    rw [hshown] at hsub ⊢
    have hsub₁ : ∀ sf ∈ batch.1, sf ∈ L := fun sf hsf => hsub sf (mem_append_left _ hsf)
    have hsub₂ : ∀ sf ∈ shown batches, sf ∈ L := fun sf hsf => hsub sf (mem_append_right _ hsf)
    obtain ⟨hwf₁, hext₁⟩ := Roster.mergeLoop_extends hwf ⟨0, 0, 0⟩ false batch.1
    have hstores := fun sf (hsf : sf ∈ batch.1) hacc =>
      Roster.mergeLoop_stores hwf hone hsub₁ hstored ⟨0, 0, 0⟩ false hsf hacc
    rw [← Handle.merge_roster h batch.1 batch.2] at hwf₁ hext₁ hstores
    have hstored₁ : ∀ (id : FactId) (sf : SignedFact),
        (h.merge batch.1 batch.2).1.roster.facts[id]? = some sf → sf ∈ L := by
      intro id sf hget
      obtain hold | ⟨hin, -⟩ := hext₁.adds id sf hget
      · exact hstored id sf hold
      · exact hsub₁ sf hin
    obtain ⟨hwf₂, hext₂, hstores₂⟩ :=
      ih hwf₁ (by rwa [hext₁.fabric_eq]) hstored₁ hsub₂
    rw [hext₁.fabric_eq] at hstores₂
    refine ⟨hwf₂, (hext₁.mono fun sf hsf => mem_append_left _ hsf).trans
      (hext₂.mono fun sf hsf => mem_append_right _ hsf), fun sf hsf hacc => ?_⟩
    obtain hin | hin := mem_append.mp hsf
    · obtain ⟨sf', hget⟩ := hstores sf hin hacc
      exact ⟨sf', hext₂.keeps _ _ hget⟩
    · exact hstores₂ sf hin hacc

/-- A roster as `attach` returns it while it holds no fact yet. -/
structure Handle.AttachedEmpty (h : Handle) (fabricId : FabricId) : Prop where
  attached : ∃ dir io, Roster.attach dir fabricId io = (h.dir, .ok h.roster)
  empty : h.roster.facts = ∅

theorem Handle.AttachedEmpty.getElem? (hempty : h.AttachedEmpty fabricId) (id : FactId) :
    h.roster.facts[id]? = none := by
  rw [hempty.empty, getElem?_empty]

theorem Handle.AttachedEmpty.spec (hempty : h.AttachedEmpty fabricId) :
    h.roster.WellFormed ∧ h.roster.fabricId = fabricId := by
  obtain ⟨dir, io, hattach⟩ := hempty.attached
  obtain ⟨hloaded, hfabric⟩ := Roster.loaded_of_attach hattach
  exact ⟨hloaded.wellFormed, hfabric⟩

section Converge

variable {fabricId : FabricId} {L : List SignedFact} {h : Handle}
  {batches : List (List SignedFact × PersistIo)}

/-- What a store knows after its batches: some signature of every acceptable fact shown,
under the fact's id, and nothing else. -/
theorem getElem?_mergeAll (hempty : h.AttachedEmpty fabricId) (hone : OneGenesis fabricId L)
    (hcoll : CollisionFree (L.map fun sf => sf.fact.layout))
    (hshown : ∀ sf, sf ∈ shown batches ↔ sf ∈ L) (id : FactId) (f : Fact) :
    ((h.mergeAll batches).roster.facts[id]?).map SignedFact.fact = some f ↔
      ∃ sf ∈ L, sf.Acceptable fabricId ∧ sf.factId = id ∧ sf.fact = f := by
  obtain ⟨hwf, hfabric⟩ := hempty.spec
  subst hfabric
  obtain ⟨hwf', hext, hstores⟩ := mergeAll_spec hwf hone
    (fun id sf hget => by rw [hempty.getElem?] at hget; cases hget) batches
    (fun sf hsf => (hshown sf).mp hsf)
  have hfrom : ∀ (id : FactId) (sf : SignedFact),
      (h.mergeAll batches).roster.facts[id]? = some sf →
        sf ∈ L ∧ id = sf.factId ∧ sf.Acceptable h.roster.fabricId := by
    intro id sf hget
    obtain hold | ⟨hin, -, hid, hacc⟩ := hext.adds id sf hget
    · rw [hempty.getElem?] at hold
      cases hold
    · exact ⟨(hshown sf).mp hin, hid, hacc⟩
  rw [map_eq_some_iff]
  constructor
  · rintro ⟨sf, hget, rfl⟩
    obtain ⟨hin, hid, hacc⟩ := hfrom id sf hget
    exact ⟨sf, hin, hacc, hid.symm, rfl⟩
  · rintro ⟨sf, hin, hacc, rfl, rfl⟩
    obtain ⟨sf', hget⟩ := hstores sf ((hshown sf).mpr hin) hacc
    obtain ⟨hin', hid, hacc'⟩ := hfrom _ sf' hget
    exact ⟨sf', hget, fact_eq_of_factId_eq hcoll hin' hin hacc' hacc hid.symm⟩

/-- **Merge is union**: the stored facts are the acceptable facts shown. -/
theorem factSet_mergeAll (hempty : h.AttachedEmpty fabricId) (hone : OneGenesis fabricId L)
    (hcoll : CollisionFree (L.map fun sf => sf.fact.layout))
    (hshown : ∀ sf, sf ∈ shown batches ↔ sf ∈ L) :
    (h.mergeAll batches).roster.factSet =
      {f | ∃ sf ∈ L, sf.Acceptable fabricId ∧ sf.fact = f} := by
  ext f
  simp only [Roster.factSet, Set.mem_ofPred_eq]
  constructor
  · rintro ⟨id, sf, hget, rfl⟩
    obtain ⟨sf', hin, hacc, -, heq⟩ :=
      (getElem?_mergeAll hempty hone hcoll hshown id sf.fact).mp (by rw [hget]; rfl)
    exact ⟨sf', hin, hacc, heq⟩
  · rintro ⟨sf, hin, hacc, rfl⟩
    have hget := (getElem?_mergeAll hempty hone hcoll hshown sf.factId sf.fact).mpr
      ⟨sf, hin, hacc, rfl, rfl⟩
    obtain ⟨sf', hget', heq⟩ := map_eq_some_iff.mp hget
    exact ⟨sf.factId, sf', hget', heq⟩

end Converge

namespace Roster

/-! ## Stores that agree up to signatures -/

/-- Same facts under the same ids, whichever valid signature each store kept. -/
def SameFacts (r r' : Roster) : Prop :=
  ∀ id : FactId, (r.facts[id]?).map SignedFact.fact = (r'.facts[id]?).map SignedFact.fact

variable {r r' : Roster}

theorem SameFacts.symm (h : SameFacts r r') : SameFacts r' r :=
  fun id => (h id).symm

theorem SameFacts.getElem? (h : SameFacts r r') {id : FactId} {sf : SignedFact}
    (hget : r.facts[id]? = some sf) :
    ∃ sf' : SignedFact, r'.facts[id]? = some sf' ∧ sf'.fact = sf.fact := by
  have := h id
  rw [hget] at this
  exact map_eq_some_iff.mp this.symm

theorem SameFacts.values_eq (h : SameFacts r r') :
    r.values.map SignedFact.fact = r'.values.map SignedFact.fact := by
  have hmap : r.facts.map (fun _ sf => sf.fact) = r'.facts.map (fun _ sf => sf.fact) := by
    apply ExtTreeMap.ext_getElem?
    intro id
    rw [ExtTreeMap.getElem?_map, ExtTreeMap.getElem?_map]
    exact h id
  have hlist := congrArg (fun m => m.toList.map Prod.snd) hmap
  simp only [ExtTreeMap.toList_map, List.map_map, Function.comp_def] at hlist
  simpa only [values, List.map_map, Function.comp_def] using hlist

theorem SameFacts.genesis_imp (h : SameFacts r r') (hwf : r.WellFormed) (hwf' : r'.WellFormed)
    {id : FactId} (hg : r.genesisFactId = some id) :
    r'.genesisFactId = some id ∧ r'.root = r.root := by
  obtain ⟨g, hget, hkind, hroot⟩ := hwf.genesis_stored id hg
  obtain ⟨g', hget', hfact⟩ := h.getElem? hget
  have hg' := hwf'.genesis_unique id g' hget' (hfact ▸ hkind)
  obtain ⟨g'', hget'', -, hroot'⟩ := hwf'.genesis_stored id hg'
  rw [hget'] at hget''
  obtain rfl := some.inj hget''
  exact ⟨hg', by rw [hroot', hroot, hfact]⟩

theorem SameFacts.genesis_eq (h : SameFacts r r') (hwf : r.WellFormed) (hwf' : r'.WellFormed) :
    r.genesisFactId = r'.genesisFactId ∧ r.root = r'.root := by
  cases hg : r.genesisFactId with
  | some id =>
    obtain ⟨hg', hroot⟩ := h.genesis_imp hwf hwf' hg
    exact ⟨hg'.symm, hroot.symm⟩
  | none =>
    cases hg' : r'.genesisFactId with
    | none => exact ⟨rfl, by rw [hwf.root_none hg, hwf'.root_none hg']⟩
    | some id =>
      obtain ⟨hback, -⟩ := h.symm.genesis_imp hwf' hwf hg'
      rw [hg] at hback
      cases hback

/-- **The projection depends on no signature.** -/
theorem effectiveMembers_congr (h : SameFacts r r') (hwf : r.WellFormed) (hwf' : r'.WellFormed)
    (nowMs : UInt64) : r.effectiveMembers nowMs = r'.effectiveMembers nowMs := by
  obtain ⟨hgenesis, hroot⟩ := h.genesis_eq hwf hwf'
  have hsince : r.genesisIssuedAt = r'.genesisIssuedAt := by
    unfold genesisIssuedAt
    rw [hgenesis]
    cases r'.genesisFactId with
    | none => rfl
    | some id =>
      have := congrArg (Option.map Fact.issuedAtMs) (h id)
      simp only [Option.map_map, Function.comp_def] at this
      simp only [bind_some, this]
  unfold effectiveMembers
  rw [hroot, hsince, h.values_eq]

end Roster

/-- **Merge convergence.** Two empty attached rosters of one fabric that are shown the
same list of facts, each in its own order, with its own repetitions and in its own batches,
store the same ids and agree on root, Genesis and projection. -/
theorem merge_converges {fabricId : FabricId} {L : List SignedFact}
    (hone : OneGenesis fabricId L) (hcoll : CollisionFree (L.map fun sf => sf.fact.layout))
    {h h' : Handle} (hempty : h.AttachedEmpty fabricId) (hempty' : h'.AttachedEmpty fabricId)
    {batches batches' : List (List SignedFact × PersistIo)}
    (hshown : ∀ sf, sf ∈ shown batches ↔ sf ∈ L)
    (hshown' : ∀ sf, sf ∈ shown batches' ↔ sf ∈ L) :
    (∀ id : FactId, id ∈ (h.mergeAll batches).roster.facts ↔
      id ∈ (h'.mergeAll batches').roster.facts) ∧
    (h.mergeAll batches).roster.root = (h'.mergeAll batches').roster.root ∧
    (h.mergeAll batches).roster.genesisFactId = (h'.mergeAll batches').roster.genesisFactId ∧
    ∀ nowMs, (h.mergeAll batches).roster.effectiveMembers nowMs =
      (h'.mergeAll batches').roster.effectiveMembers nowMs := by
  have hsame : Roster.SameFacts (h.mergeAll batches).roster (h'.mergeAll batches').roster := by
    intro id
    apply Option.ext
    intro f
    rw [getElem?_mergeAll hempty hone hcoll hshown, getElem?_mergeAll hempty' hone hcoll hshown']
  have hwellFormed : ∀ {h : Handle} {batches : List (List SignedFact × PersistIo)},
      h.AttachedEmpty fabricId → (∀ sf, sf ∈ shown batches ↔ sf ∈ L) →
        (h.mergeAll batches).roster.WellFormed := by
    intro h batches hempty hshown
    obtain ⟨hwf, hfabric⟩ := hempty.spec
    exact (mergeAll_spec hwf (hfabric.symm ▸ hone)
      (fun id sf hget => by rw [hempty.getElem?] at hget; cases hget) batches
      (fun sf hsf => (hshown sf).mp hsf)).1
  have hwf := hwellFormed hempty hshown
  have hwf' := hwellFormed hempty' hshown'
  obtain ⟨hgenesis, hroot⟩ := hsame.genesis_eq hwf hwf'
  refine ⟨fun id => ?_, hroot, hgenesis, Roster.effectiveMembers_congr hsame hwf hwf'⟩
  have hid := congrArg Option.isSome (hsame id)
  simp only [isSome_map] at hid
  rw [mem_iff_isSome_getElem?, mem_iff_isSome_getElem?, hid]

end Dweb

namespace Dweb

attribute [local instance] Sample.crypto

theorem Sample.attached_empty (path : String) :
    (Sample.attached path).AttachedEmpty Sample.fabricId :=
  ⟨⟨Sample.dir path, .done, Roster.attach_missing rfl rfl _⟩, rfl⟩

theorem factSet_mergeAll_genesis :
    ((Sample.attached "/a").mergeAll [([Sample.genesis], .done)]).roster.factSet
      = {Sample.genesis.fact} := by
  have hone : OneGenesis Sample.fabricId [Sample.genesis] := by
    intro sf hsf sf' hsf' _ _ _ _
    rw [List.mem_singleton.mp hsf, List.mem_singleton.mp hsf']
  have hcoll : CollisionFree ([Sample.genesis].map fun sf => sf.fact.layout) := by
    unfold CollisionFree
    decide +kernel
  have hacc : Sample.genesis.Acceptable Sample.fabricId :=
    ⟨rfl, by decide +kernel, by decide +kernel⟩
  rw [factSet_mergeAll (Sample.attached_empty "/a") hone hcoll fun sf => by
    simp only [shown, List.map_cons, List.map_nil, List.flatten_cons, List.flatten_nil,
      List.append_nil]]
  ext f
  constructor
  · rintro ⟨sf, hsf, -, rfl⟩
    exact congrArg SignedFact.fact (List.mem_singleton.mp hsf)
  · intro hf
    exact ⟨Sample.genesis, List.mem_singleton_self _, hacc, hf.symm⟩

theorem merge_converges_grant_first :
    ((Sample.attached "/a").mergeAll
        [([Sample.grant], .done), ([Sample.genesis, Sample.grant], .done)]).roster.effectiveMembers
          5000 =
      ((Sample.attached "/b").mergeAll
        [([Sample.genesis, Sample.grant, Sample.genesis], .done)]).roster.effectiveMembers 5000 := by
  have hone : OneGenesis Sample.fabricId [Sample.genesis, Sample.grant] := by
    have hkind : Sample.grant.fact.kind ≠ .genesis := by decide +kernel
    intro sf hsf sf' hsf' _ _ hg hg'
    simp only [List.mem_cons, List.not_mem_nil, or_false] at hsf hsf'
    obtain rfl | rfl := hsf
    · obtain rfl | rfl := hsf'
      · rfl
      · exact absurd hg' hkind
    · exact absurd hg hkind
  have hcoll : CollisionFree ([Sample.genesis, Sample.grant].map fun sf => sf.fact.layout) := by
    unfold CollisionFree
    decide +kernel
  refine (merge_converges hone hcoll (Sample.attached_empty "/a") (Sample.attached_empty "/b")
    ?_ ?_).2.2.2 5000
  · intro sf
    simp only [shown, List.map_cons, List.map_nil, List.flatten_cons, List.flatten_nil,
      List.append_nil, List.cons_append, List.nil_append, List.mem_cons, List.not_mem_nil, or_false]
    tauto
  · intro sf
    simp only [shown, List.map_cons, List.map_nil, List.flatten_cons, List.flatten_nil,
      List.append_nil, List.mem_cons, List.not_mem_nil, or_false]
    tauto

end Dweb
