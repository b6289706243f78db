import OpenDweb.Fabric.RosterRuns

/-!
# OpenDweb — authorization of the projection

Who is a member is a property of the *set* of stored facts: the root, and every subject of
a live root grant. This module states that meaning and connects the projection to it.

* **`LiveGrant`**, **`Admitted`** — the meaning, over an arbitrary set of facts;
* **`mem_liveGrants`**, **`Roster.getElem?_admitting`** — the projection's tables compute
  it, and the admitting fact is the earliest live grant;
* **`effectiveMembers_authorized`** — soundness, completeness and uniqueness of the
  projection in every reachable store, and that facts the root did not sign change nothing.
-/

namespace Dweb

open Std (ExtTreeMap)
open Option Std.ExtTreeMap

variable [Crypto]

/-! ## The meaning of a fact set -/

/-- The revoke `rev` covers the grant `g`: it targets it or, untargeted, names its subject. -/
def Fact.Covers (rev g : Fact) : Prop :=
  rev.targetFactId = some g.factId ∨ (rev.targetFactId = none ∧ rev.subject = g.subject)

/-- The fact names `e` as issuer and its signature verifies under `e`. -/
def SignedFact.SignedBy (sf : SignedFact) (e : EndpointId) : Prop :=
  sf.fact.issuer = e ∧ sf.verify = .ok ()

/-- A root grant of `S` in force at `nowMs`. -/
structure LiveGrant (S : Set Fact) (root : EndpointId) (nowMs : UInt64) (g : Fact) : Prop where
  mem : g ∈ S
  kind : g.kind = .grant
  issuer : g.issuer = root
  valid : g.isValidAt nowMs = true
  uncovered : ∀ rev ∈ S, rev.kind = .revoke → rev.issuer = root → rev.isValidAt nowMs = true →
    ¬rev.Covers g

/-- Who `S` makes a member under `root`. -/
def Admitted (S : Set Fact) (root : EndpointId) (nowMs : UInt64) (e : EndpointId) : Prop :=
  e = root ∨ ∃ g, LiveGrant S root nowMs g ∧ g.subject = e

theorem LiveGrant.of_root_issued {S S' : Set Fact} {root : EndpointId} {nowMs : UInt64}
    {g : Fact} (hsame : ∀ f, f.issuer = root → (f ∈ S' ↔ f ∈ S))
    (h : LiveGrant S root nowMs g) : LiveGrant S' root nowMs g where
  mem := (hsame g h.issuer).mpr h.mem
  kind := h.kind
  issuer := h.issuer
  valid := h.valid
  uncovered := fun rev hrev hkind hissuer =>
    h.uncovered rev ((hsame rev hissuer).mp hrev) hkind hissuer

namespace Roster

/-! ## The tables -/

variable {root e : EndpointId} {nowMs : UInt64} {facts : List Fact} {g f : Fact} {r : Roster}

theorem mem_revokes {rev : Fact} :
    rev ∈ revokes root nowMs facts ↔
      rev ∈ facts ∧ rev.kind = .revoke ∧ rev.issuer = root ∧ rev.isValidAt nowMs = true := by
  simp [revokes]

theorem grantAlive_iff {revs : List Fact} :
    grantAlive revs g = true ↔ ∀ rev ∈ revs, ¬rev.Covers g := by
  unfold grantAlive Fact.Covers
  rw [Bool.not_eq_true', List.any_eq_false]
  refine forall₂_congr fun rev _ => ?_
  cases rev.targetFactId <;> simp

theorem mem_liveGrants :
    g ∈ liveGrants root nowMs facts ↔
      LiveGrant {f | f ∈ facts} root nowMs g ∧ g.subject ≠ root := by
  simp only [liveGrants, List.mem_filter, Bool.decide_and, Bool.and_eq_true, decide_eq_true_eq,
    Bool.decide_eq_true, grantAlive_iff, mem_revokes]
  constructor
  · rintro ⟨hmem, hkind, hissuer, hsubject, hvalid, halive⟩
    exact ⟨⟨hmem, hkind, hissuer, hvalid,
      fun rev hrev hk hi hv => halive rev ⟨hrev, hk, hi, hv⟩⟩, hsubject⟩
  · rintro ⟨hlive, hsubject⟩
    refine ⟨hlive.mem, hlive.kind, hlive.issuer, hsubject, hlive.valid, ?_⟩
    rintro rev ⟨hrev, hk, hi, hv⟩
    exact hlive.uncovered rev hrev hk hi hv

def IdsDistinct (facts : List Fact) : Prop :=
  ∀ f ∈ facts, ∀ f' ∈ facts, f.factId = f'.factId → f = f'

theorem factRank_inj (hids : IdsDistinct facts) {f' : Fact} (hf : f ∈ facts) (hf' : f' ∈ facts)
    (hrank : factRank f = factRank f') : f = f' := by
  have hpair : (f.issuedAtMs, f.factId) = (f'.issuedAtMs, f'.factId) := toLex.injective hrank
  exact hids f hf f' hf' (Prod.mk.inj hpair).2

theorem mem_candidates :
    (e, g) ∈ (liveGrants root nowMs facts).map (fun f => (f.subject, f)) ↔
      LiveGrant {f | f ∈ facts} root nowMs g ∧ g.subject = e ∧ e ≠ root := by
  simp only [List.mem_map, Prod.mk.injEq, mem_liveGrants]
  constructor
  · rintro ⟨f, ⟨hlive, hne⟩, rfl, rfl⟩
    exact ⟨hlive, rfl, hne⟩
  · rintro ⟨hlive, rfl, hne⟩
    exact ⟨g, ⟨hlive, hne⟩, rfl, rfl⟩

theorem exists_admitting : (∃ g, (admitting root nowMs facts)[e]? = some g) ↔
      ∃ g, LiveGrant {f | f ∈ facts} root nowMs g ∧ g.subject = e ∧ e ≠ root := by
  unfold admitting
  rw [getElem?_foldKeepMin_isSome]
  exact exists_congr fun g => mem_candidates

/-- **The admitting fact of a subject is its earliest live grant.** -/
theorem getElem?_admitting (hids : IdsDistinct facts) :
    (admitting root nowMs facts)[e]? = some g ↔
      (LiveGrant {f | f ∈ facts} root nowMs g ∧ g.subject = e ∧ e ≠ root) ∧
        ∀ g', LiveGrant {f | f ∈ facts} root nowMs g' → g'.subject = e →
          factRank g ≤ factRank g' := by
  unfold admitting
  rw [getElem?_foldKeepMin]
  · unfold IsBest
    rw [mem_candidates]
    refine and_congr_right fun ⟨_, _, hne⟩ => forall_congr' fun g' => ?_
    rw [mem_candidates]
    exact ⟨fun h hl hs => h ⟨hl, hs, hne⟩, fun h ⟨hl, hs, _⟩ => h hl hs⟩
  · intro v w hv hw hrank
    exact factRank_inj hids (mem_candidates.mp hv).1.mem (mem_candidates.mp hw).1.mem hrank

/-! ## The member list -/

theorem mem_project {sinceMs : UInt64} {since : UInt64} :
    (e, since) ∈ (project root sinceMs nowMs facts).map (fun m => (m.endpointId, m.sinceMs)) ↔
      (e = root ∧ since = sinceMs) ∨
        ∃ g, (admitting root nowMs facts)[e]? = some g ∧ since = g.issuedAtMs := by
  simp only [project, List.map_cons, List.mem_cons, Prod.mk.injEq, List.map_map, List.mem_map,
    Function.comp_apply, Prod.exists, mem_toList_iff_getElem?_eq_some]
  refine or_congr_right ⟨?_, ?_⟩
  · rintro ⟨e', g, hget, rfl, rfl⟩
    exact ⟨g, hget, rfl⟩
  · rintro ⟨g, hget, rfl⟩
    exact ⟨e, g, hget, rfl, rfl⟩

theorem nodup_project {sinceMs : UInt64} (hids : IdsDistinct facts) :
    ((project root sinceMs nowMs facts).map Member.endpointId).Nodup := by
  have hkeys : (project root sinceMs nowMs facts).map Member.endpointId =
      root :: (admitting root nowMs facts).toList.map Prod.fst := by
    rw [project, List.map_cons, List.map_map]
    rfl
  rw [hkeys, List.nodup_cons]
  refine ⟨fun hroot => ?_, ?_⟩
  · obtain ⟨⟨e, g⟩, hmem, rfl⟩ := List.mem_map.mp hroot
    have hget := mem_toList_iff_getElem?_eq_some.mp hmem
    exact ((getElem?_admitting hids).mp hget).1.2.2 rfl
  · rw [List.Nodup, List.pairwise_map]
    refine (distinct_keys_toList (t := admitting root nowMs facts)).imp ?_
    intro a b hne heq
    exact hne (by rw [heq]; exact Std.ReflCmp.compare_self)

/-! ## Reading the store -/

def factSet (r : Roster) : Set Fact := {f | ∃ (id : FactId) (sf : SignedFact),
  r.facts[id]? = some sf ∧ sf.fact = f}

theorem mem_map_values : f ∈ r.values.map SignedFact.fact ↔ f ∈ r.factSet := by
  simp only [List.mem_map, mem_values, factSet, Set.mem_ofPred_eq]
  constructor
  · rintro ⟨sf, ⟨id, hget⟩, rfl⟩
    exact ⟨id, sf, hget, rfl⟩
  · rintro ⟨id, sf, hget, rfl⟩
    exact ⟨sf, ⟨id, hget⟩, rfl⟩

theorem WellFormed.idsDistinct (hwf : r.WellFormed) :
    IdsDistinct (r.values.map SignedFact.fact) := by
  intro f hf f' hf' heq
  obtain ⟨id, sf, hget, rfl⟩ := mem_map_values.mp hf
  obtain ⟨id', sf', hget', rfl⟩ := mem_map_values.mp hf'
  obtain rfl := (hwf.stored id sf hget).1
  obtain rfl := (hwf.stored id' sf' hget').1
  have hsame : sf.factId = sf'.factId := heq
  rw [hsame, hget'] at hget
  rw [some.inj hget]

/-- A stored grant with a verifying signature by the root, unexpired, that no stored
unexpired revoke by the root targets or, untargeted, covers through its subject. -/
structure RootGrant (r : Roster) (root : EndpointId) (nowMs : UInt64) (id : FactId)
    (g : SignedFact) : Prop where
  stored : r.facts[id]? = some g
  verifies : g.verify = .ok ()
  kind : g.fact.kind = .grant
  issuer : g.fact.issuer = root
  valid : g.fact.isValidAt nowMs = true
  unrevoked : ∀ (id' : FactId) (rev : SignedFact), r.facts[id']? = some rev →
    rev.fact.kind = .revoke → rev.fact.issuer = root → rev.fact.isValidAt nowMs = true →
      ¬(rev.fact.targetFactId = some id ∨
        (rev.fact.targetFactId = none ∧ rev.fact.subject = g.fact.subject))

theorem WellFormed.liveGrant_iff (hwf : r.WellFormed) :
    LiveGrant r.factSet root nowMs f ↔ ∃ id g, r.RootGrant root nowMs id g ∧ g.fact = f := by
  constructor
  · intro hlive
    obtain ⟨id, g, hget, rfl⟩ := hlive.mem
    obtain ⟨hid, hacc⟩ := hwf.stored id g hget
    refine ⟨id, g, ⟨hget, hacc.verifies, hlive.kind, hlive.issuer, hlive.valid, ?_⟩, rfl⟩
    intro id' rev hrev hkind hissuer hvalid
    rw [hid]
    exact hlive.uncovered rev.fact ⟨id', rev, hrev, rfl⟩ hkind hissuer hvalid
  · rintro ⟨id, g, hg, rfl⟩
    refine ⟨⟨id, g, hg.stored, rfl⟩, hg.kind, hg.issuer, hg.valid, ?_⟩
    rintro _ ⟨id', rev, hrev, rfl⟩ hkind hissuer hvalid
    have hid : id = g.factId := (hwf.stored id g hg.stored).1
    have := hg.unrevoked id' rev hrev hkind hissuer hvalid
    rwa [hid] at this

theorem setOf_mem_values (r : Roster) : {f | f ∈ r.values.map SignedFact.fact} = r.factSet := by
  ext f
  exact mem_map_values

/-- Members with their `since_ms`: the root since its Genesis, everyone else since the
earliest live grant. -/
theorem WellFormed.mem_effectiveMembers (hwf : r.WellFormed) (hroot : r.root = some root)
    {since : UInt64} :
    (e, since) ∈ (r.effectiveMembers nowMs).map (fun m => (m.endpointId, m.sinceMs)) ↔
      (e = root ∧ since = r.genesisIssuedAt) ∨
        ∃ g, (LiveGrant r.factSet root nowMs g ∧ g.subject = e ∧ e ≠ root) ∧
          (∀ g', LiveGrant r.factSet root nowMs g' → g'.subject = e →
            factRank g ≤ factRank g') ∧ since = g.issuedAtMs := by
  rw [effectiveMembers, hroot]
  simp only [mem_project, getElem?_admitting hwf.idsDistinct, setOf_mem_values, and_assoc]

/-- **The projection is exactly the admitted subjects.** -/
theorem WellFormed.isMember_iff (hwf : r.WellFormed) (hroot : r.root = some root) :
    (∃ m ∈ r.effectiveMembers nowMs, m.endpointId = e) ↔ Admitted r.factSet root nowMs e := by
  have hmem : (∃ m ∈ r.effectiveMembers nowMs, m.endpointId = e) ↔
      ∃ since, (e, since) ∈ (r.effectiveMembers nowMs).map (fun m => (m.endpointId, m.sinceMs)) := by
    simp only [List.mem_map, Prod.mk.injEq]
    constructor
    · rintro ⟨m, hm, rfl⟩
      exact ⟨m.sinceMs, m, hm, rfl, rfl⟩
    · rintro ⟨since, m, hm, rfl, -⟩
      exact ⟨m, hm, rfl⟩
  rw [hmem]
  constructor
  · rintro ⟨since, hs⟩
    obtain ⟨rfl, -⟩ | ⟨g, ⟨hlive, hsubject, -⟩, -⟩ := (hwf.mem_effectiveMembers hroot).mp hs
    · exact .inl rfl
    · exact .inr ⟨g, hlive, hsubject⟩
  · intro hadm
    by_cases hne : e = root
    · exact ⟨_, (hwf.mem_effectiveMembers hroot).mpr (.inl ⟨hne, rfl⟩)⟩
    · obtain hroot' | ⟨g, hlive, hsubject⟩ := hadm
      · exact absurd hroot' hne
      -- some live grant exists, so the table has an earliest one
      obtain ⟨g', hget⟩ := exists_admitting.mpr
        ⟨g, (setOf_mem_values r).symm ▸ hlive, hsubject, hne⟩
      have hbest := (getElem?_admitting hwf.idsDistinct).mp hget
      rw [setOf_mem_values] at hbest
      exact ⟨_, (hwf.mem_effectiveMembers hroot).mpr (.inr ⟨g', hbest.1, hbest.2, rfl⟩)⟩

/-! ## Facts the root did not sign -/

variable {batch : List SignedFact} {r' : Roster}

theorem Extends.root_issued (hext : Extends batch r r') (hbatch : ∀ sf ∈ batch, ¬sf.SignedBy root)
    (hissuer : f.issuer = root) : f ∈ r'.factSet ↔ f ∈ r.factSet := by
  constructor
  · rintro ⟨id, sf, hget, rfl⟩
    obtain hold | ⟨hmem, -, -, hacc⟩ := hext.adds id sf hget
    · exact ⟨id, sf, hold, rfl⟩
    · exact absurd ⟨hissuer, hacc.verifies⟩ (hbatch sf hmem)
  · rintro ⟨id, sf, hget, rfl⟩
    exact ⟨id, sf, hext.keeps id sf hget, rfl⟩

theorem WellFormed.effectiveMembers_of_not_signed (hwf : r.WellFormed) (hwf' : r'.WellFormed)
    (hext : Extends batch r r') (hroot : r.root = some root)
    (hbatch : ∀ sf ∈ batch, ¬sf.SignedBy root) (nowMs : UInt64) :
    r'.root = some root ∧ ∀ e since,
      (e, since) ∈ (r'.effectiveMembers nowMs).map (fun m => (m.endpointId, m.sinceMs)) ↔
        (e, since) ∈ (r.effectiveMembers nowMs).map (fun m => (m.endpointId, m.sinceMs)) := by
  obtain ⟨id, g, hid, hget, -, -⟩ := hwf.genesis_of_root hroot
  have hroot' : r'.root = some root := hext.root_keeps root (by rw [hid]; simp) hroot
  have hsince : r'.genesisIssuedAt = r.genesisIssuedAt := by
    simp only [genesisIssuedAt, hid, hext.genesis_keeps id hid, bind_some, hget,
      hext.keeps id g hget]
  have hlive : ∀ f, LiveGrant r'.factSet root nowMs f ↔ LiveGrant r.factSet root nowMs f :=
    fun f => ⟨fun h => h.of_root_issued fun f hf => (hext.root_issued hbatch hf).symm,
      fun h => h.of_root_issued fun f hf => hext.root_issued hbatch hf⟩
  refine ⟨hroot', fun e since => ?_⟩
  rw [hwf'.mem_effectiveMembers hroot', hwf.mem_effectiveMembers hroot]
  simp only [hsince, hlive]

theorem Extends.signed_of_new_root (hwf' : r'.WellFormed) (hext : Extends batch r r')
    (hwf : r.WellFormed) (hnone : r.root = none) (hroot : r'.root = some root) :
    ∃ sf ∈ batch, sf.SignedBy root := by
  obtain ⟨id, g, hid, hget, hkind, hissuer⟩ := hwf'.genesis_of_root hroot
  obtain hold | ⟨hmem, -, -, hacc⟩ := hext.adds id g hget
  · -- a Genesis already stored would have rooted the store
    obtain ⟨g', hget', -, hr⟩ := hwf.genesis_stored id (hwf.genesis_unique id g hold hkind)
    rw [hnone] at hr
    cases hr
  · exact ⟨g, hmem, hissuer, hacc.verifies⟩

end Roster

/-- **Authorization soundness and completeness.** In every reachable store: who is in the
projection, that everyone is in it once, since when, and that a merge of facts the root did
not sign changes none of it, unless it is the merge that establishes the root. -/
theorem effectiveMembers_authorized {h : Handle} (hreach : rosterMachine.Reachable h)
    (nowMs : UInt64) :
    (∀ e, (∃ m ∈ h.roster.effectiveMembers nowMs, m.endpointId = e) ↔
      ∃ root, h.roster.root = some root ∧
        (e = root ∨ ∃ id g, h.roster.RootGrant root nowMs id g ∧ g.fact.subject = e)) ∧
    ((h.roster.effectiveMembers nowMs).map Member.endpointId).Nodup ∧
    (∀ m ∈ h.roster.effectiveMembers nowMs,
      (h.roster.root = some m.endpointId ∧ ∃ id g, h.roster.genesisFactId = some id ∧
        h.roster.facts[id]? = some g ∧ g.fact.kind = .genesis ∧
          m.sinceMs = g.fact.issuedAtMs) ∨
      (∃ root id g, h.roster.root = some root ∧ m.endpointId ≠ root ∧
        h.roster.RootGrant root nowMs id g ∧ g.fact.subject = m.endpointId ∧
        m.sinceMs = g.fact.issuedAtMs ∧
        ∀ id' g', h.roster.RootGrant root nowMs id' g' → g'.fact.subject = m.endpointId →
          toLex (g.fact.issuedAtMs, id) ≤ toLex (g'.fact.issuedAtMs, id'))) ∧
    ∀ facts io, (∀ root, h.roster.root = some root → ∀ sf ∈ facts, ¬sf.SignedBy root) →
      (h.roster.root = none ∧ ∃ root, (h.merge facts io).1.roster.root = some root ∧
        ∃ sf ∈ facts, sf.SignedBy root) ∨
      ((h.merge facts io).1.roster.root = h.roster.root ∧ ∀ e since,
        (e, since) ∈ ((h.merge facts io).1.roster.effectiveMembers nowMs).map
            (fun m => (m.endpointId, m.sinceMs)) ↔
          (e, since) ∈ (h.roster.effectiveMembers nowMs).map
            (fun m => (m.endpointId, m.sinceMs))) := by
  have hwf := wellFormed_of_reachable hreach
  refine ⟨fun e => ?_, ?_, fun m hm => ?_, fun facts io hfacts => ?_⟩
  · cases hroot : h.roster.root with
    | none => simp [Roster.effectiveMembers, hroot]
    | some root =>
      rw [hwf.isMember_iff hroot]
      simp only [some.injEq, exists_eq_left', Admitted, hwf.liveGrant_iff]
      refine or_congr_right ⟨?_, ?_⟩
      · rintro ⟨_, ⟨id, g, hg, rfl⟩, hs⟩
        exact ⟨id, g, hg, hs⟩
      · rintro ⟨id, g, hg, hs⟩
        exact ⟨g.fact, ⟨id, g, hg, rfl⟩, hs⟩
  · cases hroot : h.roster.root with
    | none => simp [Roster.effectiveMembers, hroot]
    | some root =>
      rw [Roster.effectiveMembers, hroot]
      exact Roster.nodup_project hwf.idsDistinct
  · cases hroot : h.roster.root with
    | none => simp [Roster.effectiveMembers, hroot] at hm
    | some root =>
      have hpair : (m.endpointId, m.sinceMs) ∈ (h.roster.effectiveMembers nowMs).map
          (fun m => (m.endpointId, m.sinceMs)) := List.mem_map_of_mem hm
      obtain ⟨heq, hsince⟩ | ⟨f, ⟨hlive, hsubject, hne⟩, hmin, hsince⟩ :=
        (hwf.mem_effectiveMembers hroot).mp hpair
      · obtain ⟨id, g, hid, hget, hkind, -⟩ := hwf.genesis_of_root hroot
        refine .inl ⟨by rw [heq], id, g, hid, hget, hkind, ?_⟩
        rw [hsince, Roster.genesisIssuedAt, hid, bind_some, hget]
        rfl
      · obtain ⟨id, g, hg, rfl⟩ := hwf.liveGrant_iff.mp hlive
        refine .inr ⟨root, id, g, rfl, hne, hg, hsubject, hsince, fun id' g' hg' hs' => ?_⟩
        have hle := hmin g'.fact (hwf.liveGrant_iff.mpr ⟨id', g', hg', rfl⟩) hs'
        rw [(hwf.stored id g hg.stored).1, (hwf.stored id' g' hg'.stored).1]
        exact hle
  · obtain ⟨hwf', -, batch, hext, hbatch⟩ := (RosterOp.merge_effect h facts io).extends hwf
    obtain rfl := hbatch facts rfl
    change Roster.WellFormed (h.merge batch io).1.roster at hwf'
    change Roster.Extends batch h.roster (h.merge batch io).1.roster at hext
    cases hroot : h.roster.root with
    | some root =>
      exact .inr (hwf.effectiveMembers_of_not_signed hwf' hext hroot (hfacts root hroot) nowMs)
    | none =>
      cases hroot' : (h.merge batch io).1.roster.root with
      | some root =>
        exact .inl ⟨rfl, root, rfl, hext.signed_of_new_root hwf' hwf hroot hroot'⟩
      | none => exact .inr ⟨rfl, by simp [Roster.effectiveMembers, hroot, hroot']⟩

end Dweb

namespace Dweb

/-! ### The sample fabric -/

attribute [local instance] Sample.crypto

def Sample.created : Handle where
  dir := { Sample.dir "/root" with
    rosterFacts := some ((Roster.empty Sample.fabricId ∅).insertFact Sample.genesis).file }
  roster := (Roster.empty Sample.fabricId ∅).insertFact Sample.genesis

theorem Sample.created_reachable : rosterMachine.Reachable Sample.created := by
  refine .init (.created Sample.root (Sample.dir "/root") 1000 Sample.fabricId .done ?_)
  exact Roster.createWithFabricId_missing rfl rfl (by decide +kernel) Sample.genesis_acceptable

theorem creator_is_member :
    ∃ m ∈ Sample.created.roster.effectiveMembers 5000, m.endpointId = Sample.root.endpointId :=
  ((effectiveMembers_authorized Sample.created_reachable 5000).1 _).mpr
    ⟨Sample.root.endpointId, by decide +kernel, .inl rfl⟩

end Dweb
