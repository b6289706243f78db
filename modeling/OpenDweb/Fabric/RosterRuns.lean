import OpenDweb.Fabric.RosterInvariant
import OpenDweb.Lib.Machine

/-!
# OpenDweb — runs of roster operations

The machine whose runs the roster theorems quantify over: a handle starts from `create`
or `attach` and then takes any operations, each with its own file-system outcome.

* **`RosterOp.Effect`**, **`RosterOp.apply_effect`** — the five things an operation can do
  to a handle, so that no later proof unfolds an operation;
* **`Handle.persisting_cases`** — a persist writes the whole store or leaves
  `roster.facts` alone;
* **`wellFormed_of_reachable`** — every store of every run is well formed.
-/

namespace Dweb

open Std (ExtTreeMap)

variable [Crypto]

/-! ## Persisting -/

def Roster.file (r : Roster) : Bytes := Roster.fileBytes r.fabricId (SignedFact.listBytes r.values)

theorem Roster.encodeAll_values {r : Roster} {body : Bytes}
    (h : SignedFact.encodeAll r.values = .ok body) : body = SignedFact.listBytes r.values :=
  (SignedFact.encodeAll_eq_ok.mp h).2

theorem Roster.WellFormed.encodeAll {r : Roster} (hwf : r.WellFormed) :
    SignedFact.encodeAll r.values = .ok (SignedFact.listBytes r.values) := by
  refine SignedFact.encodeAll_eq_ok.mpr ⟨fun sf hmem => ?_, rfl⟩
  obtain ⟨id, hget⟩ := Roster.mem_values.mp hmem
  exact (hwf.stored id sf hget).2.representable

/-- A directory that differs at most in `roster.facts` and its tmp file. -/
structure DataDir.SameLog (dir dir' : DataDir) : Prop where
  path_eq : dir'.path = dir.path
  log_eq : dir'.invitesConsumed = dir.invitesConsumed

theorem Roster.persistNow_cases (r : Roster) (dir : DataDir) (io : PersistIo) :
    dir.SameLog (r.persistNow dir io).1 ∧
      (((r.persistNow dir io).2 = .ok () ∧ (r.persistNow dir io).1.rosterFacts = some r.file) ∨
        ((∃ e, (r.persistNow dir io).2 = .error e) ∧
          (r.persistNow dir io).1.rosterFacts = dir.rosterFacts)) := by
  unfold persistNow
  cases henc : SignedFact.encodeAll r.values with
  | error e => exact ⟨⟨rfl, rfl⟩, .inr ⟨⟨_, rfl⟩, rfl⟩⟩
  | ok body =>
    cases io with
    | done =>
      refine ⟨⟨rfl, rfl⟩, .inl ⟨rfl, ?_⟩⟩
      rw [Roster.encodeAll_values henc]
      rfl
    | openFails source => exact ⟨⟨rfl, rfl⟩, .inr ⟨⟨_, rfl⟩, rfl⟩⟩
    | writeFails written source => exact ⟨⟨rfl, rfl⟩, .inr ⟨⟨_, rfl⟩, rfl⟩⟩
    | renameFails source => exact ⟨⟨rfl, rfl⟩, .inr ⟨⟨_, rfl⟩, rfl⟩⟩

namespace Handle

theorem persisting_roster {α : Type*} (h : Handle) (io : PersistIo) (value : α) :
    (h.persisting io value).1.roster = h.roster := by
  unfold persisting
  rcases h.roster.persistNow h.dir io with ⟨dir, _ | u⟩ <;> rfl

/-- **A persist writes the whole store, or fails and leaves the file alone.** -/
theorem persisting_cases {α : Type*} (h : Handle) (io : PersistIo) (value : α) :
    h.dir.SameLog (h.persisting io value).1.dir ∧
      (((h.persisting io value).2 = .ok value ∧
          (h.persisting io value).1.dir.rosterFacts = some h.roster.file) ∨
        ((∃ e, (h.persisting io value).2 = .error e) ∧
          (h.persisting io value).1.dir.rosterFacts = h.dir.rosterFacts)) := by
  obtain ⟨hlog, hcases⟩ := h.roster.persistNow_cases h.dir io
  unfold persisting
  revert hlog hcases
  rcases h.roster.persistNow h.dir io with ⟨dir, e | u⟩
  · intro hlog hcases
    obtain ⟨hok, -⟩ | ⟨-, hfile⟩ := hcases
    · cases hok
    · exact ⟨hlog, .inr ⟨⟨e, rfl⟩, hfile⟩⟩
  · intro hlog hcases
    obtain ⟨-, hfile⟩ | ⟨⟨e, herr⟩, -⟩ := hcases
    · exact ⟨hlog, .inl ⟨rfl, hfile⟩⟩
    · cases herr

theorem persisting_sameLog {α : Type*} (dir : DataDir) (r : Roster) (io : PersistIo)
    (value : α) : dir.SameLog (Handle.persisting ⟨dir, r⟩ io value).1.dir :=
  (persisting_cases ⟨dir, r⟩ io value).1

end Handle

/-! ## Operations as labels -/

inductive RosterOp where
  | merge (facts : List SignedFact)
  | grant (identity : NodeIdentity) (subject : EndpointId) (displayName : Option String)
      (expiresAtMs : Option UInt64) (nowMs : UInt64)
  | revoke (identity : NodeIdentity) (target : RevokeTarget) (nowMs : UInt64)
  | setDisplayName (identity : NodeIdentity) (displayName : Option String) (nowMs : UInt64)

namespace RosterOp

/-- Runs an operation and forgets the value it returns. -/
def apply (op : RosterOp) (h : Handle) (io : PersistIo) : Handle × Except RosterError Unit :=
  match op with
  | merge facts => (h.merge facts io).map id fun res => res.map fun _ => ()
  | grant identity subject displayName expiresAtMs nowMs =>
    (h.grant identity subject displayName expiresAtMs nowMs io).map id fun res => res.map fun _ => ()
  | revoke identity target nowMs =>
    (h.revoke identity target nowMs io).map id fun res => res.map fun _ => ()
  | setDisplayName identity displayName nowMs =>
    (h.setDisplayName identity displayName nowMs io).map id fun res => res.map fun _ => ()

def IsMerge (op : RosterOp) : Prop := ∃ facts, op = merge facts

inductive Effect (h : Handle) (io : PersistIo) : RosterOp → Handle × Except RosterError Unit → Prop
  | refused {op : RosterOp} (hop : ¬op.IsMerge) (e : RosterError) : Effect h io op (h, .error e)
  | nothingNew {facts : List SignedFact} (hnew : ∀ sf ∈ facts, ¬h.roster.Admits sf)
      {r : Roster} (hr : r = (h.roster.mergeLoop ⟨0, 0, 0⟩ false facts).1) :
      Effect h io (merge facts) (⟨h.dir, r⟩, .ok ())
  | merged {facts : List SignedFact} (hnew : ∃ sf ∈ facts, h.roster.Admits sf) {r : Roster}
      (hr : r = (h.roster.mergeLoop ⟨0, 0, 0⟩ false facts).1) :
      Effect h io (merge facts) (Handle.persisting ⟨h.dir, r⟩ io ())
  | inserted {op : RosterOp} (hop : ¬op.IsMerge) {signed : SignedFact}
      (hnew : h.roster.Admits signed) :
      Effect h io op (Handle.persisting ⟨h.dir, h.roster.insertFact signed⟩ io ())
  | known {op : RosterOp} (hop : ¬op.IsMerge) : Effect h io op (h.persisting io ())

theorem map_persisting {α : Type*} (h : Handle) (io : PersistIo) (value : α) :
    (h.persisting io value).map id (fun res => res.map fun _ => ()) = h.persisting io () := by
  unfold Handle.persisting
  rcases h.roster.persistNow h.dir io with ⟨dir, e | u⟩ <;> rfl

theorem merge_effect (h : Handle) (facts : List SignedFact) (io : PersistIo) :
    Effect h io (merge facts) ((merge facts).apply h io) := by
  by_cases hnew : ∃ sf ∈ facts, h.roster.Admits sf
  · have hdirty : (h.roster.mergeLoop ⟨0, 0, 0⟩ false facts).2.2 = true :=
      (Roster.mergeLoop_dirty _ _ _ _).mpr (.inr hnew)
    have heq : (merge facts).apply h io =
        Handle.persisting ⟨h.dir, (h.roster.mergeLoop ⟨0, 0, 0⟩ false facts).1⟩ io () := by
      rw [← map_persisting _ _ (h.roster.mergeLoop ⟨0, 0, 0⟩ false facts).2.1]
      simp only [apply, Handle.merge, hdirty, if_true]
    rw [heq]
    exact .merged hnew rfl
  · have hclean : (h.roster.mergeLoop ⟨0, 0, 0⟩ false facts).2.2 = false := by
      rw [Bool.eq_false_iff]
      intro htrue
      obtain hfalse | hex := (Roster.mergeLoop_dirty _ _ _ _).mp htrue
      · cases hfalse
      · exact hnew hex
    have hnone : ∀ sf ∈ facts, ¬h.roster.Admits sf := fun sf hsf hadm => hnew ⟨sf, hsf, hadm⟩
    have heq : (merge facts).apply h io =
        (⟨h.dir, (h.roster.mergeLoop ⟨0, 0, 0⟩ false facts).1⟩, .ok ()) := by
      simp only [apply, Handle.merge, hclean, Bool.false_eq_true, if_false]
      rfl
    rw [heq]
    exact .nothingNew hnone rfl

variable {op : RosterOp}

/-- A locally built fact: refused, already known, or inserted, and persisted unless
refused. -/
theorem signAndInsert_effect (h : Handle) (identity : NodeIdentity) (fact : Fact) (what : String)
    (io : PersistIo) (hop : ¬op.IsMerge) :
    Effect h io op
      ((h.signAndInsert identity fact what io).map id fun res => res.map fun _ => ()) := by
  unfold Handle.signAndInsert
  cases hsign : SignedFact.sign fact identity.secretKey with
  | error e => exact .refused hop _
  | ok signed =>
    obtain ⟨hadm, heq⟩ | ⟨-, -, heq⟩ | ⟨-, reason, heq⟩ :=
      Roster.validateAndInsert_cases h.roster signed
    · simp only [heq, map_persisting]
      exact .inserted hop hadm
    · simp only [heq, map_persisting]
      exact .known hop
    · simp only [heq]
      exact .refused hop _

theorem buildAndInsert_effect (h : Handle) (identity : NodeIdentity) (build : EndpointId → Fact)
    (io : PersistIo) (hop : ¬op.IsMerge) :
    Effect h io op
      ((h.buildAndInsert identity build io).map id fun res => res.map fun _ => ()) := by
  unfold Handle.buildAndInsert
  cases hroot : h.requireRoot identity with
  | error e => exact .refused hop _
  | ok root => exact signAndInsert_effect h identity (build root) "fact" io hop

/-- **Every operation has one of the five effects.** -/
theorem apply_effect (op : RosterOp) (h : Handle) (io : PersistIo) :
    Effect h io op (op.apply h io) := by
  cases op with
  | merge facts => exact merge_effect h facts io
  | grant identity subject displayName expiresAtMs nowMs =>
    exact buildAndInsert_effect h identity _ io (by rintro ⟨facts, hop⟩; cases hop)
  | revoke identity target nowMs =>
    have hop : ¬(revoke identity target nowMs).IsMerge := by rintro ⟨facts, hop⟩; cases hop
    show Effect h io _ ((h.revoke identity target nowMs io).map id _)
    unfold Handle.revoke
    cases htarget : h.revokeSubject target with
    | error e => exact .refused hop _
    | ok st => exact buildAndInsert_effect h identity _ io hop
  | setDisplayName identity displayName nowMs =>
    exact signAndInsert_effect h identity _ "join" io (by rintro ⟨facts, hop⟩; cases hop)

theorem Effect.extends {h : Handle} {io : PersistIo} {out : Handle × Except RosterError Unit}
    (heff : Effect h io op out) (hwf : h.roster.WellFormed) :
    out.1.roster.WellFormed ∧ h.dir.SameLog out.1.dir ∧
      ∃ batch, h.roster.Extends batch out.1.roster ∧ ∀ facts, op = merge facts → batch = facts := by
  cases heff with
  | refused hop e =>
    exact ⟨hwf, ⟨rfl, rfl⟩, [], .refl [] _, fun facts hm => absurd ⟨facts, hm⟩ hop⟩
  | @nothingNew facts hnew r hr =>
    obtain ⟨hwf', hext⟩ := Roster.mergeLoop_extends hwf ⟨0, 0, 0⟩ false facts
    rw [← hr] at hwf' hext
    exact ⟨hwf', ⟨rfl, rfl⟩, facts, hext, fun _ hm => by cases hm; rfl⟩
  | @merged facts hnew r hr =>
    obtain ⟨hwf', hext⟩ := Roster.mergeLoop_extends hwf ⟨0, 0, 0⟩ false facts
    rw [← hr] at hwf' hext
    rw [Handle.persisting_roster]
    exact ⟨hwf', Handle.persisting_sameLog _ _ _ _, facts, hext, fun _ hm => by cases hm; rfl⟩
  | @inserted op hop signed hnew =>
    rw [Handle.persisting_roster]
    exact ⟨hwf.insertFact hnew, Handle.persisting_sameLog _ _ _ _, [signed],
      .insertFact hnew List.mem_cons_self, fun facts hm => absurd ⟨facts, hm⟩ hop⟩
  | known hop =>
    rw [Handle.persisting_roster]
    exact ⟨hwf, Handle.persisting_sameLog h.dir h.roster _ _, [], .refl [] _,
      fun facts hm => absurd ⟨facts, hm⟩ hop⟩

end RosterOp

/-! ## The machine -/

/-- A handle fresh from `create_with_fabric_id` or `attach`. -/
inductive Handle.Fresh : Handle → Prop
  | created (identity : NodeIdentity) (dir : DataDir) (nowMs : UInt64) (fabricId : FabricId)
      (io : PersistIo) {dir' : DataDir} {roster : Roster}
      (h : Roster.createWithFabricId identity dir nowMs fabricId io = (dir', .ok roster)) :
      Fresh ⟨dir', roster⟩
  | attached (dir : DataDir) (fabricId : FabricId) (io : PersistIo) {dir' : DataDir}
      {roster : Roster} (h : Roster.attach dir fabricId io = (dir', .ok roster)) :
      Fresh ⟨dir', roster⟩

/-- Runs of one roster handle. A label is an operation with the file system's part in it. -/
def rosterMachine : Machine Handle (RosterOp × PersistIo) where
  init := Handle.Fresh
  step h l := some (l.1.apply h l.2).1

namespace Roster

/-! ## Construction -/

variable {dir dir' : DataDir} {r : Roster} {fabricId : FabricId} {io : PersistIo}

theorem replay_extends {r' : Roster} {facts : List SignedFact} (hwf : r.WellFormed)
    (h : replay dir r facts = .ok r') :
    r'.WellFormed ∧ Extends facts r r' ∧ r'.facts.size = r.facts.size + facts.length ∧
      ∀ sf ∈ facts, r'.facts[sf.factId]? = some sf := by
  induction facts generalizing r with
  | nil =>
    obtain rfl : r = r' := by simpa [replay] using h
    exact ⟨hwf, .refl [] r, rfl, by simp⟩
  | cons sf facts ih =>
    obtain ⟨hadm, heq⟩ | ⟨-, -, heq⟩ | ⟨-, reason, heq⟩ := validateAndInsert_cases r sf
    · simp only [replay, heq] at h
      obtain ⟨hwf', hext, hsize, hall⟩ := ih (hwf.insertFact hadm) h
      have hnot : r.facts.contains sf.factId = false := by
        rw [← Bool.not_eq_true, ExtTreeMap.contains_iff_mem]
        intro hin
        have := hadm.fresh
        rw [ExtTreeMap.getElem?_eq_some_getElem hin] at this
        cases this
      refine ⟨hwf', (Extends.insertFact hadm List.mem_cons_self).trans
        (hext.mono fun x hx => List.mem_cons_of_mem sf hx), ?_, ?_⟩
      swap
      · refine List.forall_mem_cons.mpr ⟨hext.keeps _ _ ?_, hall⟩
        rw [insertFact_facts, getElem?_facts_insert, if_pos rfl]
      rw [hsize, insertFact_facts, ExtTreeMap.size_insert, hnot, List.length_cons]
      simp only [Bool.false_eq_true, if_false]
      omega
    · simp only [replay, heq, reduceCtorEq] at h
    · simp only [replay, heq, reduceCtorEq] at h

/-- What a file that opens says about the roster read from it. -/
structure Opened (dir : DataDir) (fabricId : FabricId) (bytes : Bytes) (r : Roster) : Prop where
  wellFormed : r.WellFormed
  fabric_eq : r.fabricId = fabricId
  rooted : r.facts.isEmpty = true ∨ r.genesisFactId.isSome = true
  small : r.facts.size < 256 ^ 4
  log : ∃ consumed, loadConsumedInvites dir = .ok consumed
  file : ∃ items body, SignedFact.encodeAll items = .ok body ∧ bytes = fileBytes fabricId body ∧
    ∀ sf, sf ∈ items ↔ ∃ id : FactId, r.facts[id]? = some sf

theorem opened_of_decodePersisted {bytes : Bytes} (h : decodePersisted dir fabricId bytes = .ok r) :
    Opened dir fabricId bytes r := by
  simp only [decodePersisted, ite_throw_eq_ok, bind_eq_ok, pure_eq_ok, mapError_eq_ok,
    not_not, not_and_or, not_lt] at h
  obtain ⟨hlen, hmagic, hfabric, hsum, facts, hfacts, consumed, hlog, r', hr, hroot, rfl⟩ := h
  obtain ⟨hwf, hext, hsize, hall⟩ := replay_extends (wellFormed_empty fabricId consumed) hr
  obtain ⟨hbody, hrep, hcount⟩ := SignedFact.listBytes_of_decodeAll hfacts
  have hlen : 76 ≤ bytes.length := hlen
  have hsize : r'.facts.size = facts.length := by
    rw [hsize]
    simp [empty]
  refine ⟨hwf, hext.fabric_eq, ?_, hsize ▸ hcount, ⟨consumed, hlog⟩, facts, _,
    SignedFact.encodeAll_eq_ok.mpr ⟨hrep, rfl⟩, ?_, fun sf => ⟨fun hmem => ⟨_, hall sf hmem⟩, ?_⟩⟩
  · exact hroot.imp_right fun h => Option.isSome_iff_ne_none.mpr h
  · -- header, body and checksum are consecutive slices of the file
    have hmagic : slice bytes 0 8 = ROSTER_MAGIC := hmagic
    have hfabric : arrayAt bytes 8 32 = fabricId := hfabric
    have hbody : slice bytes 40 (bytes.length - 32) = SignedFact.listBytes facts := hbody
    have hhead : ROSTER_MAGIC ++ (fabricId.toBytes ++ SignedFact.listBytes facts) =
        slice bytes 0 (bytes.length - 32) := by
      rw [← hbody, ← hfabric, ← hmagic, toBytes_arrayAt (by omega),
        slice_append_slice (by omega) (by omega), slice_append_slice (by omega) (by omega)]
    have hsum : Crypto.blake3 (slice bytes 0 (bytes.length - 32)) =
        arrayAt bytes (bytes.length - 32) 32 := hsum
    simp only [fileBytes]
    rw [hhead, hsum, toBytes_arrayAt (by omega), slice_append_slice (by omega) (by omega),
      Nat.sub_add_cancel (by omega), slice_zero_length]
  · rintro ⟨id, hget⟩
    obtain hin | ⟨hmem, -⟩ := hext.adds id sf hget
    · simp [empty] at hin
    · exact hmem

/-- What holds of a handle as `create` and `attach` return it, and of every later handle
that no persist has failed on: the store is well formed, the invite log still loads, and
`roster.facts` is either the file of this very store or a file that opens to it. -/
structure Loaded (dir : DataDir) (r : Roster) : Prop where
  wellFormed : r.WellFormed
  log : ∃ consumed, loadConsumedInvites dir = .ok consumed
  file : dir.rosterFacts = some r.file ∨
    ∃ bytes r', dir.rosterFacts = some bytes ∧
      decodePersisted dir r.fabricId bytes = .ok r' ∧ SameCore r' r

theorem loadConsumedInvites_congr (h : dir.SameLog dir') :
    loadConsumedInvites dir' = loadConsumedInvites dir := by
  obtain ⟨path, facts, tmp, log⟩ := dir
  obtain ⟨path', facts', tmp', log'⟩ := dir'
  obtain ⟨hpath, hlog⟩ := h
  simp only at hpath hlog
  subst hpath hlog
  rfl

theorem loaded_of_persistNow (hwf : r.WellFormed)
    (hlog : ∃ consumed, loadConsumedInvites dir = .ok consumed)
    (h : r.persistNow dir io = (dir', .ok ())) : Loaded dir' r := by
  obtain ⟨hsame, hcases⟩ := r.persistNow_cases dir io
  rw [h] at hsame hcases
  obtain ⟨-, hfile⟩ | ⟨⟨e, herr⟩, -⟩ := hcases
  · refine ⟨hwf, ?_, .inl hfile⟩
    rw [loadConsumedInvites_congr hsame]
    exact hlog
  · cases herr

theorem loaded_of_createWithFabricId {identity : NodeIdentity} {nowMs : UInt64}
    (h : createWithFabricId identity dir nowMs fabricId io = (dir', .ok r)) : Loaded dir' r := by
  unfold createWithFabricId at h
  split at h
  · cases h
  split at h
  · cases h
  rename_i genesis hgenesis
  split at h
  · cases h
  rename_i consumed hlog
  obtain ⟨hadm, heq⟩ | ⟨-, -, heq⟩ | ⟨-, reason, heq⟩ :=
    validateAndInsert_cases (empty fabricId consumed) genesis
  · rw [heq] at h
    simp only at h
    split at h
    · rename_i dir₁ hpersist
      obtain ⟨rfl, rfl⟩ : dir₁ = dir' ∧ _ = r := by simpa using h
      exact loaded_of_persistNow ((wellFormed_empty fabricId consumed).insertFact hadm)
        ⟨consumed, hlog⟩ hpersist
    · cases h
  · rw [heq] at h; cases h
  · rw [heq] at h; cases h

theorem loaded_of_attach (h : attach dir fabricId io = (dir', .ok r)) :
    Loaded dir' r ∧ r.fabricId = fabricId := by
  unfold attach at h
  split at h
  · rename_i roster hopen
    obtain ⟨rfl, rfl⟩ : dir = dir' ∧ roster = r := by simpa using h
    unfold Roster.open at hopen
    split at hopen
    · cases hopen
    · rename_i bytes hbytes
      have ho := opened_of_decodePersisted hopen
      exact ⟨⟨ho.wellFormed, ho.log, .inr ⟨bytes, roster, hbytes, ho.fabric_eq ▸ hopen, .refl _⟩⟩,
        ho.fabric_eq⟩
  · split at h
    · cases h
    rename_i consumed hlog
    simp only at h
    split at h
    · rename_i dir₁ hpersist
      obtain ⟨rfl, rfl⟩ : dir₁ = dir' ∧ _ = r := by simpa using h
      exact ⟨loaded_of_persistNow (wellFormed_empty fabricId consumed) ⟨consumed, hlog⟩ hpersist,
        rfl⟩
    · cases h
  · cases h

theorem WellFormed.persistNow_eq (hwf : r.WellFormed) (dir : DataDir) :
    r.persistNow dir .done = ({ dir with rosterFacts := some r.file, rosterTmp := none }, .ok ()) := by
  unfold persistNow
  rw [hwf.encodeAll]
  rfl

theorem attach_missing (hfile : dir.rosterFacts = none) (hlog : dir.invitesConsumed = none)
    (fabricId : FabricId) :
    attach dir fabricId .done =
      ({ dir with rosterFacts := some (empty fabricId ∅).file, rosterTmp := none },
        .ok (empty fabricId ∅)) := by
  have hopen : Roster.open dir fabricId = .error (.notFound dir.rosterFilePath) := by
    rw [Roster.open, hfile]
  have hload : loadConsumedInvites dir = .ok ∅ := by rw [loadConsumedInvites, hlog]
  rw [attach, hopen]
  simp only [hload, (wellFormed_empty fabricId ∅).persistNow_eq dir]

theorem createWithFabricId_missing {identity : NodeIdentity} {nowMs : UInt64} {g : SignedFact}
    (hfile : dir.rosterFacts = none) (hlog : dir.invitesConsumed = none)
    (hgenesis : genesis identity fabricId nowMs = .ok g) (hacc : g.Acceptable fabricId) :
    createWithFabricId identity dir nowMs fabricId .done =
      ({ dir with
          rosterFacts := some ((empty fabricId ∅).insertFact g).file, rosterTmp := none },
        .ok ((empty fabricId ∅).insertFact g)) := by
  have hload : loadConsumedInvites dir = .ok ∅ := by rw [loadConsumedInvites, hlog]
  have hadm : (empty fabricId ∅).Admits g := ⟨hacc, by simp [empty], fun _ => .inl rfl⟩
  unfold createWithFabricId
  rw [hfile, hgenesis, hload]
  simp only [Option.isSome_none, Bool.false_eq_true, if_false, validateAndInsert_of_admits hadm,
    ((wellFormed_empty fabricId ∅).insertFact hadm).persistNow_eq dir]

end Roster

theorem Handle.Fresh.loaded {h : Handle} (hfresh : h.Fresh) : Roster.Loaded h.dir h.roster := by
  cases hfresh with
  | created identity dir nowMs fabricId io hc => exact Roster.loaded_of_createWithFabricId hc
  | attached dir fabricId io ha => exact (Roster.loaded_of_attach ha).1

/-- **Every store of every run is well formed**, whatever persists fail. -/
theorem wellFormed_of_reachable {h : Handle} (hreach : rosterMachine.Reachable h) :
    h.roster.WellFormed := by
  refine hreach.invariant (fun h (hfresh : h.Fresh) => hfresh.loaded.wellFormed) ?_
  intro h l h' hwf _ hstep
  obtain rfl : (l.1.apply h l.2).1 = h' := by simpa [rosterMachine] using hstep
  exact ((l.1.apply_effect h l.2).extends hwf).1

end Dweb

/-! ## A sample fabric

A Genesis by the root at 1000, its grant to the member at 2000 and the member's Join at
1500, under the Ed25519 seeds `[1; 32]` (root) and `[2; 32]` (member), with the answers of
BLAKE3 and Ed25519 on everything the examples hash or sign. -/

namespace Dweb.Sample

def rootKey : BytesN 32 :=
  .ofNat 32 0x8a88e3dd7409f195fd52db2d3cba5d72ca6709bf1d94121bf3748801b40f6f5c

def memberKey : BytesN 32 :=
  .ofNat 32 0x8139770ea87d175f56a35466c34c7ecccb8d8a91b4ee37a25df60f5b8fc9b394

/-- `FabricId([7; 32])`. -/
def fabricId : FabricId := ⟨List.replicate 32 7, List.length_replicate⟩

def layout (kind : UInt8) (issuer subject : BytesN 32) (issuedAtMs : Nat) : Bytes :=
  FACT_DOMAIN ++ ([kind] ++ (fabricId.toBytes ++ (issuer.toBytes ++ (subject.toBytes ++
    (beBytes 8 issuedAtMs ++ [0])))))

def genesisBytes : Bytes := layout 1 rootKey rootKey 1000
def grantBytes : Bytes := layout 2 rootKey memberKey 2000
def joinBytes : Bytes := layout 3 memberKey memberKey 1500

def genesisSignature : BytesN 64 := .ofNat 64
  0xcd13d09a8fbbd712d73b92be34456ef921fa4ec4d74b6627881f82e647aad2042495ff7580c186ef18ca41561b34f3ba746338859faf5a9dfb99c87da53bfe01

def grantSignature : BytesN 64 := .ofNat 64
  0xcbfb42384fbb803c4ca9ba7b6bb42d1a94e3bb9608d93306bcdd167dfe68fa2b3d42a1083a488f50b31a3bfa4af60234ee6db59a64f4f601c6b9d4a291712c0b

def joinSignature : BytesN 64 := .ofNat 64
  0x5d323167769ac732e6c104d9810078e42a3551ac37fbe4a57c4507a149e0bbc662ef761e8c52c31625b53c08646c29912898e8ab26a11f4b092ff33fb2a93e06

def fileHead (facts : List (Bytes × BytesN 64)) : Bytes :=
  ROSTER_MAGIC ++ (fabricId.toBytes ++ (beBytes 4 facts.length ++
    (facts.map fun f => beBytes 4 f.1.length ++ (f.1 ++ f.2.toBytes)).flatten))

@[reducible] def crypto : Crypto :=
  .known [rootKey, memberKey]
    [(genesisBytes,
        .ofNat 32 0xa51814281402f3ec8593a6a95bc68d8cd0f44abded4e8b8de2f81aa5549f778d),
      (grantBytes,
        .ofNat 32 0xa57b7cf9f3a63891537b8b5f9b2f0c40743c912222211dace2662b7b6dd6fe72),
      (joinBytes,
        .ofNat 32 0xec6590afd61bcd26ea12b8cea2d40ba228f2f87de1d5a33b9c5eba261fe079b1),
      (fileHead [],
        .ofNat 32 0xe0dda9f813409a67ef56ba2e50f88708668976b0e6aea46e1019704e9765a739),
      (fileHead [(genesisBytes, genesisSignature)],
        .ofNat 32 0xd6d7141c1d1266acf8c72c52ee2a3020727346bacbd355462e2dcb7e10982bd7),
      (fileHead [(grantBytes, grantSignature)],
        .ofNat 32 0x8992f7e7a168dc8ce8fc28141afbb047515af470d04fde64c70e76208196887),
      (fileHead [(joinBytes, joinSignature)],
        .ofNat 32 0x68e518ce63d4cf58b9c34cf6b51ea46fc892f737c908f9a1e9a2f2bc0e0da6ee),
      (fileHead [(genesisBytes, genesisSignature), (grantBytes, grantSignature)],
        .ofNat 32 0x1e12cb9cf15c52d57298f1b594b33205c899499876691ce51641a6eebd844014)]
    [(rootKey, genesisBytes, genesisSignature), (rootKey, grantBytes, grantSignature),
      (memberKey, joinBytes, joinSignature)]

attribute [local instance] crypto

def root : NodeIdentity := ⟨⟨rootKey, by simp⟩⟩
def member : NodeIdentity := ⟨⟨memberKey, by simp⟩⟩

/-- A fact of the sample fabric without optional fields. -/
def fact (kind : FactKind) (issuer subject : NodeIdentity) (issuedAtMs : UInt64) : Fact where
  kind
  fabricId
  issuer := issuer.endpointId
  subject := subject.endpointId
  displayName := none
  issuedAtMs
  expiresAtMs := none
  targetFactId := none

def genesis : SignedFact := ⟨fact .genesis root root 1000, genesisSignature⟩
def grant : SignedFact := ⟨fact .grant root member 2000, grantSignature⟩
def join : SignedFact := ⟨fact .join member member 1500, joinSignature⟩

theorem genesis_acceptable : genesis.Acceptable fabricId :=
  ⟨rfl, by decide +kernel, by decide +kernel⟩

def dir (path : String) : DataDir := ⟨path, none, none, none⟩

/-- A node that has attached to the sample fabric and heard nothing yet. -/
def attached (path : String) : Handle where
  dir := { dir path with rosterFacts := some (Roster.empty fabricId ∅).file }
  roster := Roster.empty fabricId ∅

theorem attached_fresh (path : String) : (attached path).Fresh :=
  .attached (dir path) fabricId .done (Roster.attach_missing rfl rfl _)

end Dweb.Sample
