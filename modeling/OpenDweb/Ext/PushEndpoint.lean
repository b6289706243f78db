import OpenDweb.Ext.GitObjects
import OpenDweb.Lib.JsText
import OpenDweb.Lib.Updates

/-!
# OpenDweb — accepting a push

`handlePush` of `opendweb-ext-sync/src/endpoint.mjs` and `readBoundedJsonLines` of `util.mjs`. The
body is any bytes in any chunks, the signal may abort at any of the places where it is looked at,
and the repository may have grown when the push comes to its commit point. SHA-1, base64 and
`JSON.parse` are parameters: nothing depends on what they compute.

* **`readBoundedJsonLines`**, **`stageLines`** — the lines of the body, and what is staged.
* **`handlePush`** — the closure, the abort checks, the compare, the import and the ref.
* **`Wholesome`** — what is demanded is well formed and of its kind, and no file of what is pushed
  is broken in the store.
* **`push_sound`** — exactly then a push is sound.
* **`SamplePush.blob_accepted`** — a blob is accepted as the target.
-/

namespace Dweb

open List Option
open Function (update update_of_ne update_self)

/-! ## The body -/

inductive Json where
  | null
  | bool (b : Bool)
  | num (n : Rat)
  | str (s : String)
  | arr (items : List Json)
  | obj (fields : List (String × Json))

def Json.get : Json → String → Option Json
  | obj fields, key => fields.lookup key
  | _, _ => none

structure PushLib where
  sha1Hex : Bytes → String
  parseJson : List Char → Option Json
  fromBase64 : String → Bytes

inductive Checkpoint where
  | entry
  | chunk (i : Nat)
  | waiting (i : Nat)
  | parsed
  | preCommit
  | commitPoint
deriving DecidableEq

inductive PushBody where
  | absent
  | bytes (bytes : Bytes)
  /-- `none` is a stream that fails. -/
  | stream (chunks : List (Option Bytes))

inductive PushError where
  | busy
  | badRequest
  | bodyTooLarge
  | integrity
  | oversize
  | budget
  | aborted
  | closureMissing (missing : List String)
  | casMismatch (currentRef : Option String)
  | internal
deriving DecidableEq

def MAX_STREAMS_PER_GROUP : Nat := 2

def MAX_OBJECT_BYTES : Nat := 1024 * 1024

/-- The lines are shorter than `maxLine`, so that its checks cannot fail. -/
def MAX_PUSH_BODY_BYTES : Nat := 2 * 1024 * 1024

/-- The lines of a buffer; the last one has no newline behind it. -/
def newlines : Bytes → List Bytes
  | [] => [[]]
  | b :: bs =>
    if b = 0x0A then [] :: newlines bs
    else
      match newlines bs with
      | [] => [[b]]
      | line :: lines => (b :: line) :: lines

section

variable (lib : PushLib)

def yieldLine (line : Bytes) : List (Except PushError Json) :=
  let text := jsTrim (fromUtf8Lossy line)
  if text = [] then []
  else
    match lib.parseJson text with
    | some json => [.ok json]
    | none => [.error .internal]

def readChunks (aborted : Checkpoint → Bool) :
    (i total : Nat) → (pending : Bytes) → List (Option Bytes) → List (Except PushError Json)
  | i, _, pending, [] =>
    if aborted (.chunk i) || aborted (.waiting i) then [.error .aborted] else yieldLine lib pending
  | i, total, pending, chunk :: chunks =>
    if aborted (.chunk i) || aborted (.waiting i) then [.error .aborted]
    else
      match chunk with
      | none => [.error .internal]
      | some chunk =>
        if MAX_PUSH_BODY_BYTES < total + chunk.length then [.error .bodyTooLarge]
        else
          let lines := newlines (pending ++ chunk)
          lines.dropLast.flatMap (yieldLine lib) ++
            readChunks aborted (i + 1) (total + chunk.length) (lines.getLastD []) chunks

/-- The values that the reader yields, up to an error. -/
def readBoundedJsonLines (aborted : Checkpoint → Bool) (body : PushBody) :
    List (Except PushError Json) :=
  match body with
  | .absent => []
  | .bytes bytes =>
    if aborted .entry then [.error .aborted]
    else if MAX_PUSH_BODY_BYTES < bytes.length then [.error .bodyTooLarge]
    else (newlines bytes).flatMap (yieldLine lib)
  | .stream chunks =>
    if aborted .entry then [.error .aborted] else readChunks lib aborted 0 0 [] chunks

/-! ## Staging -/

structure PushHeader where
  ref : String
  expectedOldRef : Json
  targetCommit : String

/-- A property of `null` is a `TypeError`. -/
def readHeader : Json → Except PushError PushHeader
  | .null => .error .internal
  | json =>
    match json.get "ref", json.get "expectedOldRef", json.get "targetCommit" with
    | some (.str ref), some expectedOldRef, some (.str targetCommit) =>
      .ok ⟨ref, expectedOldRef, targetCommit⟩
    | _, _, _ => .error .badRequest

def ObjectKind.ofType : String → Option ObjectKind
  | "commit" => some .commit
  | "tree" => some .tree
  | "blob" => some .blob
  | _ => none

def ObjectKind.type : ObjectKind → String
  | commit => "commit"
  | tree => "tree"
  | blob => "blob"

def objectOid (o : GitObject) : String :=
  lib.sha1Hex (utf8Bytes s!"{o.kind.type} {o.bytes.length}\x00" ++ o.bytes)

def readObjectLine : Json → Except PushError (String × GitObject)
  | .null => .error .internal
  | json =>
    match json.get "oid", json.get "type", json.get "length", json.get "contentBase64" with
    | some (.str oid), some (.str type), some (.num length), some (.str contentBase64) =>
      let bytes := lib.fromBase64 contentBase64
      if length ≠ bytes.length then .error .integrity
      else
        match ObjectKind.ofType type with
        | none => .error .badRequest
        | some kind =>
          if objectOid lib ⟨kind, bytes⟩ ≠ oid then .error .integrity
          else if kind = .blob ∧ MAX_OBJECT_BYTES < bytes.length then .error .oversize
          else .ok (oid, ⟨kind, bytes⟩)
    | _, _, _, _ => .error .badRequest

/-- The loop over the lines: the header, and the staged objects in their order. -/
def stageLines : Option PushHeader → List (String × GitObject) → List (Except PushError Json) →
    Except PushError (Option PushHeader × List (String × GitObject))
  | header, staged, [] => .ok (header, staged)
  | _, _, .error e :: _ => .error e
  | none, staged, .ok json :: lines => do
    let header ← readHeader json
    stageLines (some header) staged lines
  | some header, staged, .ok json :: lines => do
    let object ← readObjectLine lib json
    if MAX_OBJECTS_PER_SYNC < staged.length + 1 then .error .budget
    else stageLines (some header) (staged ++ [object]) lines

end

/-! ## The repository -/

inductive LooseFile where
  | object (o : GitObject)
  | broken
deriving DecidableEq

structure LooseStore where
  file : String → Option LooseFile
  oids : List String
  mem_oids : ∀ oid, (file oid).isSome → oid ∈ oids

structure PushRepo where
  refs : String → Option String
  store : LooseStore

section

variable (lib : PushLib)

def LooseStore.read (store : LooseStore) (oid : String) : Option GitObject :=
  match store.file oid with
  | some (.object o) => if objectOid lib o = oid then some o else none
  | _ => none

/-- `importLooseObjectAtomic`: what is there is left as it is. -/
def LooseStore.import (store : LooseStore) (oid : String) (o : GitObject) : LooseStore :=
  if (store.file oid).isSome then store
  else
    { file := update store.file oid (some (.object o))
      oids := oid :: store.oids
      mem_oids := fun oid' h => by
        by_cases heq : oid' = oid
        · rw [heq]
          exact mem_cons_self
        · rw [update_of_ne heq] at h
          exact mem_cons_of_mem _ (store.mem_oids oid' h) }

def stagedObject (staged : List (String × GitObject)) (oid : String) : Option GitObject :=
  staged.reverse.lookup oid

def pushView (staged : List (String × GitObject)) (store : LooseStore) (oid : String) :
    Option GitObject :=
  (stagedObject staged oid).or (store.read lib oid)

/-- The loop of the import; it stops where a staging file is not what its line said. -/
def importStaged (staged : List (String × GitObject)) :
    List (String × GitObject) → LooseStore → LooseStore × Bool
  | [], store => (store, true)
  | (oid, o) :: metas, store =>
    match stagedObject staged oid with
    | none => (store, false)
    | some last =>
      if objectOid lib ⟨o.kind, last.bytes⟩ ≠ oid then (store, false)
      else importStaged staged metas (store.import oid ⟨o.kind, last.bytes⟩)

def GROUP_REF : String := "refs/heads/main"

/-- The group ref, or the ref of the device of a member. -/
def pushRefAllowed (members : List String) (ref : String) : Bool :=
  ref = GROUP_REF || members.any fun member =>
    ref = "refs/devices/" ++ member ++ "/main" &&
      (8 ≤ member.length && member.length ≤ 64) &&
      member.toList.all fun c => ('0' ≤ c && c ≤ '9') || ('a' ≤ c && c ≤ 'f')

/-- `header.expectedOldRef ?? null`, which no ref equals if it is not a string. -/
def refEquals (current : Option String) : Json → Bool
  | .null => current = none
  | .str expected => current = some expected
  | _ => false

inductive PushResponse where
  | ok (header : PushHeader) (imported : Nat)
  | fail (error : PushError)

structure PushResult where
  response : PushResponse
  repo : PushRepo

/-- A push, with what the repository is at the walk and at the commit point. -/
structure PushInput where
  inflight : Nat
  members : List String
  body : PushBody
  aborted : Checkpoint → Bool
  atWalk : PushRepo
  atCommit : PushRepo

def PushInput.lines (inp : PushInput) :
    Except PushError (Option PushHeader × List (String × GitObject)) :=
  stageLines lib none [] (readBoundedJsonLines lib inp.aborted inp.body)

def PushInput.oids (inp : PushInput) (staged : List (String × GitObject)) : List String :=
  staged.map Prod.fst ++ inp.atWalk.store.oids

/-- The commit point, inside `repoMutex`. -/
def pushWork (inp : PushInput) (header : PushHeader) (staged : List (String × GitObject)) :
    PushResult :=
  if inp.aborted .commitPoint then ⟨.fail .aborted, inp.atCommit⟩
  else if refEquals (inp.atCommit.refs header.ref) header.expectedOldRef = false then
    ⟨.fail (.casMismatch (inp.atCommit.refs header.ref)), inp.atCommit⟩
  else
    match importStaged lib staged staged inp.atCommit.store with
    | (store, false) => ⟨.fail .integrity, { inp.atCommit with store }⟩
    | (store, true) =>
      ⟨.ok header staged.length,
        { refs := update inp.atCommit.refs header.ref (some header.targetCommit), store }⟩

def handlePush (inp : PushInput) : PushResult :=
  let fail (error : PushError) : PushResult := ⟨.fail error, inp.atCommit⟩
  if MAX_STREAMS_PER_GROUP ≤ inp.inflight then fail .busy
  else
    match inp.lines lib with
    | .error error => fail error
    | .ok (header, staged) =>
      if inp.aborted .parsed then fail .aborted
      else
        match header with
        | none => fail .badRequest
        | some header =>
          if pushRefAllowed inp.members header.ref = false then fail .badRequest
          else
            match walkClosure (pushView lib staged inp.atWalk.store) (inp.oids staged)
              header.targetCommit with
            | .error missing => fail (.closureMissing missing)
            | .ok _ =>
              if inp.aborted .preCommit then fail .aborted
              else pushWork lib inp header staged

end

/-! ## Soundness -/

section

variable (lib : PushLib)

/-- **What a push does to the repository.** -/
structure PushSound (inp : PushInput) (r : PushResult) : Prop where
  refused : ∀ error, r.response = .fail error → r.repo.refs = inp.atCommit.refs
  added : ∀ oid f, r.repo.store.file oid = some f → inp.atCommit.store.file oid = some f ∨
    ∃ o, f = .object o ∧ objectOid lib o = oid
  accepted : ∀ header imported, r.response = .ok header imported →
    refEquals (inp.atCommit.refs header.ref) header.expectedOldRef = true ∧
    r.repo.refs = update inp.atCommit.refs header.ref (some header.targetCommit) ∧
    Complete (r.repo.store.read lib) header.targetCommit

structure PushInput.Commits (inp : PushInput) (header : PushHeader)
    (staged : List (String × GitObject)) : Prop where
  budget : inp.inflight < MAX_STREAMS_PER_GROUP
  lines : inp.lines lib = .ok (some header, staged)
  live : inp.aborted .parsed = false ∧ inp.aborted .preCommit = false ∧
    inp.aborted .commitPoint = false
  allowed : pushRefAllowed inp.members header.ref = true
  walked : (walkClosure (pushView lib staged inp.atWalk.store) (inp.oids staged)
    header.targetCommit).isOk
  equals : refEquals (inp.atCommit.refs header.ref) header.expectedOldRef = true

/-- **The condition on a push** that gets to its commit. -/
structure Wholesome (inp : PushInput) : Prop where
  typed : ∀ header staged, inp.Commits lib header staged →
    WellTyped (pushView lib staged inp.atWalk.store) header.targetCommit
  files : ∀ header staged, inp.Commits lib header staged →
    ∀ y o f, Demanded (pushView lib staged inp.atWalk.store) header.targetCommit y →
      (y.1, o) ∈ staged → inp.atCommit.store.file y.1 = some f →
      (inp.atCommit.store.read lib y.1).isSome

def PushInput.Grows (inp : PushInput) : Prop :=
  ∀ oid o, inp.atWalk.store.read lib oid = some o → inp.atCommit.store.read lib oid = some o

/-- SHA-1 gives different names to the objects of this push and of this repository. -/
def PushInput.NoCollision (inp : PushInput) : Prop :=
  ∀ header staged, inp.lines lib = .ok (header, staged) → ∀ oid o, (oid, o) ∈ staged →
    (∀ o', (oid, o') ∈ staged → o' = o) ∧
    ∀ o', inp.atCommit.store.read lib oid = some o' → o' = o

/-! ## The import -/

variable {lib} {inp : PushInput} {staged metas : List (String × GitObject)}
  {store store' : LooseStore} {oid : String} {o last : GitObject} {header : PushHeader}

theorem mem_of_stagedObject (h : stagedObject staged oid = some o) : (oid, o) ∈ staged := by
  obtain ⟨l₁, l₂, hsplit, -⟩ := List.lookup_eq_some_iff.mp h
  exact mem_reverse.mp (hsplit ▸ mem_append_right _ mem_cons_self)

theorem stagedObject_of_mem (h : (oid, o) ∈ staged) :
    ∃ last, stagedObject staged oid = some last := by
  by_contra hnone
  rw [not_exists, ← eq_none_iff_forall_ne_some, stagedObject,
    lookup_eq_none_iff] at hnone
  have := hnone (oid, o) (mem_reverse.mpr h)
  simp at this

theorem read_of_file (h : store.file oid = some (.object o)) (hoid : objectOid lib o = oid) :
    store.read lib oid = some o := by
  simp only [LooseStore.read, h, if_pos hoid]

theorem read_congr (h : store'.file oid = store.file oid) :
    store'.read lib oid = store.read lib oid := by
  simp only [LooseStore.read, h]

theorem file_of_read (h : store.read lib oid = some o) : store.file oid = some (.object o) := by
  unfold LooseStore.read at h
  split at h
  · next o' hfile =>
    split at h
    · cases h
      exact hfile
    · cases h
  · cases h

theorem import_file (oid' : String) :
    (store.import oid' o).file oid = store.file oid ∨
      (oid = oid' ∧ store.file oid = none ∧ (store.import oid' o).file oid = some (.object o)) := by
  unfold LooseStore.import
  split
  · exact .inl rfl
  · next hnone =>
    by_cases heq : oid = oid'
    · subst heq
      exact .inr ⟨rfl, not_isSome_iff_eq_none.mp hnone, update_self ..⟩
    · exact .inl (update_of_ne heq ..)

theorem importStaged_file (h : (importStaged lib staged metas store).1 = store') :
    store'.file oid = store.file oid ∨
      (store.file oid = none ∧ ∃ m last, (oid, m) ∈ metas ∧ stagedObject staged oid = some last ∧
        objectOid lib ⟨m.kind, last.bytes⟩ = oid ∧
        store'.file oid = some (.object ⟨m.kind, last.bytes⟩)) := by
  induction metas generalizing store with
  | nil =>
    subst h
    exact .inl rfl
  | cons entry metas ih =>
    obtain ⟨oid', m⟩ := entry
    simp only [importStaged] at h
    split at h
    · subst h
      exact .inl rfl
    · next last hlast =>
      split at h
      · subst h
        exact .inl rfl
      · next hoid =>
        rw [not_not] at hoid
        have hown := @import_file store oid ⟨m.kind, last.bytes⟩ oid'
        rcases ih h with hsame | ⟨hnone, m', last', hmem, hrest⟩
        · rcases hown with hkept | ⟨rfl, hnone, hnew⟩
          · exact .inl (hsame.trans hkept)
          · exact .inr ⟨hnone, m, last, mem_cons_self, hlast, hoid, hsame.trans hnew⟩
        · rcases hown with hkept | ⟨rfl, -, hnew⟩
          · exact .inr ⟨hkept ▸ hnone, m', last', mem_cons_of_mem _ hmem, hrest⟩
          · rw [hnew] at hnone
            cases hnone

theorem importStaged_added {f : LooseFile}
    (h : (importStaged lib staged metas store).1 = store') (hf : store'.file oid = some f) :
    store.file oid = some f ∨ ∃ o, f = .object o ∧ objectOid lib o = oid := by
  rcases @importStaged_file _ _ _ _ _ oid h with hkept | ⟨-, m, last, -, -, hoid, hnew⟩
  · exact .inl (hkept.symm.trans hf)
  · rw [hnew, some.injEq] at hf
    exact .inr ⟨_, hf.symm, hoid⟩

theorem importStaged_isSome (h : importStaged lib staged metas store = (store', true))
    (hmem : (oid, o) ∈ metas) : (store'.file oid).isSome := by
  induction metas generalizing store with
  | nil => cases hmem
  | cons entry metas ih =>
    obtain ⟨oid', m⟩ := entry
    simp only [importStaged] at h
    split at h
    · cases h
    · next last hlast =>
      split at h
      · cases h
      · rcases mem_cons.mp hmem with heq | hmem
        · cases heq
          -- it is there after its own turn, and stays
          have hthere : ((store.import oid ⟨o.kind, last.bytes⟩).file oid).isSome := by
            rcases @import_file store oid ⟨o.kind, last.bytes⟩ oid with hkept | ⟨-, -, hnew⟩
            · rw [hkept]
              by_contra hnone
              rw [not_isSome_iff_eq_none] at hnone
              rw [hnone] at hkept
              simp [LooseStore.import, hnone] at hkept
            · rw [hnew]
              rfl
          rcases @importStaged_file _ _ _ _ _ oid (congrArg Prod.fst h) with hsame | ⟨hnone, -⟩
          · rw [hsame]
            exact hthere
          · rw [hnone] at hthere
            cases hthere
        · exact ih h hmem

/-! ## The answers -/

theorem objectOid_of_readObjectLine {json : Json} (h : readObjectLine lib json = .ok (oid, o)) :
    objectOid lib o = oid := by
  unfold readObjectLine at h
  split at h
  · cases h
  · split at h
    · dsimp only at h
      split at h
      · cases h
      · split at h
        · cases h
        · split at h
          · cases h
          · next hoid =>
            split at h
            · cases h
            · cases h
              exact not_not.mp hoid
    · cases h

theorem objectOid_of_stageLines {lines : List (Except PushError Json)} {found : Option PushHeader}
    {staged' : List (String × GitObject)}
    (hstaged : ∀ oid o, (oid, o) ∈ staged → objectOid lib o = oid)
    (h : stageLines lib found staged lines = .ok (some header, staged'))
    (hmem : (oid, o) ∈ staged') : objectOid lib o = oid := by
  induction lines generalizing found staged with
  | nil =>
    cases h
    exact hstaged oid o hmem
  | cons line lines ih =>
    cases line with
    | error error => cases found <;> cases h
    | ok json =>
      cases found with
      | none =>
        simp only [stageLines] at h
        cases hheader : readHeader json with
        | error error =>
          rw [hheader] at h
          cases h
        | ok found =>
          rw [hheader] at h
          exact ih hstaged h
      | some found =>
        simp only [stageLines] at h
        cases hobject : readObjectLine lib json with
        | error error =>
          rw [hobject] at h
          cases h
        | ok object =>
          rw [hobject] at h
          simp only [bind, Except.bind] at h
          split at h
          · cases h
          · refine ih (fun oid o hmem => ?_) h
            rcases mem_append.mp hmem with hmem | hmem
            · exact hstaged oid o hmem
            · cases mem_singleton.mp hmem
              exact objectOid_of_readObjectLine hobject

theorem importStaged_whole
    (hstaged : ∀ oid o, (oid, o) ∈ staged → objectOid lib o = oid ∧
      ∀ o', (oid, o') ∈ staged → o' = o)
    (hmetas : ∀ x ∈ metas, x ∈ staged) : (importStaged lib staged metas store).2 = true := by
  induction metas generalizing store with
  | nil => rfl
  | cons entry metas ih =>
    obtain ⟨oid, o⟩ := entry
    have hmem := hmetas (oid, o) mem_cons_self
    obtain ⟨last, hlast⟩ := stagedObject_of_mem hmem
    obtain ⟨hoid, hunique⟩ := hstaged oid o hmem
    cases hunique last (mem_of_stagedObject hlast)
    simp only [importStaged, hlast, if_neg (not_not.mpr hoid)]
    exact ih fun x hx => hmetas x (mem_cons_of_mem _ hx)

theorem handlePush_cases :
    (∃ error, handlePush lib inp = ⟨.fail error, inp.atCommit⟩) ∨
    ∃ header staged, inp.Commits lib header staged := by
  unfold handlePush
  split
  · exact .inl ⟨_, rfl⟩
  · next hbudget =>
    split
    · exact .inl ⟨_, rfl⟩
    · next header staged hlines =>
      split
      · exact .inl ⟨_, rfl⟩
      · next hparsed =>
        split
        · exact .inl ⟨_, rfl⟩
        · next header =>
          split
          · exact .inl ⟨_, rfl⟩
          · next hallowed =>
            split
            · exact .inl ⟨_, rfl⟩
            · next hwalk =>
              split
              · exact .inl ⟨_, rfl⟩
              · next hpre =>
                by_cases hcommit : inp.aborted .commitPoint = true
                · exact .inl ⟨_, if_pos hcommit⟩
                · by_cases hequals :
                      refEquals (inp.atCommit.refs header.ref) header.expectedOldRef = true
                  · exact .inr ⟨header, staged,
                      { budget := not_le.mp hbudget
                        lines := hlines
                        live := by simp [hparsed, hpre, hcommit]
                        allowed := by simpa using hallowed
                        walked := by rw [hwalk]; rfl
                        equals := hequals }⟩
                  · have hunequal :
                        refEquals (inp.atCommit.refs header.ref) header.expectedOldRef = false := by
                      simpa using hequals
                    exact .inl ⟨_, by dsimp only; rw [pushWork, if_neg hcommit, if_pos hunequal]⟩

theorem handlePush_of_commits (hcoll : inp.NoCollision lib) (h : inp.Commits lib header staged) :
    ∃ store, importStaged lib staged staged inp.atCommit.store = (store, true) ∧
      handlePush lib inp = ⟨.ok header staged.length,
        { refs := update inp.atCommit.refs header.ref (some header.targetCommit),
          store }⟩ := by
  have hstaged : ∀ oid o, (oid, o) ∈ staged → objectOid lib o = oid ∧
      ∀ o', (oid, o') ∈ staged → o' = o := fun oid o hmem =>
    ⟨objectOid_of_stageLines (by simp) h.lines hmem, (hcoll _ _ h.lines oid o hmem).1⟩
  have himport : importStaged lib staged staged inp.atCommit.store =
      ((importStaged lib staged staged inp.atCommit.store).1, true) :=
    Prod.ext rfl (importStaged_whole hstaged fun _ hx => hx)
  refine ⟨_, himport, ?_⟩
  obtain ⟨visited, hwalk⟩ : ∃ visited, walkClosure (pushView lib staged inp.atWalk.store)
      (inp.oids staged) header.targetCommit = .ok visited := by
    cases hwalk : walkClosure (pushView lib staged inp.atWalk.store) (inp.oids staged)
        header.targetCommit with
    | ok visited => exact ⟨visited, rfl⟩
    | error missing =>
      have hwalked := h.walked
      rw [hwalk] at hwalked
      cases hwalked
  simp only [handlePush, if_neg (not_le.mpr h.budget), h.lines, h.live.1, h.live.2.1, h.allowed,
    hwalk, pushWork, h.live.2.2, h.equals, Bool.false_eq_true, if_false, Bool.true_eq_false]
  rw [himport]

/-! ## The closure in the store -/

section

variable (hgrow : inp.Grows lib)
  (himport : importStaged lib staged staged inp.atCommit.store = (store, true))
include hgrow himport

theorem isSome_read_of_view
    (hfiles : ∀ o f, (oid, o) ∈ staged → inp.atCommit.store.file oid = some f →
      (inp.atCommit.store.read lib oid).isSome)
    (hview : (pushView lib staged inp.atWalk.store oid).isSome) :
    (store.read lib oid).isSome := by
  have hfile := @importStaged_file _ _ _ _ _ oid (congrArg Prod.fst himport)
  simp only [pushView] at hview
  cases hstaged : stagedObject staged oid with
  | none =>
    rw [hstaged, none_or] at hview
    obtain ⟨o, ho⟩ := isSome_iff_exists.mp hview
    rcases hfile with hkept | ⟨hnone, -⟩
    · rw [read_congr hkept, hgrow oid o ho]
      rfl
    · rw [file_of_read (hgrow oid o ho)] at hnone
      cases hnone
  | some last =>
    have hmem := mem_of_stagedObject hstaged
    rcases hfile with hkept | ⟨-, m, last', hm, hlast', hoid, hnew⟩
    · obtain ⟨f, hf⟩ := isSome_iff_exists.mp (importStaged_isSome himport hmem)
      rw [read_congr hkept]
      exact hfiles last f hmem (hkept.symm.trans hf)
    · rw [read_of_file hnew hoid]
      rfl

variable
  (hsame : ∀ oid o, (oid, o) ∈ staged → (∀ o', (oid, o') ∈ staged → o' = o) ∧
    ∀ o', inp.atCommit.store.read lib oid = some o' → o' = o)
include hsame

theorem read_eq_of_view {o' : GitObject} (hread : store.read lib oid = some o)
    (hview : pushView lib staged inp.atWalk.store oid = some o') : o = o' := by
  have hfile := @importStaged_file _ _ _ _ _ oid (congrArg Prod.fst himport)
  simp only [pushView] at hview
  cases hstaged : stagedObject staged oid with
  | none =>
    rw [hstaged, none_or] at hview
    rcases hfile with hkept | ⟨hnone, -⟩
    · have := hgrow oid o' hview
      rw [← read_congr hkept, hread] at this
      exact some.inj this
    · rw [file_of_read (hgrow oid o' hview)] at hnone
      cases hnone
  | some last =>
    rw [hstaged, some_or, some.injEq] at hview
    subst hview
    have hmem := mem_of_stagedObject hstaged
    rcases hfile with hkept | ⟨-, m, last', hm, hlast', -, hnew⟩
    · exact (hsame oid last hmem).2 o ((read_congr hkept).symm.trans hread)
    · cases hstaged.symm.trans hlast'
      cases (hsame oid last hmem).1 m hm
      rw [file_of_read hread] at hnew
      cases hnew
      rfl

/-- **The closure is complete in the store** exactly if what is demanded is wholesome. -/
theorem complete_iff_of_import {target : String}
    (hwalk : (walkClosure (pushView lib staged inp.atWalk.store) (inp.oids staged) target).isOk) :
    Complete (store.read lib) target ↔
      WellTyped (pushView lib staged inp.atWalk.store) target ∧
      ∀ y o f, Demanded (pushView lib staged inp.atWalk.store) target y →
        (y.1, o) ∈ staged → inp.atCommit.store.file y.1 = some f →
        (inp.atCommit.store.read lib y.1).isSome := by
  have hoids : ∀ oid, (pushView lib staged inp.atWalk.store oid).isSome →
      oid ∈ inp.oids staged := by
    intro oid h
    rw [pushView, isSome_or, Bool.or_eq_true] at h
    rcases h with h | h
    · obtain ⟨o, ho⟩ := isSome_iff_exists.mp h
      exact mem_append_left _ (List.mem_map.mpr ⟨_, mem_of_stagedObject ho, rfl⟩)
    · obtain ⟨o, ho⟩ := isSome_iff_exists.mp h
      exact mem_append_right _ (inp.atWalk.store.mem_oids oid (by rw [file_of_read ho]; rfl))
  have hthere := (walkClosure_isOk_iff hoids).mp hwalk
  constructor
  · intro hcomplete
    have hagree : ∀ y, Demanded (store.read lib) target y →
        Demanded (pushView lib staged inp.atWalk.store) target y →
        pushView lib staged inp.atWalk.store y.1 = store.read lib y.1 := by
      intro y hy hy'
      obtain ⟨o, ho, -⟩ := hcomplete y hy
      obtain ⟨o', ho'⟩ := isSome_iff_exists.mp (hthere y.1 (reaches_of_demanded hy'))
      rw [ho, ho', read_eq_of_view hgrow himport hsame ho ho']
    obtain ⟨hview, hback⟩ := hcomplete.congr hagree
    refine ⟨hview.wellTyped, fun y o f hy hmem hf => ?_⟩
    obtain ⟨o', ho', -⟩ := hcomplete y (hback y hy)
    rcases @importStaged_file _ _ _ _ _ y.1 (congrArg Prod.fst himport) with hkept | ⟨hnone, -⟩
    · rw [← read_congr hkept, ho']
      rfl
    · rw [hnone] at hf
      cases hf
  · rintro ⟨htyped, hfiles⟩
    have hview : Complete (pushView lib staged inp.atWalk.store) target :=
      complete_of_walk hthere htyped
    refine (hview.congr fun y hy _ => ?_).1
    obtain ⟨o, ho, -⟩ := hview y hy
    have hsome := isSome_read_of_view hgrow himport
      (fun o f hmem hf => hfiles y o f hy hmem hf) (isSome_iff_exists.mpr ⟨o, ho⟩)
    obtain ⟨o', ho'⟩ := isSome_iff_exists.mp hsome
    rw [ho, ho', read_eq_of_view hgrow himport hsame ho' ho]

end

/-- **A push is sound** exactly if it is wholesome. -/
theorem push_sound (hgrow : inp.Grows lib) (hcoll : inp.NoCollision lib) :
    PushSound lib inp (handlePush lib inp) ↔ Wholesome lib inp := by
  have hunique : ∀ header staged header' staged', inp.Commits lib header staged →
      inp.Commits lib header' staged' → header' = header ∧ staged' = staged := by
    intro header staged header' staged' h h'
    have heq := h'.lines.symm.trans h.lines
    cases heq
    exact ⟨rfl, rfl⟩
  rcases @handlePush_cases lib inp with ⟨error, hpush⟩ | ⟨header, staged, hcommits⟩
  · -- refused: sound, and there is no commit to ask anything of
    have hnone : ∀ header staged, ¬ inp.Commits lib header staged := by
      intro header staged hcommits
      obtain ⟨store', -, hok⟩ := handlePush_of_commits hcoll hcommits
      rw [hpush] at hok
      cases hok
    rw [hpush]
    refine ⟨fun _ => ⟨fun _ _ h => absurd h (hnone _ _), fun _ _ h => absurd h (hnone _ _)⟩,
      fun _ => ⟨fun _ _ => rfl, fun _ _ hf => .inl hf, fun _ _ h => (by cases h)⟩⟩
  · obtain ⟨store, himport, hok⟩ := handlePush_of_commits hcoll hcommits
    have hiff := complete_iff_of_import hgrow himport (hcoll _ _ hcommits.lines) hcommits.walked
    rw [hok]
    constructor
    · intro hsound
      obtain ⟨htyped, hfiles⟩ := hiff.mp (hsound.accepted header staged.length rfl).2.2
      constructor
      · intro header' staged' h
        obtain ⟨rfl, rfl⟩ := hunique _ _ _ _ hcommits h
        exact htyped
      · intro header' staged' h
        obtain ⟨rfl, rfl⟩ := hunique _ _ _ _ hcommits h
        exact hfiles
    · intro hwhole
      refine ⟨fun _ h => (by cases h), fun oid f hf => ?_, fun header' _ h => ?_⟩
      · exact importStaged_added (congrArg Prod.fst himport) hf
      · cases h
        have hcomplete :=
          hiff.mpr ⟨hwhole.typed header staged hcommits, hwhole.files header staged hcommits⟩
        exact ⟨hcommits.equals, rfl, hcomplete⟩

end

/-! ## Two pushes -/

namespace SamplePush

def blob : GitObject := ⟨.blob, utf8Bytes "a"⟩

def blobOid : String := "2e65efe2a145dda7ee51d1741299f848e5bf752e"

/-- The entry `100644 a` of the blob. -/
def tree : GitObject :=
  ⟨.tree, utf8Bytes "100644 a\x00" ++
    [0x2e, 0x65, 0xef, 0xe2, 0xa1, 0x45, 0xdd, 0xa7, 0xee, 0x51, 0xd1, 0x74, 0x12, 0x99, 0xf8, 0x48,
      0xe5, 0xbf, 0x75, 0x2e]⟩

def treeOid : String := "b39954843ff6e09ec3aa2b942938c30c6bd1629e"

def commit : GitObject :=
  ⟨.commit, utf8Bytes ("tree b39954843ff6e09ec3aa2b942938c30c6bd1629e\n" ++
    "author a <a> 0 +0000\ncommitter a <a> 0 +0000\n\na\n")⟩

def commitOid : String := "51038c490135c022a768e1322694031ba357c69e"

def objects : List (String × GitObject × String) :=
  [(blobOid, blob, "YQ=="), (treeOid, tree, "MTAwNjQ0IGEALmXv4qFF3afuUdF0Epn4SOW/dS4="),
    (commitOid, commit,
      "dHJlZSBiMzk5NTQ4NDNmZjZlMDllYzNhYTJiOTQyOTM4YzMwYzZiZDE2MjllCmF1dGhvciBhIDxhPiAwICswMDAwCmNv"
        ++ "bW1pdHRlciBhIDxhPiAwICswMDAwCgphCg==")]

def header (target : String) : String × Json :=
  ("\x7b\"ref\":\"refs/heads/main\",\"expectedOldRef\":null,\"targetCommit\":\"" ++ target ++
      "\"\x7d",
    .obj [("ref", .str GROUP_REF), ("expectedOldRef", .null), ("targetCommit", .str target)])

def line (x : String × GitObject × String) : String × Json :=
  ("\x7b\"oid\":\"" ++ x.1 ++ "\",\"type\":\"" ++ x.2.1.kind.type ++ "\",\"length\":" ++
      toString x.2.1.bytes.length ++ ",\"contentBase64\":\"" ++ x.2.2 ++ "\"\x7d",
    .obj [("oid", .str x.1), ("type", .str x.2.1.kind.type), ("length", .num x.2.1.bytes.length),
      ("contentBase64", .str x.2.2)])

def lib : PushLib where
  sha1Hex bs := ((objects.find? fun x =>
    utf8Bytes s!"{x.2.1.kind.type} {x.2.1.bytes.length}\x00" ++ x.2.1.bytes = bs).map (·.1)).getD ""
  parseJson cs := ((header blobOid :: header commitOid :: objects.map line).find? fun x =>
    x.1.toList = cs).map (·.2)
  fromBase64 s := ((objects.find? fun x => x.2.2 = s).map (·.2.1.bytes)).getD []

def byteLib : PushLib :=
  { lib with
    parseJson := fun cs => ((header blobOid :: header commitOid :: objects.map line).find? fun x =>
      fromUtf8Lossy (utf8Bytes x.1) = cs).map (·.2) }

theorem lib_eq : lib = byteLib := by
  unfold lib byteLib
  simp only [utf8Bytes, fromUtf8Lossy_toUTF8]
  rfl

def empty : PushRepo := ⟨fun _ => none, ⟨fun _ => none, [], by simp⟩⟩

def push (lines : List (String × Json)) : PushInput where
  inflight := 0
  members := []
  body := .bytes (utf8Bytes (String.join (lines.map fun line => line.1 ++ "\n")))
  aborted _ := false
  atWalk := empty
  atCommit := empty

def blobPush : PushInput := push [header blobOid, line (blobOid, blob, "YQ==")]

def commitPush : PushInput := push (header commitOid :: objects.map line)

def staged : List (String × GitObject) := objects.map fun x => (x.1, x.2.1)

theorem commitPush_lines {found : Option PushHeader} {staged' : List (String × GitObject)}
    (h : commitPush.lines lib = .ok (found, staged')) :
    found.map (·.targetCommit) = some commitOid ∧ staged' = staged := by
  have hlines : ((commitPush.lines lib).toOption.map fun x => (x.1.map (·.targetCommit), x.2)) =
      some (some commitOid, staged) := by
    rw [lib_eq]
    decide +kernel
  rw [h] at hlines
  simpa [Except.toOption] using hlines

theorem blobPush_lines {found : Option PushHeader} {staged' : List (String × GitObject)}
    (h : blobPush.lines lib = .ok (found, staged')) :
    staged' = [(blobOid, blob)] := by
  have hlines : ((blobPush.lines lib).toOption.map fun x => x.2) = some [(blobOid, blob)] := by
    rw [lib_eq]
    decide +kernel
  rw [h] at hlines
  simpa [Except.toOption] using hlines

theorem grows (lines : List (String × Json)) : (push lines).Grows lib :=
  nofun

theorem demanded_mem {y : String × ObjectKind}
    (h : Demanded (pushView lib staged empty.store) commitOid y) :
    y ∈ [(commitOid, ObjectKind.commit), (treeOid, .tree), (blobOid, .blob)] := by
  have hview : ∀ x ∈ [(commitOid, ObjectKind.commit), (treeOid, .tree), (blobOid, .blob)],
      ∀ y ∈ ((pushView lib staged empty.store x.1).bind demands).getD [],
        y ∈ [(commitOid, ObjectKind.commit), (treeOid, .tree), (blobOid, .blob)] := by
    decide
  induction h with
  | refl => exact mem_cons_self
  | tail _ hnames ih =>
    obtain ⟨o, names, ho, hdemands, hmem⟩ := hnames
    exact hview _ ih _ (by simpa [ho, hdemands] using hmem)

/-- **A push of a commit with its tree and blob.** -/
theorem push_sound_commit : PushSound lib commitPush (handlePush lib commitPush) := by
  refine (push_sound (grows _) fun found staged' h oid o hmem => ?_).mpr ⟨?_, ?_⟩
  · obtain ⟨-, rfl⟩ := commitPush_lines h
    refine ⟨fun o' hmem' => ?_, nofun⟩
    have hunique : ∀ x ∈ staged, ∀ y ∈ staged, x.1 = y.1 → y.2 = x.2 := by decide
    exact hunique _ hmem _ hmem' rfl
  · intro header staged' h y hy o ho
    obtain ⟨htarget, rfl⟩ := commitPush_lines h.lines
    have hkinds : ∀ x ∈ [(commitOid, ObjectKind.commit), (treeOid, .tree), (blobOid, .blob)],
        ∀ o ∈ pushView lib staged empty.store x.1, o.kind = x.2 ∧ (demands o).isSome := by
      decide
    rw [map_some, some.injEq] at htarget
    rw [htarget] at hy
    exact hkinds y (demanded_mem hy) o ho
  · intro header staged' _ y o f _ _ hf
    cases hf

/-- **A blob as the target** is answered 200, and the group ref names it. -/
theorem blob_accepted :
    ((handlePush lib blobPush).repo.refs GROUP_REF = some blobOid ∧
      (handlePush lib blobPush).repo.store.read lib blobOid = some blob) ∧
    blobPush.Grows lib ∧ blobPush.NoCollision lib ∧
    ¬ PushSound lib blobPush (handlePush lib blobPush) := by
  have hread : (handlePush lib blobPush).repo.store.read lib blobOid = some blob := by
    rw [lib_eq]
    decide +kernel
  have href : (handlePush lib blobPush).repo.refs GROUP_REF = some blobOid := by
    rw [lib_eq]
    decide +kernel
  refine ⟨⟨href, hread⟩, grows _, fun found staged' h oid o hmem => ?_, ?_⟩
  · cases blobPush_lines h
    refine ⟨fun o' hmem' => ?_, nofun⟩
    cases mem_singleton.mp hmem
    cases mem_singleton.mp hmem'
    rfl
  · intro hsound
    have hok : ∃ header imported, (handlePush lib blobPush).response = .ok header imported ∧
        header.targetCommit = blobOid := by
      cases hresponse : (handlePush lib blobPush).response with
      | fail error =>
        rw [hsound.refused error hresponse] at href
        cases href
      | ok header imported =>
        refine ⟨header, imported, rfl, ?_⟩
        rw [(hsound.accepted header imported hresponse).2.1] at href
        rcases update_cases href with ⟨-, href⟩ | ⟨-, href⟩
        · exact some.inj href
        · cases href
    obtain ⟨header, imported, hresponse, htarget⟩ := hok
    obtain ⟨o, ho, hkind, -⟩ :=
      (hsound.accepted header imported hresponse).2.2 (header.targetCommit, .commit) .refl
    rw [htarget, hread] at ho
    cases ho
    cases hkind

end SamplePush

end Dweb
