import OpenDweb.Lib.Lookup
import OpenDweb.Lib.Machine

/-!
# OpenDweb — the collection of staging directories

Pushes that are received and fetches make a directory each, and take it away at their end:
`handlePush` (`endpoint.mjs`) and `fetchFromPeer` (`engine.mjs`) of `opendweb-ext-sync/src`. What a
crash leaves is for `gcStaging`, which `recoverAll`, `gcAll` and the end of a fetch call.

* **`sweepMachine`** — pushes, fetches, crashes and collections, in any interleaving at the grain of
  single operations on directories.
* **`Reclaims`** — nothing is taken from an operation under way; what was left for longer than the
  time to live when a collection began is gone when it is over.
* **`gcRoot_unknown`** — no collection looks where the directories are: `gcStaging` is given the
  directory of the directories and looks into its `staging`.
* **`reclaims_iff`** — so the collections have done their duty exactly if they never had one.
-/

namespace Dweb

open List Option

/-- A path, by its segments. -/
abbrev DirPath := List String

/-- A group and a root in it. -/
abbrev RepoId := String × String

/-! ## Where the directories are -/

def repoDir (home : DirPath) (repo : RepoId) : DirPath :=
  home ++ ["plugins", "sync", repo.1, repo.2]

def gitdirFor (home : DirPath) (repo : RepoId) : DirPath := repoDir home repo ++ ["git"]

/-- `stagingRoot` of `handlePush`. -/
def pushRoot (home : DirPath) (repo : RepoId) : DirPath := gitdirFor home repo ++ ["staging"]

def FETCH_STAGING : String := "fetch-staging"

/-- The parent of `staging` in `fetchFromPeer`. -/
def fetchRoot (home : DirPath) (repo : RepoId) : DirPath := repoDir home repo ++ [FETCH_STAGING]

inductive StagingUser where
  | push
  | fetch
deriving DecidableEq

/-- The directory of a push or a fetch; its name ends in the time and in random letters. -/
def stagingDir (home : DirPath) (repo : RepoId) (suffix : String) : StagingUser → DirPath
  | .push => pushRoot home repo ++ ["push-" ++ suffix]
  | .fetch => fetchRoot home repo ++ ["fetch-" ++ suffix]

/-- Where `gcStaging` looks. -/
def gcRoot (gitdir : DirPath) : DirPath := gitdir ++ ["staging"]

/-- What `recoverAll` and `gcAll` call `gcStaging` with, for one repository. -/
def sweepArgs (home : DirPath) (repo : RepoId) : List DirPath :=
  [gitdirFor home repo ++ ["staging"], repoDir home repo ++ [FETCH_STAGING]]

def STAGING_TTL_MS : Nat := 600000

/-! ## Directories -/

/-- A directory: the time of its last change, and its files. -/
structure StagedDir where
  mtime : Nat
  files : List String
deriving DecidableEq

abbrev StagedDirs := List (DirPath × StagedDir)

namespace StagedDirs

/-- `mkdir` with `recursive`. -/
def mkdirp (dirs : StagedDirs) (path : DirPath) (now : Nat) : StagedDirs :=
  dirs ++ ((path.inits.filter fun p => (dirs.lookup p).isNone).map (·, ⟨now, []⟩))

/-- `rm` with `recursive` and `force`. -/
def removeTree (dirs : StagedDirs) (path : DirPath) : StagedDirs :=
  dirs.filter fun d => !path.isPrefixOf d.1

def addFile (dirs : StagedDirs) (path : DirPath) (name : String) (now : Nat) : StagedDirs :=
  dirs.map fun d => if d.1 = path then (path, ⟨now, name :: d.2.files⟩) else d

def readdir (dirs : StagedDirs) (path : DirPath) : Option (List String) :=
  (dirs.lookup path).map fun _ =>
    dirs.filterMap fun d => if d.1.dropLast = path then d.1.getLast? else none

def isShell (dirs : StagedDirs) (path : DirPath) : Bool :=
  (dirs.lookup path).any (·.files = []) && dirs.readdir path = some []

end StagedDirs

/-! ## The machine -/

structure StagingOp where
  user : StagingUser
  repo : RepoId
  dir : DirPath
  made : Bool
  written : List String
  lost : Bool
deriving DecidableEq

/-- Where `gcStaging` is with the first of the entries that are left. -/
inductive EntryStage where
  | inner
  | stat
  | remove
deriving DecidableEq

structure GcPass where
  /-- What was left for longer than the time to live when it began. -/
  stale : List DirPath
  /-- The calls of `gcStaging` that are still to come. -/
  todo : List DirPath
  current : Option (DirPath × List String × EntryStage)
deriving DecidableEq

def GcPass.isOver (pass : GcPass) : Bool := pass.todo = [] && pass.current = none

structure SweepState where
  now : Nat
  dirs : StagedDirs
  ops : List StagingOp
  passes : List GcPass

inductive SweepLabel where
  | tick (ms : Nat)
  | begin (user : StagingUser) (repo : RepoId) (suffix : String)
  | mkdir (i : Nat)
  | write (i : Nat) (name : String)
  | read (i : Nat) (name : String)
  /-- Its end, with an answer or without; the directory is removed, or that fails. -/
  | finish (i : Nat) (removed : Bool)
  | crash
  /-- `recoverAll` or `gcAll`, for the repositories of the ledger. -/
  | sweep (repos : List RepoId)
  | collect (j : Nat)
  /-- `recoverIntent` throws. -/
  | abort (j : Nat)
deriving DecidableEq

namespace SweepState

/-- It is nobody's, and was last changed longer than the time to live ago. -/
def isStale (s : SweepState) (d : DirPath × StagedDir) : Bool :=
  s.ops.all (·.dir ≠ d.1) && d.2.mtime + STAGING_TTL_MS < s.now

/-- The directories of the pushes and fetches of some repositories that are stale. -/
def staleIn (home : DirPath) (s : SweepState) (repos : List RepoId) : List DirPath :=
  (s.dirs.filter fun d => s.isStale d && repos.any fun repo =>
    d.1.dropLast = pushRoot home repo || d.1.dropLast = fetchRoot home repo).map Prod.fst

/-- What `gcStaging` does next: the directories after it, and what is left to do. -/
def collect (s : SweepState) (pass : GcPass) : Option (StagedDirs × GcPass) :=
  match pass.current with
  | none =>
    match pass.todo with
    | [] => none
    | gitdir :: todo =>
      let root := gcRoot gitdir
      some (s.dirs, { pass with
        todo, current := (s.dirs.readdir root).map fun names => (root, names, .inner) })
  | some (_, [], _) => some (s.dirs, { pass with current := none })
  | some (root, name :: names, .inner) =>
    let stage := if s.dirs.isShell (root ++ [name]) then .remove else .stat
    some (s.dirs, { pass with current := some (root, name :: names, stage) })
  | some (root, name :: names, .stat) =>
    if (s.dirs.lookup (root ++ [name])).any fun d => d.mtime + STAGING_TTL_MS < s.now then
      some (s.dirs, { pass with current := some (root, name :: names, .remove) })
    else some (s.dirs, { pass with current := some (root, names, .inner) })
  | some (root, name :: names, .remove) =>
    some (s.dirs.removeTree (root ++ [name]), { pass with current := some (root, names, .inner) })

variable (home : DirPath)

def step (s : SweepState) : SweepLabel → Option SweepState
  | .tick ms => some { s with now := s.now + ms }
  | .begin user repo suffix =>
    let dir := stagingDir home repo suffix user
    -- a name is not taken twice
    if (s.dirs.lookup dir).isSome || s.ops.any (·.dir = dir) then none
    else some { s with ops := s.ops ++ [⟨user, repo, dir, false, [], false⟩] }
  | .mkdir i =>
    match s.ops[i]? with
    | some op =>
      if op.made then none
      else some { s with
        dirs := s.dirs.mkdirp op.dir s.now, ops := s.ops.set i { op with made := true } }
    | none => none
  | .write i name =>
    match s.ops[i]? with
    | some op =>
      if !op.made then none
      else if (s.dirs.lookup op.dir).isSome then
        some { s with
          dirs := s.dirs.addFile op.dir name s.now
          ops := s.ops.set i { op with written := name :: op.written } }
      else some { s with ops := s.ops.set i { op with lost := true } }
    | none => none
  | .read i name =>
    match s.ops[i]? with
    | some op =>
      if name ∉ op.written then none
      else if (s.dirs.lookup op.dir).any (name ∈ ·.files) then some s
      else some { s with ops := s.ops.set i { op with lost := true } }
    | none => none
  | .finish i removed =>
    match s.ops[i]? with
    | some op => some { s with
        dirs := if removed then s.dirs.removeTree op.dir else s.dirs
        ops := s.ops.eraseIdx i
        passes := match op.user with
          | .push => s.passes
          | .fetch => s.passes ++ [⟨[], [repoDir home op.repo ++ [FETCH_STAGING]], none⟩] }
    | none => none
  | .crash => some { s with ops := [], passes := s.passes.filter (·.isOver) }
  | .sweep repos => some { s with
      passes := s.passes ++ [⟨s.staleIn home repos, repos.flatMap (sweepArgs home), none⟩] }
  | .collect j =>
    match s.passes[j]? with
    | some pass => (s.collect pass).map fun r =>
        { s with dirs := r.1, passes := s.passes.set j r.2 }
    | none => none
  | .abort j => some { s with passes := s.passes.eraseIdx j }

end SweepState

def sweepMachine (home : DirPath) : Machine SweepState SweepLabel where
  init s := s = ⟨0, [], [], []⟩
  step s l := s.step home l

/-! ## What is promised -/

def StagingOp.Kept (dirs : StagedDirs) (op : StagingOp) : Prop :=
  op.lost = false ∧ (op.made = true →
    ∃ d, dirs.lookup op.dir = some d ∧ ∀ name ∈ op.written, name ∈ d.files)

structure Reclaims (s : SweepState) : Prop where
  kept : ∀ op ∈ s.ops, op.Kept s.dirs
  reclaimed : ∀ pass ∈ s.passes, pass.isOver = true → ∀ path ∈ pass.stale,
    s.dirs.lookup path = none

/-! ## Paths -/

def stagingRoot (home : DirPath) (repo : RepoId) : StagingUser → DirPath
  | .push => pushRoot home repo
  | .fetch => fetchRoot home repo

section

variable {home path : DirPath} {repo repo' : RepoId} {suffix name : String}
  {user user' : StagingUser}

theorem not_concat_prefix_root :
    ¬stagingRoot home repo' user' ++ [name] <+: stagingRoot home repo user := by
  cases user <;> cases user' <;>
    simp [stagingRoot, pushRoot, fetchRoot, gitdirFor, repoDir, FETCH_STAGING,
      prefix_append_right_inj, cons_prefix_cons]

/-- **Two entries of the roots are not below each other.** -/
theorem concat_prefix_concat {name' : String}
    (h : stagingRoot home repo' user' ++ [name'] <+: stagingRoot home repo user ++ [name]) :
    stagingRoot home repo' user' ++ [name'] = stagingRoot home repo user ++ [name] := by
  rcases prefix_concat_iff.mp h with h | h
  · exact h
  · exact absurd h not_concat_prefix_root

theorem stagingDir_eq (home : DirPath) (repo : RepoId) (suffix : String) (user : StagingUser) :
    ∃ name, stagingDir home repo suffix user = stagingRoot home repo user ++ [name] ∧
      name ≠ "staging" := by
  have hne : ∀ start, start = "push-" ∨ start = "fetch-" → start ++ suffix ≠ "staging" := by
    intro start hstart heq
    have hchars := congrArg (fun s => s.toList.head?) heq
    rcases hstart with rfl | rfl <;> simp [String.toList_append] at hchars
  cases user with
  | push => exact ⟨_, rfl, hne _ (Or.inl rfl)⟩
  | fetch => exact ⟨_, rfl, hne _ (Or.inr rfl)⟩

/-- What `gcStaging` is called with. -/
def IsSweepArg (home gitdir : DirPath) : Prop := ∃ repo user, gitdir = stagingRoot home repo user

/-- **No collection looks where the directories are.** -/
theorem gcRoot_unknown {gitdir : DirPath} (harg : IsSweepArg home gitdir) :
    ¬gcRoot gitdir <+: stagingDir home repo suffix user := by
  obtain ⟨repo', user', rfl⟩ := harg
  obtain ⟨name, hname, hne⟩ := stagingDir_eq home repo suffix user
  rw [hname]
  intro h
  have heq := concat_prefix_concat h
  exact hne (singleton_inj.mp (append_inj_right' heq rfl)).symm

end

/-! ## Directories, after an operation -/

namespace StagedDirs

variable {dirs dirs' : StagedDirs} {path p : DirPath} {name : String} {now : Nat}

def Grows (dirs dirs' : StagedDirs) : Prop :=
  ∀ p d, dirs.lookup p = some d → ∃ d', dirs'.lookup p = some d' ∧ ∀ f ∈ d.files, f ∈ d'.files

theorem Grows.isSome (h : dirs.Grows dirs') (hp : (dirs.lookup p).isSome = true) :
    (dirs'.lookup p).isSome = true := by
  obtain ⟨d, hd⟩ := isSome_iff_exists.mp hp
  obtain ⟨d', hd', -⟩ := h p d hd
  exact isSome_of_eq_some hd'

theorem grows_mkdirp : dirs.Grows (dirs.mkdirp path now) := by
  intro p d hd
  refine ⟨d, ?_, fun _ hf => hf⟩
  rw [mkdirp, lookup_append, hd]
  rfl

theorem lookup_mkdirp_self : ((dirs.mkdirp path now).lookup path).isSome = true := by
  rw [mkdirp, lookup_append, isSome_or, Bool.or_eq_true]
  by_cases hpath : (dirs.lookup path).isSome = true
  · exact Or.inl hpath
  · refine Or.inr (isSome_lookup_iff.mpr ⟨⟨now, []⟩, List.mem_map_of_mem ?_⟩)
    rw [mem_filter]
    refine ⟨(mem_inits _ _).mpr (prefix_refl path), ?_⟩
    rw [← not_isSome, Bool.not_eq_true']
    exact Bool.eq_false_iff.mpr hpath

theorem isSome_of_mkdirp (h : ((dirs.mkdirp path now).lookup p).isSome = true) :
    (dirs.lookup p).isSome = true ∨ p <+: path := by
  rw [mkdirp, lookup_append, isSome_or, Bool.or_eq_true] at h
  refine h.imp id fun h => ?_
  obtain ⟨d, hd⟩ := isSome_lookup_iff.mp h
  obtain ⟨q, hq, heq⟩ := List.mem_map.mp hd
  cases heq
  exact (mem_inits _ _).mp (mem_filter.mp hq).1

theorem lookup_addFile : (dirs.addFile path name now).lookup p
    = if p = path then (dirs.lookup p).map fun d => ⟨now, name :: d.files⟩ else dirs.lookup p :=
  lookup_map_key fun d : StagedDir => ⟨now, name :: d.files⟩

theorem grows_addFile : dirs.Grows (dirs.addFile path name now) := by
  intro p d hd
  rw [lookup_addFile, hd]
  split
  · exact ⟨_, rfl, fun f hf => mem_cons_of_mem _ hf⟩
  · exact ⟨d, rfl, fun f hf => hf⟩

theorem lookup_removeTree : (dirs.removeTree path).lookup p
    = if path <+: p then none else dirs.lookup p := by
  rw [removeTree, lookup_filter_key fun q => !path.isPrefixOf q]
  by_cases hp : path <+: p
  · rw [if_pos hp, isPrefixOf_iff_prefix.mpr hp]
    rfl
  · rw [if_neg hp, if_pos]
    rw [Bool.not_eq_true']
    exact Bool.eq_false_iff.mpr fun h => hp (List.isPrefixOf_iff_prefix.mp h)

end StagedDirs

/-! ## The invariant -/

section

variable {home : DirPath} {s s' : SweepState}

def IsStagingDir (home path : DirPath) : Prop :=
  ∃ repo name user, path = stagingRoot home repo user ++ [name]

theorem isStagingDir_stagingDir {repo : RepoId} {suffix : String} {user : StagingUser} :
    IsStagingDir home (stagingDir home repo suffix user) := by
  obtain ⟨name, hname, -⟩ := stagingDir_eq home repo suffix user
  exact ⟨repo, name, user, hname⟩

theorem IsStagingDir.not_prefix {p q : DirPath} (hp : IsStagingDir home p)
    (hq : IsStagingDir home q) (hne : q ≠ p) : ¬p <+: q := by
  obtain ⟨repo, name, user, rfl⟩ := hp
  obtain ⟨repo', name', user', rfl⟩ := hq
  exact fun h => hne (concat_prefix_concat h).symm

structure SweepFits (home : DirPath) (s : SweepState) : Prop where
  known : ∀ p, (s.dirs.lookup p).isSome = true →
    ∃ repo suffix user, p <+: stagingDir home repo suffix user
  ops : ∀ op ∈ s.ops, op.Kept s.dirs ∧ (op.made = false → op.written = []) ∧
    ∃ repo suffix user, op.dir = stagingDir home repo suffix user
  apart : (s.ops.map StagingOp.dir).Nodup
  calls : ∀ pass ∈ s.passes, pass.current = none ∧ ∀ gitdir ∈ pass.todo, IsSweepArg home gitdir
  stale : ∀ pass ∈ s.passes, ∀ p ∈ pass.stale, (s.dirs.lookup p).isSome = true ∧
    IsStagingDir home p ∧ ∀ op ∈ s.ops, op.dir ≠ p

theorem StagingOp.Kept.grows {op : StagingOp} {dirs dirs' : StagedDirs} (h : op.Kept dirs)
    (hgrows : dirs.Grows dirs') : op.Kept dirs' := by
  refine ⟨h.1, fun hmade => ?_⟩
  obtain ⟨d, hd, hfiles⟩ := h.2 hmade
  obtain ⟨d', hd', hsub⟩ := hgrows _ d hd
  exact ⟨d', hd', fun name hname => hsub name (hfiles name hname)⟩

variable {i : Nat}

theorem map_set_eq {α β : Type*} {f : α → β} {l : List α} {old new : α} (hi : l[i]? = some old)
    (hnew : f new = f old) : (l.set i new).map f = l.map f := by
  refine ext_getElem? fun j => ?_
  rw [getElem?_map, getElem?_map, getElem?_set]
  split
  · next heq =>
    subst heq
    rw [if_pos (List.getElem?_eq_some_iff.mp hi).1, hi, map_some, map_some, hnew]
  · rfl

theorem SweepFits.set {op op' : StagingOp} (h : SweepFits home s) (hi : s.ops[i]? = some op)
    (hops : s'.ops = s.ops.set i op') (hdir : op'.dir = op.dir) (hpasses : s'.passes = s.passes)
    (hgrows : s.dirs.Grows s'.dirs)
    (hknown : ∀ p, (s'.dirs.lookup p).isSome = true → (s.dirs.lookup p).isSome = true ∨ p <+: op.dir)
    (hkept : op'.Kept s'.dirs) (hwritten : op'.made = false → op'.written = []) :
    SweepFits home s' := by
  have hop := h.ops op (mem_of_getElem? hi)
  obtain ⟨-, -, repo, suffix, user, hopdir⟩ := hop
  have hmem : ∀ o ∈ s'.ops, o = op' ∨ o ∈ s.ops := by
    intro o ho
    rw [hops] at ho
    exact (mem_or_eq_of_mem_set ho).symm
  constructor
  case known =>
    intro p hp
    rcases hknown p hp with hp | hp
    · exact h.known p hp
    · exact ⟨repo, suffix, user, hopdir ▸ hp⟩
  case ops =>
    intro o ho
    rcases hmem o ho with rfl | ho
    · exact ⟨hkept, hwritten, repo, suffix, user, hdir.trans hopdir⟩
    · obtain ⟨hk, hrest⟩ := h.ops o ho
      exact ⟨hk.grows hgrows, hrest⟩
  case apart =>
    rw [hops, map_set_eq hi hdir]
    exact h.apart
  case calls =>
    rw [hpasses]
    exact h.calls
  case stale =>
    intro pass hpass p hp
    rw [hpasses] at hpass
    obtain ⟨hsome, hstaging, hnobody⟩ := h.stale pass hpass p hp
    refine ⟨hgrows.isSome hsome, hstaging, fun o ho => ?_⟩
    rcases hmem o ho with rfl | ho
    · rw [hdir]
      exact hnobody op (mem_of_getElem? hi)
    · exact hnobody o ho

theorem SweepFits.begin {user : StagingUser} {repo : RepoId} {suffix : String}
    (h : SweepFits home s) (hstep : s.step home (.begin user repo suffix) = some s') :
    SweepFits home s' := by
  simp only [SweepState.step] at hstep
  split at hstep
  case isTrue => cases hstep
  case isFalse hfree =>
  rw [Bool.or_eq_true, not_or, List.any_eq_true] at hfree
  obtain ⟨hnone, hother⟩ := hfree
  have hother : ∀ op ∈ s.ops, op.dir ≠ stagingDir home repo suffix user := by
    intro op hop heq
    exact hother ⟨op, hop, decide_eq_true heq⟩
  cases hstep
  constructor
  case known => exact h.known
  case ops =>
    intro op hop
    rcases mem_append.mp hop with hop | hop
    · exact h.ops op hop
    · rw [mem_singleton.mp hop]
      exact ⟨⟨rfl, nofun⟩, fun _ => rfl, repo, suffix, user, rfl⟩
  case apart =>
    rw [map_append, nodup_append]
    refine ⟨h.apart, nodup_singleton _, fun a ha b hb => ?_⟩
    obtain ⟨op, hop, rfl⟩ := List.mem_map.mp ha
    rw [mem_singleton.mp hb]
    exact hother op hop
  case calls => exact h.calls
  case stale =>
    intro pass hpass p hp
    obtain ⟨hsome, hstaging, hnobody⟩ := h.stale pass hpass p hp
    refine ⟨hsome, hstaging, fun op hop => ?_⟩
    rcases mem_append.mp hop with hop | hop
    · exact hnobody op hop
    · rw [mem_singleton.mp hop]
      rintro rfl
      exact hnone hsome

theorem SweepFits.finish {removed : Bool} (h : SweepFits home s)
    (hstep : s.step home (.finish i removed) = some s') : SweepFits home s' := by
  simp only [SweepState.step] at hstep
  split at hstep
  case h_2 => cases hstep
  case h_1 op hi =>
  cases hstep
  obtain ⟨-, -, repo, suffix, user, hopdir⟩ := h.ops op (mem_of_getElem? hi)
  have hopstaging : IsStagingDir home op.dir := hopdir ▸ isStagingDir_stagingDir
  have hlookup : ∀ p, ((if removed then s.dirs.removeTree op.dir else s.dirs).lookup p)
      = if removed = true ∧ op.dir <+: p then none else s.dirs.lookup p := by
    intro p
    cases removed with
    | false => simp
    | true => simpa using StagedDirs.lookup_removeTree
  -- what is not the directory of the operation stays
  have hstays : ∀ p, IsStagingDir home p → p ≠ op.dir →
      ((if removed then s.dirs.removeTree op.dir else s.dirs).lookup p) = s.dirs.lookup p := by
    intro p hp hne
    rw [hlookup, if_neg fun hboth => hopstaging.not_prefix hp hne hboth.2]
  have hothers : ∀ o ∈ s.ops.eraseIdx i, o ∈ s.ops ∧ o.dir ≠ op.dir := by
    intro o ho
    obtain ⟨j, hne, hj⟩ := mem_eraseIdx_iff_getElem?.mp ho
    refine ⟨mem_of_getElem? hj, fun heq => hne ?_⟩
    have hlt : j < (s.ops.map StagingOp.dir).length := by
      rw [length_map]
      exact (List.getElem?_eq_some_iff.mp hj).1
    refine (getElem?_inj hlt h.apart).mp ?_
    rw [getElem?_map, getElem?_map, hj, hi, map_some, map_some, heq]
  -- the collection at the end of a fetch has nothing that was stale
  let last : GcPass := ⟨[], [repoDir home op.repo ++ [FETCH_STAGING]], none⟩
  have hpasses : ∀ pass ∈ (match op.user with
      | .push => s.passes
      | .fetch => s.passes ++ [last]), pass ∈ s.passes ∨ pass = last := by
    intro pass hpass
    split at hpass
    · exact Or.inl hpass
    · exact (mem_append.mp hpass).imp id mem_singleton.mp
  constructor
  case known =>
    intro p hp
    simp only [hlookup] at hp
    split at hp
    · cases hp
    · exact h.known p hp
  case ops =>
    intro o ho
    obtain ⟨hmem, hne⟩ := hothers o ho
    obtain ⟨hkept, hwritten, repo', suffix', user', hodir⟩ := h.ops o hmem
    have hsame := hstays o.dir (hodir ▸ isStagingDir_stagingDir) hne
    refine ⟨⟨hkept.1, fun hmade => ?_⟩, hwritten, repo', suffix', user', hodir⟩
    rw [hsame]
    exact hkept.2 hmade
  case apart => exact h.apart.sublist ((eraseIdx_sublist _ _).map _)
  case calls =>
    intro pass hpass
    rcases hpasses pass hpass with hpass | rfl
    · exact h.calls pass hpass
    · refine ⟨rfl, fun gitdir hgitdir => ?_⟩
      rw [mem_singleton.mp hgitdir]
      exact ⟨op.repo, .fetch, rfl⟩
  case stale =>
    intro pass hpass p hp
    rcases hpasses pass hpass with hpass | rfl
    · obtain ⟨hsome, hstaging, hnobody⟩ := h.stale pass hpass p hp
      have hne : p ≠ op.dir := (hnobody op (mem_of_getElem? hi)).symm
      refine ⟨(congrArg Option.isSome (hstays p hstaging hne)).trans hsome, hstaging,
        fun o ho => hnobody o (hothers o ho).1⟩
    · cases hp

theorem SweepFits.sweep {repos : List RepoId} (h : SweepFits home s)
    (hstep : s.step home (.sweep repos) = some s') : SweepFits home s' := by
  cases hstep
  refine ⟨h.known, h.ops, h.apart, fun pass hpass => ?_, fun pass hpass p hp => ?_⟩
  · rcases mem_append.mp hpass with hpass | hpass
    · exact h.calls pass hpass
    · rw [mem_singleton.mp hpass]
      refine ⟨rfl, fun gitdir hgitdir => ?_⟩
      obtain ⟨repo, -, hgitdir⟩ := mem_flatMap.mp hgitdir
      rcases mem_cons.mp hgitdir with rfl | hgitdir
      · exact ⟨repo, .push, rfl⟩
      · rw [mem_singleton.mp hgitdir]
        exact ⟨repo, .fetch, rfl⟩
  · rcases mem_append.mp hpass with hpass | hpass
    · exact h.stale pass hpass p hp
    · rw [mem_singleton.mp hpass] at hp
      obtain ⟨⟨p, d⟩, hd, rfl⟩ := List.mem_map.mp hp
      obtain ⟨hmem, hd⟩ := mem_filter.mp hd
      rw [Bool.and_eq_true, SweepState.isStale, Bool.and_eq_true, List.all_eq_true,
        List.any_eq_true] at hd
      obtain ⟨⟨hnobody, -⟩, repo, -, hroot⟩ := hd
      have hroot : ∃ user, p.dropLast = stagingRoot home repo user := by
        rw [Bool.or_eq_true, decide_eq_true_eq, decide_eq_true_eq] at hroot
        rcases hroot with hroot | hroot
        · exact ⟨.push, hroot⟩
        · exact ⟨.fetch, hroot⟩
      obtain ⟨user, hroot⟩ := hroot
      have hne : p ≠ [] := by
        rintro rfl
        cases user <;>
          simp [stagingRoot, pushRoot, fetchRoot, gitdirFor, repoDir] at hroot
      refine ⟨isSome_lookup_iff.mpr ⟨d, hmem⟩, ⟨repo, p.getLast hne, user, ?_⟩, fun op hop => ?_⟩
      · rw [← hroot, dropLast_append_getLast]
      · exact of_decide_eq_true (hnobody op hop)

/-- **A step of a collection** finds no directory to look into. -/
theorem SweepFits.collect {j : Nat} (h : SweepFits home s)
    (hstep : s.step home (.collect j) = some s') : SweepFits home s' := by
  simp only [SweepState.step] at hstep
  split at hstep
  case h_2 => cases hstep
  case h_1 pass hj =>
  have hmem := mem_of_getElem? hj
  obtain ⟨hcurrent, htodo⟩ := h.calls pass hmem
  rw [SweepState.collect, hcurrent] at hstep
  cases hcalls : pass.todo with
  | nil =>
    rw [hcalls] at hstep
    cases hstep
  | cons gitdir todo =>
    rw [hcalls] at htodo hstep
    have harg := htodo gitdir mem_cons_self
    have hnone : s.dirs.lookup (gcRoot gitdir) = none := by
      rw [← not_isSome_iff_eq_none]
      intro hsome
      obtain ⟨repo, suffix, user, hp⟩ := h.known _ hsome
      exact gcRoot_unknown harg hp
    have hreaddir : s.dirs.readdir (gcRoot gitdir) = none := by
      rw [StagedDirs.readdir, hnone]
      rfl
    simp only [hreaddir, map_none, map_some, some.injEq] at hstep
    subst hstep
    refine ⟨h.known, h.ops, h.apart, forall_mem_set h.calls ?_, forall_mem_set h.stale ?_⟩
    · exact ⟨rfl, fun g hg => htodo g (mem_cons_of_mem _ hg)⟩
    · exact h.stale pass hmem

/-- **The invariant.** -/
theorem SweepFits.step {l : SweepLabel} (h : SweepFits home s)
    (hstep : s.step home l = some s') : SweepFits home s' := by
  cases l with
  | tick ms =>
    cases hstep
    exact ⟨h.known, h.ops, h.apart, h.calls, h.stale⟩
  | begin user repo suffix => exact h.begin hstep
  | finish i removed => exact h.finish hstep
  | sweep repos => exact h.sweep hstep
  | collect j => exact h.collect hstep
  | crash =>
    cases hstep
    refine ⟨h.known, nofun, nodup_nil, fun pass hpass => ?_, fun pass hpass p hp => ?_⟩
    · exact h.calls pass (mem_filter.mp hpass).1
    · obtain ⟨hsome, hstaging, -⟩ := h.stale pass (mem_filter.mp hpass).1 p hp
      exact ⟨hsome, hstaging, nofun⟩
  | abort j =>
    cases hstep
    exact ⟨h.known, h.ops, h.apart, fun pass hpass => h.calls pass (mem_of_mem_eraseIdx hpass),
      fun pass hpass => h.stale pass (mem_of_mem_eraseIdx hpass)⟩
  | mkdir i =>
    simp only [SweepState.step] at hstep
    split at hstep
    case h_2 => cases hstep
    case h_1 op hi =>
    split at hstep <;> cases hstep
    next hmade =>
    obtain ⟨hkept, hwritten, -⟩ := h.ops op (mem_of_getElem? hi)
    refine h.set hi rfl rfl rfl StagedDirs.grows_mkdirp (fun _ => StagedDirs.isSome_of_mkdirp)
      ⟨hkept.1, fun _ => ?_⟩ nofun
    obtain ⟨d, hd⟩ := isSome_iff_exists.mp
      (@StagedDirs.lookup_mkdirp_self s.dirs op.dir s.now)
    refine ⟨d, hd, fun name hname => ?_⟩
    rw [hwritten (Bool.eq_false_iff.mpr hmade)] at hname
    cases hname
  | write i name =>
    simp only [SweepState.step] at hstep
    split at hstep
    case h_2 => cases hstep
    case h_1 op hi =>
    obtain ⟨hkept, -⟩ := h.ops op (mem_of_getElem? hi)
    split at hstep
    · cases hstep
    · next hmade =>
      have hmade : op.made = true := by simpa using hmade
      obtain ⟨d, hd, hfiles⟩ := hkept.2 hmade
      split at hstep
      · cases hstep
        refine h.set hi rfl rfl rfl StagedDirs.grows_addFile (fun p hp => ?_) ⟨hkept.1, fun _ => ?_⟩
          fun hnot => absurd (hmade.symm.trans hnot) nofun
        · rw [StagedDirs.lookup_addFile] at hp
          split at hp
          · exact Or.inl (by simpa using hp)
          · exact Or.inl hp
        · refine ⟨⟨s.now, name :: d.files⟩, ?_, fun f hf => ?_⟩
          · rw [StagedDirs.lookup_addFile, if_pos rfl, hd]
            rfl
          · rcases mem_cons.mp hf with rfl | hf
            · exact mem_cons_self
            · exact mem_cons_of_mem _ (hfiles f hf)
      · next hgone => exact absurd (isSome_of_eq_some hd) hgone
  | read i name =>
    simp only [SweepState.step] at hstep
    split at hstep
    case h_2 => cases hstep
    case h_1 op hi =>
    obtain ⟨hkept, hwritten, -⟩ := h.ops op (mem_of_getElem? hi)
    split at hstep
    · cases hstep
    · next hname =>
      rw [not_not] at hname
      have hmade : op.made = true := by
        by_contra hnot
        rw [hwritten (Bool.eq_false_iff.mpr hnot)] at hname
        cases hname
      obtain ⟨d, hd, hfiles⟩ := hkept.2 hmade
      split at hstep
      · cases hstep
        exact h
      · next hgone =>
        rw [hd] at hgone
        exact absurd (decide_eq_true (hfiles name hname)) hgone

theorem sweep_invariant (h : (sweepMachine home).Reachable s) : SweepFits home s := by
  refine h.invariant (fun s hinit => ?_) fun s l s' hfits _ hstep => hfits.step hstep
  obtain rfl : s = ⟨0, [], [], []⟩ := hinit
  exact ⟨nofun, nofun, nodup_nil, nofun, nofun⟩

/-- **Collections**: they take nothing from an operation under way, in any run; and one that is over
has removed what was stale exactly if nothing was. -/
theorem reclaims_iff (h : (sweepMachine home).Reachable s) :
    (∀ op ∈ s.ops, op.Kept s.dirs) ∧
      (Reclaims s ↔ ∀ pass ∈ s.passes, pass.isOver = true → pass.stale = []) := by
  have hfits := sweep_invariant h
  have hkept : ∀ op ∈ s.ops, op.Kept s.dirs := fun op hop => (hfits.ops op hop).1
  refine ⟨hkept, fun hreclaims pass hpass hover => ?_, fun hnone => ⟨hkept, ?_⟩⟩
  · refine eq_nil_iff_forall_not_mem.mpr fun p hp => ?_
    have hsome := (hfits.stale pass hpass p hp).1
    rw [hreclaims.reclaimed pass hpass hover p hp] at hsome
    cases hsome
  · intro pass hpass hover p hp
    rw [hnone pass hpass hover] at hp
    cases hp

end

namespace SampleSweep

def repo : RepoId := ("g", "r")

def crashed : List SweepLabel :=
  [.begin .push repo "0-a", .mkdir 0, .write 0 "oid", .crash, .tick 600001, .sweep [repo],
    .collect 0, .collect 0]

def orderly : List SweepLabel :=
  [.begin .push repo "0-a", .mkdir 0, .begin .fetch repo "0-b", .sweep [repo], .mkdir 1,
    .collect 0, .write 0 "oid", .collect 0, .read 0 "oid", .finish 0 true, .write 0 "oid",
    .finish 0 true, .collect 1]

theorem crash_not_reclaimed : ∃ s, (sweepMachine ["home"]).Reachable s ∧
    (∃ pass ∈ s.passes, pass.isOver = true ∧ stagingDir ["home"] repo "0-a" .push ∈ pass.stale) ∧
    (s.dirs.lookup (stagingDir ["home"] repo "0-a" .push)).isSome = true ∧ ¬Reclaims s := by
  have hrun : ((sweepMachine ["home"]).run ⟨0, [], [], []⟩ crashed).any (fun s =>
      (s.passes.any fun pass =>
        pass.isOver && decide (stagingDir ["home"] repo "0-a" .push ∈ pass.stale)) &&
        (s.dirs.lookup (stagingDir ["home"] repo "0-a" .push)).isSome) = true := by
    decide +kernel
  obtain ⟨s, hs, hends⟩ := (Option.any_eq_true _ _).mp hrun
  rw [Bool.and_eq_true, List.any_eq_true] at hends
  obtain ⟨⟨pass, hpass, hends⟩, hsome⟩ := hends
  rw [Bool.and_eq_true, decide_eq_true_eq] at hends
  obtain ⟨hover, hstale⟩ := hends
  refine ⟨s, Machine.reachable_of_run rfl hs, ⟨pass, hpass, hover, hstale⟩, hsome, ?_⟩
  intro hreclaims
  rw [hreclaims.reclaimed pass hpass hover _ hstale] at hsome
  cases hsome

theorem orderly_reclaims : ∃ s, Reclaims s ∧ s.passes.length = 2 ∧ s.ops = [] := by
  have hrun : ((sweepMachine ["home"]).run ⟨0, [], [], []⟩ orderly).any (fun s =>
      (s.passes.all fun pass => pass.isOver && pass.stale = []) && s.passes.length = 2 &&
        s.ops = []) = true := by decide +kernel
  obtain ⟨s, hs, hends⟩ := (Option.any_eq_true _ _).mp hrun
  rw [Bool.and_eq_true, Bool.and_eq_true, List.all_eq_true] at hends
  obtain ⟨⟨hpasses, hlength⟩, hops⟩ := hends
  refine ⟨s, (reclaims_iff (Machine.reachable_of_run rfl hs)).2.mpr fun pass hpass _ => ?_,
    of_decide_eq_true hlength, of_decide_eq_true hops⟩
  exact of_decide_eq_true (Bool.and_eq_true_iff.mp (hpasses pass hpass)).2

end SampleSweep

end Dweb
