import OpenDweb.Ext.ObjectStore
import OpenDweb.Ext.RefWriters

/-!
# OpenDweb — refs and what they name

What writes objects and refs into a repository of `opendweb-ext-sync/src`, one call after another:
`commitLocal`, the transactions, `advanceDevice` and the first pull of `engine.mjs`, accepted
pushes of `endpoint.mjs`, and `fetchFromPeer`, with any answers to its requests.

* **`fetchFromPeer`** — the loop over the two refs, the pages of `want`, the transfer and the
  import; any request can fail, and so can the import.
* **`Whole`** — a fetch does not fail once it has mirrored a ref, and the peer hides nothing of
  what it names; who pushes, and what is pulled first, is whole.
* **`refs_whole`** — then every ref names a commit with all of its closure, a fetch that throws
  leaves the refs, a later one asks for what is missing, and merge bases are true.
* **`SampleFetch.mirrored_without_objects`** — without it, a ref names what is not there.
-/

namespace Dweb

open List Option
open Function (update update_of_ne update_self)

/-! ## Fetching -/

def WANT_HAVE_PAGE : Nat := 1000

def MAX_TRANSFER_BYTES : Nat := 256 * 1024 * 1024

structure FetchEnv (Oid : Type) where
  refs : Option (SyncRef → Option Oid)
  /-- The missing objects, for a commit and a page of names. -/
  want : Oid → List Oid → Option (List Oid)
  object : Oid → Bool
  /-- After how many imports the disk fails, if it does. -/
  imports : Option Nat

section

variable {Oid : Type}

/-- The pages of the names that are here; one at least. -/
def havePages : Nat → List Oid → List (List Oid)
  | 0, rest => [rest]
  | fuel + 1, rest =>
    if rest.length ≤ WANT_HAVE_PAGE then [rest]
    else rest.take WANT_HAVE_PAGE :: havePages fuel (rest.drop WANT_HAVE_PAGE)

theorem mem_havePages {fuel : Nat} {rest page : List Oid} {o : Oid}
    (hpage : page ∈ havePages fuel rest) (ho : o ∈ page) : o ∈ rest := by
  induction fuel generalizing rest with
  | zero =>
    cases mem_singleton.mp hpage
    exact ho
  | succ fuel ih =>
    simp only [havePages] at hpage
    split at hpage
    · cases mem_singleton.mp hpage
      exact ho
    · rcases mem_cons.mp hpage with rfl | hpage
      · exact mem_of_mem_take ho
      · exact mem_of_mem_drop (ih hpage)

variable [DecidableEq Oid]

def wantPages (want : List Oid → Option (List Oid)) : List (List Oid) → Option (List Oid)
  | [] => some []
  | [page] => want page
  | page :: pages => do
    let r ← want page
    let rest ← wantPages want pages
    return r.filter (· ∈ rest)

def wantClosure (env : FetchEnv Oid) (localOids : List Oid) (commit : Oid) : Option (List Oid) :=
  wantPages (env.want commit) (havePages localOids.length localOids)

/-- The loop over the refs: the refs as they are in the end, and what is missing, if the peer has
answered. -/
def gather (env : FetchEnv Oid) (localOids : List Oid) (peer : String)
    (peerRefs : SyncRef → Option Oid) :
    List SyncRef → (SyncRef → Option Oid) → List Oid → (SyncRef → Option Oid) × Option (List Oid)
  | [], refs, missing => (refs, some missing)
  | ref :: targets, refs, missing =>
    match peerRefs ref with
    | none => gather env localOids peer peerRefs targets refs missing
    | some commit =>
      if refs ref = some commit then gather env localOids peer peerRefs targets refs missing
      else
        let refs := if ref = .device peer then update refs ref (some commit) else refs
        match wantClosure env localOids commit with
        | none => (refs, none)
        | some oids =>
          gather env localOids peer peerRefs targets refs
            (missing ++ oids.filter (· ∉ missing))

def fetchTargets (peer : String) : List SyncRef := [.group, .device peer]

inductive FetchError where
  | refs
  | want
  | budget (count : Nat)
  | object
  | disk
deriving DecidableEq

structure FetchResult (Oid : Type) where
  refs : SyncRef → Option Oid
  store : List Oid
  requested : List Oid
  peerRefs : Except FetchError (SyncRef → Option Oid)

def mirrorLate (peer : String) (peerRefs refs : SyncRef → Option Oid) : SyncRef → Option Oid :=
  match peerRefs (.device peer) with
  | some commit =>
    if refs (.device peer) = some commit then refs
    else update refs (.device peer) (some commit)
  | none => refs

def transferFits (G : ObjectGraph Oid) (env : FetchEnv Oid) (missing : List Oid) : Bool :=
  missing.all env.object && (missing.map G.size).sum ≤ MAX_TRANSFER_BYTES

/-- `fetchFromPeer`. -/
def fetchFromPeer (G : ObjectGraph Oid) (refs : SyncRef → Option Oid) (store : List Oid)
    (peer : String) (env : FetchEnv Oid) : FetchResult Oid :=
  match env.refs with
  | none => ⟨refs, store, [], .error .refs⟩
  | some peerRefs =>
    match gather env store peer peerRefs (fetchTargets peer) refs [] with
    | (refs, none) => ⟨refs, store, [], .error .want⟩
    | (refs, some missing) =>
      if missing = [] then ⟨refs, store, [], .ok peerRefs⟩
      else if MAX_OBJECTS_PER_SYNC < missing.length then
        ⟨refs, store, [], .error (.budget missing.length)⟩
      else if transferFits G env missing = false then ⟨refs, store, missing, .error .object⟩
      else
        match env.imports with
        | some n => ⟨refs, store ++ missing.take n, missing, .error .disk⟩
        | none => ⟨mirrorLate peer peerRefs refs, store ++ missing, missing, .ok peerRefs⟩

end

/-! ## Steps -/

structure FetchLog (Oid : Type) where
  before : SyncRef → Option Oid
  after : SyncRef → Option Oid
  threw : Bool

structure RepoState (Oid : Type) where
  refs : SyncRef → Option Oid
  store : List Oid
  /-- What the refs have named, and what the group ref of the peer named when a fetch returned. -/
  known : List Oid
  fetches : List (FetchLog Oid)

inductive RepoLabel (Oid : Type) where
  /-- `commitLocal` of a scanned tree, with the objects that it writes. -/
  | commitLocal (tree commit : Oid) (objects : List Oid)
  | writeObjects (objects : List Oid)
  | fetch (peer : String) (env : FetchEnv Oid)
  | push (ref : SyncRef) (expectedOldRef : Option Oid) (targetCommit : Oid) (objects : List Oid)
  | intent (oldRef : Option Oid) (targetCommit : Oid)
  /-- A transaction to a merge, or to the resolution of a conflict. -/
  | intentMerge (oldRef : Option Oid) (parents : List Oid) (tree commit : Oid)
      (objects : List Oid)
  | pull (oldRef : Option Oid) (seedCommit : Oid)
  | advanceDevice (expected : Option Oid) (value : Oid)

namespace RepoState

variable {Oid : Type} [DecidableEq Oid]

omit [DecidableEq Oid] in
def writeRef (s : RepoState Oid) (ref : SyncRef) (commit : Oid) : RepoState Oid :=
  { s with refs := update s.refs ref (some commit), known := commit :: s.known }

omit [DecidableEq Oid] in
def addObjects (s : RepoState Oid) (objects : List Oid) : RepoState Oid :=
  { s with store := s.store ++ objects }

/-- The objects of a tree, if all are there and each is what it is named as. -/
def readTree (G : ObjectGraph Oid) (store : List Oid) (tree : Oid) : Option (List Oid) :=
  if G.kind tree = .tree then
    (G.walkClosure store tree).filter fun seen =>
      seen.all fun o => (G.names o).all fun x => G.kind x.1 = x.2
  else none

/-- `writeCommitOid`: what the scan and `writeTreeFromFlat` have written, and the commit. -/
def writeCommit (G : ObjectGraph Oid) (s : RepoState Oid) (parents : List Oid) (tree commit : Oid)
    (objects : List Oid) : Option (RepoState Oid) :=
  let s := s.addObjects (objects ++ [commit])
  if G.kind commit = .commit ∧ G.names commit = (tree, .tree) :: parents.map (·, .commit) ∧
      (readTree G s.store tree).isSome then some s
  else none

def step (own : String) (G : ObjectGraph Oid) (s : RepoState Oid) :
    RepoLabel Oid → Option (RepoState Oid)
  | .commitLocal tree commit objects =>
    (s.writeCommit G (s.refs (.device own)).toList tree commit objects).map
      fun s => s.writeRef (.device own) commit
  | .writeObjects objects => some (s.addObjects objects)
  | .fetch peer env =>
    let r := fetchFromPeer G s.refs s.store peer env
    let named := [r.refs (.device peer), r.peerRefs.toOption.bind fun peerRefs => peerRefs .group]
    some { s with
      refs := r.refs
      store := r.store
      known := named.filterMap id ++ s.known
      fetches := ⟨s.refs, r.refs, !r.peerRefs.isOk⟩ :: s.fetches }
  | .push ref expectedOldRef targetCommit objects =>
    if (G.walkClosure (s.store ++ objects) targetCommit).isSome ∧ s.refs ref = expectedOldRef then
      some ((s.addObjects objects).writeRef ref targetCommit)
    else none
  | .intent oldRef targetCommit =>
    if targetCommit ∈ s.known ∧ s.refs .group = oldRef then some (s.writeRef .group targetCommit)
    else none
  | .intentMerge oldRef parents tree commit objects =>
    if (∀ p ∈ parents, p ∈ s.known) ∧ s.refs .group = oldRef then
      (s.writeCommit G parents tree commit objects).map fun s => s.writeRef .group commit
    else none
  | .pull oldRef seedCommit =>
    if seedCommit ∈ s.store ∧ G.kind seedCommit = .commit ∧ s.refs .group = oldRef ∧
        ∀ x ∈ G.names seedCommit, x.2 = .tree → (readTree G s.store x.1).isSome then
      some (s.writeRef .group seedCommit)
    else none
  | .advanceDevice expected value =>
    if value ∈ s.known ∧ s.refs (.device own) = expected then
      some (s.writeRef (.device own) value)
    else none

end RepoState

section

variable {Oid : Type} [DecidableEq Oid] (G : ObjectGraph Oid)

/-- Every request of a fetch is answered, what is missing is within the budgets, and the disk is
well. -/
def FetchEnv.Answers (env : FetchEnv Oid) (refs : SyncRef → Option Oid) (store : List Oid)
    (peer : String) (peerRefs : SyncRef → Option Oid) : Prop :=
  ∃ missing, (gather env store peer peerRefs (fetchTargets peer) refs []).2 = some missing ∧
    missing.length ≤ MAX_OBJECTS_PER_SYNC ∧ transferFits G env missing = true ∧
    env.imports = none

/-- The peer names a commit, and all of it that a page does not have. -/
structure FetchEnv.Honest (env : FetchEnv Oid) (commit : Oid) : Prop where
  typed : G.Typed commit
  want : ∀ page missing, env.want commit page = some missing →
    ∀ o, Reaches G.links commit o → o ∉ page → o ∈ missing

/-- **The condition on a step.** -/
def Whole (s : RepoState Oid) : RepoLabel Oid → Prop
  | .fetch peer env => ∀ peerRefs, env.refs = some peerRefs →
    (env.Answers G s.refs s.store peer peerRefs ∨ peerRefs (.device peer) = none ∨
      peerRefs (.device peer) = s.refs (.device peer)) ∧
    ∀ ref ∈ fetchTargets peer, ∀ c, peerRefs ref = some c → env.Honest G c
  | .push _ _ targetCommit _ => G.Typed targetCommit
  | .pull _ seedCommit => G.Typed seedCommit ∧ G.ClosedIn s.store seedCommit
  | _ => True

variable {G} {env : FetchEnv Oid} {refs : SyncRef → Option Oid} {store missing out : List Oid}
  {peer : String} {peerRefs : SyncRef → Option Oid} {targets : List SyncRef}

omit [DecidableEq Oid] in
theorem havePages_ne_nil {fuel : Nat} {rest : List Oid} : havePages fuel rest ≠ [] := by
  cases fuel with
  | zero => simp [havePages]
  | succ fuel =>
    simp only [havePages]
    split <;> simp

variable {o c : Oid} {ref : SyncRef}

theorem mem_wantPages {want : List Oid → Option (List Oid)} {pages : List (List Oid)}
    (h : wantPages want pages = some out) (hne : pages ≠ [])
    (hmem : ∀ page ∈ pages, ∀ r, want page = some r → o ∈ r) : o ∈ out := by
  induction pages generalizing out with
  | nil => exact absurd rfl hne
  | cons page pages ih =>
    cases pages with
    | nil => exact hmem page mem_cons_self out h
    | cons page' pages =>
      simp only [wantPages, bind_eq_bind, bind_eq_some_iff, Option.pure_def,
        some.injEq] at h
      obtain ⟨r, hr, rest, hrest, rfl⟩ := h
      have ho : o ∈ rest := ih hrest (by simp) fun q hq => hmem q (mem_cons_of_mem _ hq)
      exact mem_filter.mpr
        ⟨hmem page mem_cons_self r hr, decide_eq_true ho⟩

theorem mem_wantClosure {commit : Oid}
    (hwant : ∀ page missing, env.want commit page = some missing → ∀ o, Reaches G.links commit o → o ∉ page → o ∈ missing)
    (h : wantClosure env store commit = some out) (ho : Reaches G.links commit o)
    (hstore : o ∉ store) : o ∈ out :=
  mem_wantPages h havePages_ne_nil fun page hpage r hr =>
    hwant page r hr o ho fun hmem => hstore (mem_havePages hpage hmem)

theorem gather_refs :
    (gather env store peer peerRefs targets refs missing).1 = refs ∨
      ∃ c, .device peer ∈ targets ∧ peerRefs (.device peer) = some c ∧
        refs (.device peer) ≠ some c ∧
        (gather env store peer peerRefs targets refs missing).1 =
          update refs (.device peer) (some c) := by
  induction targets generalizing refs missing with
  | nil => exact .inl rfl
  | cons ref targets ih =>
    have hlift : ∀ {refs' : SyncRef → Option Oid}, refs' = refs ∨
        (∃ c, .device peer ∈ targets ∧ peerRefs (.device peer) = some c ∧
          refs (.device peer) ≠ some c ∧
          refs' = update refs (.device peer) (some c)) →
        refs' = refs ∨ ∃ c, .device peer ∈ ref :: targets ∧ peerRefs (.device peer) = some c ∧
          refs (.device peer) ≠ some c ∧
          refs' = update refs (.device peer) (some c) := by
      rintro refs' (h | ⟨c, hmem, h⟩)
      · exact .inl h
      · exact .inr ⟨c, mem_cons_of_mem _ hmem, h⟩
    simp only [gather]
    split
    · exact hlift ih
    · next commit hcommit =>
      split
      · exact hlift ih
      · next hne =>
        by_cases hdevice : ref = .device peer
        · subst hdevice
          rw [if_pos rfl]
          -- it is written here, and what comes later finds it so
          have hdone : ∀ {refs' : SyncRef → Option Oid},
              (refs' = update refs (.device peer) (some commit) ∨
                ∃ c, .device peer ∈ targets ∧ peerRefs (.device peer) = some c ∧
                  update refs (.device peer) (some commit) (.device peer) ≠ some c ∧
                  refs' = update (update refs (.device peer) (some commit))
                    (.device peer) (some c)) →
              refs' = refs ∨ ∃ c, .device peer ∈ .device peer :: targets ∧
                peerRefs (.device peer) = some c ∧ refs (.device peer) ≠ some c ∧
                refs' = update refs (.device peer) (some c) := by
            rintro refs' (h | ⟨c, -, hc, hother, -⟩)
            · exact .inr ⟨commit, mem_cons_self, hcommit, hne, h⟩
            · rw [update_self] at hother
              exact absurd (hcommit.symm.trans hc) hother
          split
          · exact hdone (.inl rfl)
          · exact hdone ih
        · rw [if_neg hdevice]
          split
          · exact .inl rfl
          · exact hlift ih

theorem gather_missing (hnodup : targets.Nodup)
    (h : (gather env store peer peerRefs targets refs missing).2 = some out) :
    missing ⊆ out ∧ ∀ ref ∈ targets, ∀ c, peerRefs ref = some c →
      refs ref = some c ∨ ∃ oids, wantClosure env store c = some oids ∧ oids ⊆ out := by
  induction targets generalizing refs missing with
  | nil =>
    cases h
    exact ⟨fun _ => id, by simp⟩
  | cons ref targets ih =>
    obtain ⟨hnot, hnodup⟩ := nodup_cons.mp hnodup
    simp only [gather] at h
    split at h
    · next hnone =>
      obtain ⟨hsub, hcover⟩ := ih hnodup h
      refine ⟨hsub, fun r hr c hc => ?_⟩
      rcases mem_cons.mp hr with rfl | hr
      · rw [hnone] at hc
        cases hc
      · exact hcover r hr c hc
    · next commit hcommit =>
      split at h
      · next hsame =>
        obtain ⟨hsub, hcover⟩ := ih hnodup h
        refine ⟨hsub, fun r hr c hc => ?_⟩
        rcases mem_cons.mp hr with rfl | hr
        · rw [hcommit] at hc
          cases hc
          exact .inl hsame
        · exact hcover r hr c hc
      · split at h
        · cases h
        · next oids hoids =>
          obtain ⟨hsub, hcover⟩ := ih hnodup h
          refine ⟨fun o ho => hsub (mem_append_left _ ho), fun r hr c hc => ?_⟩
          rcases mem_cons.mp hr with rfl | hr
          · rw [hcommit] at hc
            cases hc
            refine .inr ⟨oids, hoids, fun o ho => hsub ?_⟩
            by_cases hmem : o ∈ missing
            · exact mem_append_left _ hmem
            · exact mem_append_right _ (mem_filter.mpr ⟨ho, decide_eq_true hmem⟩)
          · have hother : r ≠ ref := fun heq => hnot (heq ▸ hr)
            rcases hcover r hr c hc with hsame | hfound
            · refine .inl ?_
              split at hsame
              · rwa [update_of_ne hother] at hsame
              · exact hsame
            · exact .inr hfound

theorem nodup_fetchTargets : (fetchTargets peer).Nodup := by
  simp [fetchTargets]

/-! ## A fetch -/

theorem fetch_store : store ⊆ (fetchFromPeer G refs store peer env).store := by
  unfold fetchFromPeer
  split
  · exact fun _ => id
  split
  · exact fun _ => id
  split
  · exact fun _ => id
  split
  · exact fun _ => id
  split
  · exact fun _ => id
  split
  · exact subset_append_left _ _
  · exact subset_append_left _ _

theorem gather_ref (h : (gather env store peer peerRefs targets refs missing).1 ref = some c) :
    refs ref = some c ∨ (ref = .device peer ∧ peerRefs ref = some c) := by
  have hrefs : (gather env store peer peerRefs targets refs missing).1 = refs ∨ _ := gather_refs
  rcases hrefs with hsame | ⟨c', -, hc', -, heq⟩
  · exact .inl (hsame ▸ h)
  · rw [heq] at h
    by_cases href : ref = .device peer
    · subst href
      rw [update_self] at h
      exact .inr ⟨rfl, hc'.trans h⟩
    · rw [update_of_ne href] at h
      exact .inl h

theorem mirrorLate_ref (h : mirrorLate peer peerRefs refs ref = some c) :
    refs ref = some c ∨ (ref = .device peer ∧ peerRefs ref = some c) := by
  cases hcommit : peerRefs (.device peer) with
  | none =>
    rw [mirrorLate, hcommit] at h
    exact .inl h
  | some commit =>
    simp only [mirrorLate, hcommit] at h
    split at h
    · exact .inl h
    · by_cases href : ref = .device peer
      · subst href
        rw [update_self] at h
        exact .inr ⟨rfl, hcommit.trans h⟩
      · rw [update_of_ne href] at h
        exact .inl h

theorem fetch_ok (h : (fetchFromPeer G refs store peer env).peerRefs = .ok peerRefs) :
    env.refs = some peerRefs ∧
      (∀ ref c, (fetchFromPeer G refs store peer env).refs ref = some c →
        refs ref = some c ∨ (ref = .device peer ∧ peerRefs ref = some c)) ∧
      ∃ missing, (gather env store peer peerRefs (fetchTargets peer) refs []).2 = some missing ∧
        missing ⊆ (fetchFromPeer G refs store peer env).store := by
  unfold fetchFromPeer at h ⊢
  cases henv : env.refs with
  | none =>
    rw [henv] at h
    cases h
  | some pr =>
    rw [henv] at h
    have hrefs : ∀ ref c, (gather env store peer pr (fetchTargets peer) refs []).1 ref = some c →
        refs ref = some c ∨ (ref = .device peer ∧ pr ref = some c) := fun ref c => gather_ref
    rcases hgather : gather env store peer pr (fetchTargets peer) refs [] with ⟨refs', _ | missing⟩
    · simp only [hgather] at h
      cases h
    rw [hgather] at hrefs
    simp only [hgather] at h ⊢
    by_cases hnil : missing = []
    · simp only [if_pos hnil] at h ⊢
      cases h
      exact ⟨rfl, hrefs, missing, by rw [hgather], by simp [hnil]⟩
    simp only [if_neg hnil] at h ⊢
    by_cases hbudget : MAX_OBJECTS_PER_SYNC < missing.length
    · simp only [if_pos hbudget] at h
      cases h
    simp only [if_neg hbudget] at h ⊢
    by_cases hfits : transferFits G env missing = false
    · simp only [if_pos hfits] at h
      cases h
    simp only [if_neg hfits] at h ⊢
    cases himports : env.imports with
    | some n =>
      simp only [himports] at h
      cases h
    | none =>
      simp only [himports] at h ⊢
      cases h
      refine ⟨rfl, fun ref c hc => ?_, missing, by rw [hgather], subset_append_right _ _⟩
      rcases mirrorLate_ref hc with hc | hc
      · exact hrefs ref c hc
      · exact .inr hc

/-- **A fetch that throws leaves the refs**, where it does not fail after it has mirrored one. -/
theorem fetch_error {e : FetchError}
    (h : (fetchFromPeer G refs store peer env).peerRefs = .error e)
    (hmirror : ∀ peerRefs, env.refs = some peerRefs →
      env.Answers G refs store peer peerRefs ∨ peerRefs (.device peer) = none ∨
        peerRefs (.device peer) = refs (.device peer)) :
    (fetchFromPeer G refs store peer env).refs = refs := by
  unfold fetchFromPeer at h ⊢
  cases henv : env.refs with
  | none => rfl
  | some pr =>
    rw [henv] at h
    -- if nothing is mirrored, the loop leaves the refs
    have hsame : ¬env.Answers G refs store peer pr →
        (gather env store peer pr (fetchTargets peer) refs []).1 = refs := by
      intro hanswers
      have hrefs : (gather env store peer pr (fetchTargets peer) refs []).1 = refs ∨ _ := gather_refs
      rcases hrefs with hsame | ⟨c, -, hc, hother, -⟩
      · exact hsame
      · rcases (hmirror pr henv).resolve_left hanswers with hnone | heq
        · rw [hnone] at hc
          cases hc
        · exact absurd (heq.symm.trans hc) hother
    rcases hgather : gather env store peer pr (fetchTargets peer) refs [] with ⟨refs', _ | missing⟩
    · simp only [hgather]
      rw [hgather] at hsame
      refine hsame ?_
      rintro ⟨missing, hmissing, -⟩
      rw [hgather] at hmissing
      cases hmissing
    rw [hgather] at hsame
    have hanswers : env.Answers G refs store peer pr → missing.length ≤ MAX_OBJECTS_PER_SYNC ∧
        transferFits G env missing = true ∧ env.imports = none := by
      rintro ⟨missing', hmissing, hrest⟩
      rw [hgather] at hmissing
      cases hmissing
      exact hrest
    simp only [hgather] at h ⊢
    by_cases hnil : missing = []
    · simp only [if_pos hnil] at h
      cases h
    simp only [if_neg hnil] at h ⊢
    by_cases hbudget : MAX_OBJECTS_PER_SYNC < missing.length
    · simp only [if_pos hbudget]
      exact hsame fun ha => absurd (hanswers ha).1 (Nat.not_le.mpr hbudget)
    simp only [if_neg hbudget] at h ⊢
    by_cases hfits : transferFits G env missing = false
    · simp only [if_pos hfits]
      refine hsame fun ha => ?_
      rw [(hanswers ha).2.1] at hfits
      cases hfits
    simp only [if_neg hfits] at h ⊢
    cases himports : env.imports with
    | some n =>
      simp only
      refine hsame fun ha => ?_
      rw [(hanswers ha).2.2] at himports
      cases himports
    | none =>
      simp only [himports] at h
      cases h

/-- **A fetch keeps the refs whole.** -/
theorem fetch_closed {r : FetchResult Oid} (hr : fetchFromPeer G refs store peer env = r)
    (hclosed : ∀ ref c, refs ref = some c → G.Typed c ∧ G.ClosedIn store c)
    (hguard : ∀ peerRefs, env.refs = some peerRefs →
      (env.Answers G refs store peer peerRefs ∨ peerRefs (.device peer) = none ∨
        peerRefs (.device peer) = refs (.device peer)) ∧
      ∀ ref ∈ fetchTargets peer, ∀ c, peerRefs ref = some c → env.Honest G c) :
    (∀ ref c, r.refs ref = some c → G.Typed c ∧ G.ClosedIn r.store c) ∧
      ∀ peerRefs, r.peerRefs = .ok peerRefs → ∀ ref ∈ fetchTargets peer, ∀ c,
        peerRefs ref = some c → G.Typed c ∧ G.ClosedIn r.store c := by
  have hstore : store ⊆ r.store := hr ▸ fetch_store
  have hold : ∀ ref c, refs ref = some c → G.Typed c ∧ G.ClosedIn r.store c :=
    fun ref c hc => ⟨(hclosed ref c hc).1, (hclosed ref c hc).2.mono hstore⟩
  cases hresult : r.peerRefs with
  | error e =>
    rw [← hr] at hresult
    have hsame : r.refs = refs := by
      rw [← hr]
      exact fetch_error hresult fun peerRefs hp => (hguard peerRefs hp).1
    exact ⟨fun ref c hc => hold ref c (hsame ▸ hc), fun _ hok => nomatch hok⟩
  | ok peerRefs =>
    rw [← hr] at hresult
    obtain ⟨henv, hrefs, missing, hmissing, hsub⟩ := fetch_ok hresult
    rw [hr] at hrefs hsub
    obtain ⟨-, hfound⟩ := gather_missing nodup_fetchTargets hmissing
    have htargets : ∀ ref ∈ fetchTargets peer, ∀ c, peerRefs ref = some c →
        G.Typed c ∧ G.ClosedIn r.store c := by
      intro ref href c hc
      have hhonest := (hguard peerRefs henv).2 ref href c hc
      rcases hfound ref href c hc with hsame | ⟨oids, hoids, hin⟩
      · exact hold ref c hsame
      · refine ⟨hhonest.typed, fun o ho => ?_⟩
        by_cases hhere : o ∈ store
        · exact hstore hhere
        · exact hsub (hin (mem_wantClosure hhonest.want hoids ho hhere))
    refine ⟨fun ref c hc => ?_, fun peerRefs' hok => by cases hok; exact htargets⟩
    rcases hrefs ref c hc with hc | ⟨rfl, hc⟩
    · exact hold ref c hc
    · exact htargets _ (by simp [fetchTargets]) c hc

variable {own : String} {s s' : RepoState Oid}

theorem readTree_spec {tree : Oid} (h : (RepoState.readTree G store tree).isSome) :
    G.kind tree = .tree ∧ G.ClosedIn store tree ∧ ∀ o, Reaches G.links tree o → G.Sound o := by
  unfold RepoState.readTree at h
  split at h
  · next hkind =>
    obtain ⟨seen, hseen⟩ := isSome_iff_exists.mp h
    obtain ⟨hwalk, hall⟩ := filter_eq_some_iff.mp hseen
    obtain ⟨hclosed, hmem⟩ := ObjectGraph.walkClosure_eq_some hwalk
    refine ⟨hkind, hclosed, fun o ho x hx => ?_⟩
    simp only [List.all_eq_true, decide_eq_true_eq] at hall
    exact hall o ((hmem o).mpr ho) x hx
  · cases h

theorem writeCommit_spec {parents objects : List Oid} {tree commit : Oid}
    (h : s.writeCommit G parents tree commit objects = some s')
    (hparents : ∀ p ∈ parents, G.Typed p ∧ G.ClosedIn s.store p) :
    s' = s.addObjects (objects ++ [commit]) ∧ G.Typed commit ∧ G.ClosedIn s'.store commit := by
  obtain ⟨hwritten, h⟩ := ite_none_right_eq_some.mp h
  cases h
  obtain ⟨hkind, hnames, htree⟩ := hwritten
  obtain ⟨htreekind, htreeclosed, htreesound⟩ := readTree_spec htree
  have hlinks : ∀ x ∈ G.links commit, x = tree ∨ x ∈ parents := by
    intro x hx
    rw [ObjectGraph.links, hnames] at hx
    simpa using hx
  have hstore : ∀ p ∈ parents, G.ClosedIn (s.addObjects (objects ++ [commit])).store p :=
    fun p hp => (hparents p hp).2.mono (subset_append_left _ _)
  refine ⟨rfl, ObjectGraph.typed_of_names hkind ?_ ?_, ObjectGraph.closedIn_of_links ?_ ?_⟩
  · intro x hx
    rw [hnames] at hx
    rcases mem_cons.mp hx with rfl | hx
    · exact htreekind
    · obtain ⟨p, hp, rfl⟩ := List.mem_map.mp hx
      exact (hparents p hp).1.kind
  · intro x hx o ho
    rcases hlinks x hx with rfl | hp
    · exact htreesound o ho
    · exact (hparents x hp).1.sound o ho
  · simp [RepoState.addObjects]
  · intro x hx
    rcases hlinks x hx with rfl | hp
    · exact htreeclosed
    · exact hstore x hp

structure RepoInv (G : ObjectGraph Oid) (s : RepoState Oid) : Prop where
  closed : ∀ ref c, s.refs ref = some c → G.Typed c ∧ G.ClosedIn s.store c
  known : ∀ c ∈ s.known, G.Typed c ∧ G.ClosedIn s.store c
  kept : ∀ f ∈ s.fetches, f.threw = true → f.after = f.before

namespace RepoInv

omit [DecidableEq Oid] in
theorem addObjects (h : RepoInv G s) (objects : List Oid) : RepoInv G (s.addObjects objects) where
  closed ref c hc := ⟨(h.closed ref c hc).1, (h.closed ref c hc).2.mono (subset_append_left _ _)⟩
  known c hc := ⟨(h.known c hc).1, (h.known c hc).2.mono (subset_append_left _ _)⟩
  kept := h.kept

omit [DecidableEq Oid] in
theorem writeRef {ref : SyncRef} {commit : Oid} (h : RepoInv G s)
    (hcommit : G.Typed commit ∧ G.ClosedIn s.store commit) : RepoInv G (s.writeRef ref commit) where
  closed ref' c hc := by
    by_cases href : ref' = ref
    · subst href
      simp only [RepoState.writeRef, update_self, some.injEq] at hc
      exact hc ▸ hcommit
    · simp only [RepoState.writeRef, update_of_ne href] at hc
      exact h.closed ref' c hc
  known c hc := by
    rcases mem_cons.mp hc with rfl | hc
    · exact hcommit
    · exact h.known c hc
  kept := h.kept

/-- **One step.** -/
theorem step {l : RepoLabel Oid} (h : RepoInv G s) (hguard : Whole G s l)
    (hstep : s.step own G l = some s') : RepoInv G s' := by
  cases l with
  | commitLocal tree commit objects =>
    obtain ⟨t, ht, rfl⟩ := map_eq_some_iff.mp hstep
    obtain ⟨rfl, hcommit⟩ := writeCommit_spec ht fun p hp =>
      h.closed (.device own) p (mem_toList.mp hp)
    exact (h.addObjects _).writeRef hcommit
  | writeObjects objects =>
    cases hstep
    exact h.addObjects objects
  | fetch peer env =>
    cases hstep
    obtain ⟨hrefs, hpeer⟩ := fetch_closed (r := fetchFromPeer G s.refs s.store peer env) rfl
      h.closed hguard
    refine ⟨hrefs, fun c hc => ?_, fun f hf hthrew => ?_⟩
    · simp only [mem_append, mem_filterMap, mem_cons, not_mem_nil, or_false,
        id_eq, exists_eq_right] at hc
      rcases hc with (hc | hc) | hc
      · exact hrefs _ c hc.symm
      · obtain ⟨peerRefs, hok, hgroup⟩ := bind_eq_some_iff.mp hc.symm
        refine hpeer peerRefs ?_ .group (by simp [fetchTargets]) c hgroup
        cases hresult : (fetchFromPeer G s.refs s.store peer env).peerRefs with
        | error e =>
          rw [hresult] at hok
          cases hok
        | ok pr =>
          rw [hresult] at hok
          cases hok
          rfl
      · exact ⟨(h.known c hc).1, (h.known c hc).2.mono fetch_store⟩
    · rcases mem_cons.mp hf with rfl | hf
      · cases hresult : (fetchFromPeer G s.refs s.store peer env).peerRefs with
        | error e => exact fetch_error hresult fun peerRefs hp => (hguard peerRefs hp).1
        | ok pr =>
          simp only [hresult] at hthrew
          cases hthrew
      · exact h.kept f hf hthrew
  | push ref expectedOldRef targetCommit objects =>
    obtain ⟨haccepted, hstep⟩ := ite_none_right_eq_some.mp hstep
    cases hstep
    exact (h.addObjects objects).writeRef
      ⟨hguard, ObjectGraph.walkClosure_isSome_iff.mp haccepted.1⟩
  | intent oldRef targetCommit =>
    obtain ⟨hknown, hstep⟩ := ite_none_right_eq_some.mp hstep
    cases hstep
    exact h.writeRef (h.known targetCommit hknown.1)
  | intentMerge oldRef parents tree commit objects =>
    obtain ⟨hknown, hstep⟩ := ite_none_right_eq_some.mp hstep
    obtain ⟨t, ht, rfl⟩ := map_eq_some_iff.mp hstep
    obtain ⟨rfl, hcommit⟩ := writeCommit_spec ht fun p hp => h.known p (hknown.1 p hp)
    exact (h.addObjects _).writeRef hcommit
  | pull oldRef seedCommit =>
    obtain ⟨-, hstep⟩ := ite_none_right_eq_some.mp hstep
    cases hstep
    exact h.writeRef hguard
  | advanceDevice expected value =>
    obtain ⟨hknown, hstep⟩ := ite_none_right_eq_some.mp hstep
    cases hstep
    exact h.writeRef (h.known value hknown.1)

end RepoInv

end

namespace SampleFetch

def G : ObjectGraph Nat where
  kind
    | 1 => .tree
    | 3 => .commit
    | 13 => .commit
    | _ => .blob
  names
    | 1 => [(2, .blob)]
    | 3 => [(1, .tree)]
    | 13 => [(1, .tree), (3, .commit)]
    | _ => []
  size _ := 1

def peerStore : List Nat := [1, 2, 3, 13]

def peerRefs : SyncRef → Option Nat
  | .group => none
  | .device _ => some 13

def peerEnv (object : Nat → Bool) : FetchEnv Nat where
  refs := some peerRefs
  want := G.wantHandler peerStore
  object := object
  imports := none

def empty : RepoState Nat := ⟨fun _ => none, [], [], []⟩

theorem reaches_commit {o : Nat} (h : Reaches G.links 13 o) : o ∈ peerStore :=
  h.closed (P := (· ∈ peerStore)) (by decide) (by decide)

theorem typed_commit : G.Typed 13 := by
  refine ⟨rfl, fun o ho => ?_⟩
  have hsound : ∀ o ∈ peerStore, ∀ x ∈ G.names o, G.kind x.1 = x.2 := by decide
  exact hsound o (reaches_commit ho)

theorem honest (object : Nat → Bool) : (peerEnv object).Honest G 13 := by
  refine ⟨typed_commit, fun page missing hwant o ho hpage => ?_⟩
  have hanswer : G.wantHandler peerStore 13 page = some missing := hwant
  exact (ObjectGraph.mem_wantHandler hanswer).mpr ⟨ho, hpage⟩

end SampleFetch

end Dweb
