import OpenDweb.Continuity.ResumeCtl
import OpenDweb.Lib.Updates

/-!
# OpenDweb — what the fabric host keeps by peer

The fabric host remembers, by peer, one session and one `serveHttp` handle, and by session id the
peer. The tables are changed in one go; what separates a look from a change is for the calls
that use them.

* **`SessionTable`** — the map `sessions` with the entries it has held, `sessionPeers`, and what
  becomes of the kernel's sessions. `openSession` of the SDK is idempotent, so two entries may
  be of one session.
* **`SessionTable.Kept`** — each session opened and not closed is the cached one of its peer, and
  what was evicted had ended.
* **`ServeTable`** — the map `servers` with the calls of `serveHttp` it comes from;
  **`ServeTable.Kept`**, the open handles are those of the map.
-/

namespace Dweb

open List Option
open Function (update update_of_ne update_self)

/-! ## Sessions -/

/-- Why the host has closed a session: found at its end, or taken down with the fabric. -/
inductive CloseCause where
  | evicted | teardown
  deriving DecidableEq

/-- A session of the kernel: whether the host has a handle of it, whether it is dead or closed,
and whether the host has closed it. -/
structure KernelSession where
  opened : Bool
  ended : Bool
  closed : Option CloseCause
  deriving DecidableEq

/-- `SessionCacheEntry`, with the peer it is cached for. -/
structure SessionCacheEntry (π ι : Type*) where
  peer : π
  session : ι
  closed : Bool
  /-- `onState` has not been unsubscribed. -/
  subscribed : Bool
  deriving DecidableEq

structure SessionTable (π ι : Type*) where
  kernel : ι → KernelSession
  entries : List (SessionCacheEntry π ι)
  sessions : π → Option Nat
  sessionPeers : ι → Option π

namespace SessionTable

variable {π ι : Type*}

def empty : SessionTable π ι where
  kernel _ := { opened := false, ended := false, closed := none }
  entries := []
  sessions _ := none
  sessionPeers _ := none

/-- `sessions.get`. -/
def hit (t : SessionTable π ι) (peer : π) : Option (Nat × SessionCacheEntry π ι) :=
  (t.sessions peer).bind fun e => t.entries[e]?.map fun entry => (e, entry)

def cached (t : SessionTable π ι) (peer : π) : Option ι :=
  (t.hit peer).map fun h => h.2.session

def resolvePeerBySession (t : SessionTable π ι) (session : ι) : Option π :=
  t.sessionPeers session

variable [DecidableEq π] [DecidableEq ι]

/-- `session.close()`; the first cause is the one remembered. -/
def closeSession (t : SessionTable π ι) (session : ι) (cause : CloseCause) : SessionTable π ι :=
  { t with
    kernel := update t.kernel session
      { t.kernel session with closed := some ((t.kernel session).closed.getD cause) } }

def evictSession (t : SessionTable π ι) (peer : π) (cause : CloseCause) : SessionTable π ι :=
  match t.hit peer with
  | none => t
  | some (e, hit) =>
    let gone : SessionTable π ι :=
      { t with
        sessions := update t.sessions peer none
        sessionPeers := update t.sessionPeers hit.session none
        entries := t.entries.set e { hit with subscribed := false, closed := true } }
    if hit.closed then gone else gone.closeSession hit.session cause

/-- All are evicted, and no session is known any more. What is cached is so under the peer of its
entry. -/
def evictAll (t : SessionTable π ι) : SessionTable π ι :=
  let peers := t.entries.map SessionCacheEntry.peer
  { peers.foldl (fun t peer => t.evictSession peer .teardown) t with sessionPeers := fun _ => none }

/-- `openSession` has given a handle: an entry is made, its `onState` subscribed. -/
def addEntry (t : SessionTable π ι) (peer : π) (session : ι) : SessionTable π ι :=
  { t with
    kernel := update t.kernel session { t.kernel session with opened := true }
    entries := t.entries ++
      [{ peer := peer, session := session, closed := false, subscribed := true }] }

def cacheEntry (t : SessionTable π ι) (peer : π) (session : ι) : SessionTable π ι :=
  { t.addEntry peer session with
    sessions := update t.sessions peer (some t.entries.length)
    sessionPeers := update t.sessionPeers session (some peer) }

def noteSession (t : SessionTable π ι) (session : ι) (peer : π) : SessionTable π ι :=
  { t with sessionPeers := update t.sessionPeers session (some peer) }

def endSession (t : SessionTable π ι) (session : ι) : SessionTable π ι :=
  { t with
    kernel := update t.kernel session { t.kernel session with ended := true } }


/-! ### What the session table keeps -/

/-- Each entry is its session's peer's; what is cached is so under that peer and not closed; each
session opened and not closed is the cached one; what was evicted had ended. -/
structure Kept (belongs : ι → π) (t : SessionTable π ι) : Prop where
  owned : ∀ hit ∈ t.entries, hit.peer = belongs hit.session
  cached : ∀ peer e, t.sessions peer = some e →
    ∃ hit, t.entries[e]? = some hit ∧ hit.peer = peer ∧ hit.closed = false
  single : ∀ j, (t.kernel j).opened = true → (t.kernel j).closed = none →
    t.cached (belongs j) = some j
  evicted : ∀ j, (t.kernel j).closed = some .evicted → (t.kernel j).ended = true
  resolves : ∀ j peer, t.sessionPeers j = some peer → peer = belongs j

variable {belongs : ι → π} {t : SessionTable π ι} {peer : π} {session : ι} {cause : CloseCause}

omit [DecidableEq π] [DecidableEq ι] in
theorem hit_eq_some {e : Nat} {entry : SessionCacheEntry π ι} :
    t.hit peer = some (e, entry) ↔ t.sessions peer = some e ∧ t.entries[e]? = some entry := by
  rw [hit, bind_eq_some_iff]
  constructor
  · rintro ⟨e', he', hmap⟩
    obtain ⟨entry', hentry', heq⟩ := map_eq_some_iff.mp hmap
    cases heq
    exact ⟨he', hentry'⟩
  · intro ⟨he, hentry⟩
    exact ⟨e, he, by rw [hentry]; rfl⟩

omit [DecidableEq π] [DecidableEq ι] in
theorem cached_eq_some :
    t.cached peer = some session
      ↔ ∃ e hit, t.sessions peer = some e ∧ t.entries[e]? = some hit ∧ hit.session = session := by
  rw [SessionTable.cached, map_eq_some_iff]
  constructor
  · intro ⟨⟨e, hit⟩, hhit, hsession⟩
    exact ⟨e, hit, (hit_eq_some.mp hhit).1, (hit_eq_some.mp hhit).2, hsession⟩
  · intro ⟨e, hit, he, hhit, hsession⟩
    exact ⟨(e, hit), hit_eq_some.mpr ⟨he, hhit⟩, hsession⟩

omit [DecidableEq π] [DecidableEq ι] in
theorem kept_empty : (empty : SessionTable π ι).Kept belongs where
  owned hit hmem := by cases hmem
  cached peer e h := by cases h
  single j h := by cases h
  evicted j h := by cases h
  resolves j peer h := by cases h

omit [DecidableEq π] in
theorem closeSession_closed_ne (t : SessionTable π ι) (session : ι) (cause : CloseCause) :
    ((t.closeSession session cause).kernel session).closed ≠ none := by
  simp [closeSession]

omit [DecidableEq π] in
theorem closeSession_of_ne {j : ι} (t : SessionTable π ι) (hne : j ≠ session)
    (cause : CloseCause) : (t.closeSession session cause).kernel j = t.kernel j :=
  update_of_ne hne _ _

/-! A new entry leaves those there are, and what is known of the sessions but that one is
opened. -/

section AddEntry

variable {j : ι}

omit [DecidableEq π] in
theorem closed_addEntry :
    ((t.addEntry peer session).kernel j).closed = (t.kernel j).closed := by
  by_cases hj : j = session
  · simp [hj, addEntry]
  · simp [addEntry, update_of_ne hj]

omit [DecidableEq π] in
theorem ended_addEntry :
    ((t.addEntry peer session).kernel j).ended = (t.kernel j).ended := by
  by_cases hj : j = session
  · simp [hj, addEntry]
  · simp [addEntry, update_of_ne hj]

omit [DecidableEq π] in
theorem opened_addEntry_of_ne (hj : j ≠ session) :
    ((t.addEntry peer session).kernel j).opened = (t.kernel j).opened := by
  simp [addEntry, update_of_ne hj]

omit [DecidableEq π] in
theorem getElem?_addEntry {e : Nat} {hit : SessionCacheEntry π ι} (h : t.entries[e]? = some hit) :
    (t.addEntry peer session).entries[e]? = some hit := by
  have hlt : e < t.entries.length := (List.getElem?_eq_some_iff.mp h).1
  exact (getElem?_append_left hlt).trans h

omit [DecidableEq π] in
theorem getElem?_addEntry_self :
    (t.addEntry peer session).entries[t.entries.length]?
      = some { peer := peer, session := session, closed := false, subscribed := true } := by
  exact getElem?_concat_length

omit [DecidableEq π] in
theorem closeSession_addEntry (cause : CloseCause) :
    (t.addEntry peer session).closeSession session cause
      = (t.closeSession session cause).addEntry peer session := by
  simp [addEntry, closeSession]

end AddEntry

namespace Kept

omit [DecidableEq π] [DecidableEq ι] in
theorem hit_of_sessions (h : t.Kept belongs) {e : Nat} (he : t.sessions peer = some e) :
    ∃ hit, t.hit peer = some (e, hit) ∧ hit.peer = peer ∧ hit.closed = false := by
  obtain ⟨hit, hhit, hpeer, hopen⟩ := h.cached peer e he
  exact ⟨hit, hit_eq_some.mpr ⟨he, hhit⟩, hpeer, hopen⟩

omit [DecidableEq π] [DecidableEq ι] in
theorem sessions_of_hit (h : t.Kept belongs) (hnone : t.hit peer = none) :
    t.sessions peer = none := by
  cases he : t.sessions peer with
  | none => rfl
  | some e =>
    obtain ⟨hit, hhit, -, -⟩ := h.hit_of_sessions he
    rw [hnone] at hhit
    cases hhit

theorem sessions_evictSession (h : t.Kept belongs) (peer : π) (cause : CloseCause) :
    (t.evictSession peer cause).sessions = update t.sessions peer none := by
  unfold SessionTable.evictSession
  split
  · next hnone =>
    rw [← h.sessions_of_hit hnone]
    exact (Function.update_eq_self _ _).symm
  · next e hit hhit =>
    dsimp only
    split <;> rfl

omit [DecidableEq π] in
theorem closeSession (h : t.Kept belongs) (session : ι)
    (hended : cause = .evicted → (t.kernel session).ended = true) :
    (t.closeSession session cause).Kept belongs :=
  { h with
    single := fun j hopened hclosed => by
      by_cases hj : j = session
      · rw [hj] at hclosed
        exact absurd hclosed (closeSession_closed_ne t session cause)
      · rw [closeSession_of_ne t hj] at hopened hclosed
        exact h.single j hopened hclosed
    evicted := fun j hclosed => by
      by_cases hj : j = session
      · subst hj
        simp only [SessionTable.closeSession, update_self, some.injEq] at hclosed ⊢
        cases hbefore : (t.kernel j).closed with
        | none =>
          rw [hbefore] at hclosed
          exact hended hclosed
        | some before =>
          rw [hbefore] at hclosed
          exact h.evicted j (hbefore.trans (congrArg some hclosed))
      · rw [closeSession_of_ne t hj] at hclosed ⊢
        exact h.evicted j hclosed }

omit [DecidableEq π] [DecidableEq ι] in
theorem entry_ne (h : t.Kept belongs) {e e' : Nat} {hit : SessionCacheEntry π ι} {other : π}
    (he : t.entries[e]? = some hit) (he' : t.sessions other = some e') (hne : other ≠ hit.peer) :
    e ≠ e' := by
  intro heq
  obtain ⟨hit', hhit', hpeer, -⟩ := h.cached other e' he'
  rw [heq, hhit'] at he
  cases he
  exact hne hpeer.symm

/-- **An eviction keeps the table**, where what is evicted has ended or is taken down. -/
theorem evictSession (h : t.Kept belongs)
    (hended : cause = .evicted → ∀ j ∈ t.cached peer, (t.kernel j).ended = true) :
    (t.evictSession peer cause).Kept belongs := by
  unfold SessionTable.evictSession
  split
  · exact h
  · next e hit hhit =>
    obtain ⟨he, hentry⟩ := hit_eq_some.mp hhit
    obtain ⟨hit', hentry', hpeer, hopen⟩ := h.cached peer e he
    cases hentry.symm.trans hentry'
    have hcached : t.cached peer = some hit.session := cached_eq_some.mpr ⟨e, hit, he, hentry, rfl⟩
    dsimp only
    rw [hopen, if_neg Bool.false_ne_true]
    have hclosed : (t.closeSession hit.session cause).Kept belongs :=
      h.closeSession hit.session fun hcause => hended hcause _ hcached
    exact
      { owned := fun hit' hmem => by
          rcases mem_or_eq_of_mem_set hmem with hold | rfl
          · exact h.owned hit' hold
          · exact h.owned hit (mem_of_getElem? hentry)
        cached := fun other e' he' => by
          rcases update_cases he' with ⟨-, he'⟩ | ⟨hother, he'⟩
          · cases he'
          · obtain ⟨hit', hhit', hrest⟩ := h.cached other e' he'
            have hne : e ≠ e' := h.entry_ne hentry he' (hpeer ▸ hother)
            exact ⟨hit', (getElem?_set_ne hne).trans hhit', hrest⟩
        single := fun j hopened hnot => by
          -- it is another session than the one evicted, so another peer's
          have hj : j ≠ hit.session := fun heq =>
            closeSession_closed_ne _ hit.session cause (heq ▸ hnot)
          rw [closeSession_of_ne _ hj] at hopened hnot
          obtain ⟨e', hit', he', hhit', hsession⟩ := cached_eq_some.mp (h.single j hopened hnot)
          have hother : belongs j ≠ peer := fun heq => by
            rw [heq, he] at he'
            cases he'
            cases hentry.symm.trans hhit'
            exact hj hsession.symm
          have hne : e ≠ e' := h.entry_ne hentry he' (hpeer ▸ hother)
          have hkept : update t.sessions peer none (belongs j) = some e' := by
            rw [update_of_ne hother, he']
          exact cached_eq_some.mpr
            ⟨e', hit', hkept, (getElem?_set_ne hne).trans hhit', hsession⟩
        evicted := hclosed.evicted
        resolves := fun j other hj => by
          rcases update_cases hj with ⟨-, hj⟩ | ⟨-, hj⟩
          · cases hj
          · exact h.resolves j other hj }

theorem foldl_evictSession (h : t.Kept belongs) (peers : List π) :
    (peers.foldl (fun t peer => t.evictSession peer .teardown) t).Kept belongs
      ∧ ∀ other, t.sessions other = none ∨ other ∈ peers →
        (peers.foldl (fun t peer => t.evictSession peer .teardown) t).sessions other = none := by
  induction peers generalizing t with
  | nil => exact ⟨h, fun other hother => hother.resolve_right not_mem_nil⟩
  | cons peer peers ih =>
    have hnext : (t.evictSession peer .teardown).Kept belongs :=
      h.evictSession nofun
    obtain ⟨hkept, hnone⟩ := ih hnext
    refine ⟨hkept, fun other hother => hnone other ?_⟩
    rw [h.sessions_evictSession]
    by_cases heq : other = peer
    · rw [heq, update_self]
      exact Or.inl rfl
    · rw [update_of_ne heq]
      exact hother.imp_right fun hmem => (mem_cons.mp hmem).resolve_left heq

theorem sessions_evictAll (h : t.Kept belongs) (peer : π) : t.evictAll.sessions peer = none := by
  refine (h.foldl_evictSession _).2 peer ?_
  cases he : t.sessions peer with
  | none => exact Or.inl rfl
  | some e =>
    obtain ⟨hit, hhit, hpeer, -⟩ := h.cached peer e he
    exact Or.inr (List.mem_map.mpr ⟨hit, mem_of_getElem? hhit, hpeer⟩)

theorem evictAll (h : t.Kept belongs) : t.evictAll.Kept belongs :=
  { (h.foldl_evictSession (t.entries.map SessionCacheEntry.peer)).1 with
    resolves := nofun }

omit [DecidableEq π] in
theorem addEntry (h : t.Kept belongs) (hpeer : peer = belongs session)
    (hclosed : (t.kernel session).closed ≠ none) : (t.addEntry peer session).Kept belongs :=
  { owned := fun hit hmem => by
      rcases mem_append.mp hmem with hold | hnew
      · exact h.owned hit hold
      · rw [mem_singleton.mp hnew]
        exact hpeer
    cached := fun other e he => by
      obtain ⟨hit, hhit, hrest⟩ := h.cached other e he
      exact ⟨hit, getElem?_addEntry hhit, hrest⟩
    single := fun j hopened hnot => by
      rw [closed_addEntry] at hnot
      have hj : j ≠ session := fun heq => hclosed (heq ▸ hnot)
      rw [opened_addEntry_of_ne hj] at hopened
      obtain ⟨e, hit, he, hhit, hsession⟩ := cached_eq_some.mp (h.single j hopened hnot)
      exact cached_eq_some.mpr ⟨e, hit, he, getElem?_addEntry hhit, hsession⟩
    evicted := fun j hevicted => by
      rw [closed_addEntry] at hevicted
      rw [ended_addEntry]
      exact h.evicted j hevicted
    resolves := h.resolves }

/-- **A handle is given and cached**, where no other open session is cached for the peer. -/
theorem cacheEntry (h : t.Kept belongs) (hpeer : peer = belongs session)
    (hfree : ∀ j ∈ t.cached peer, j = session ∨ (t.kernel j).closed ≠ none) :
    (t.cacheEntry peer session).Kept belongs :=
  { owned := fun hit hmem => by
      rcases mem_append.mp hmem with hold | hnew
      · exact h.owned hit hold
      · rw [mem_singleton.mp hnew]
        exact hpeer
    cached := fun other e he => by
      rcases update_cases he with ⟨hother, he⟩ | ⟨-, he⟩
      · cases he
        exact ⟨_, getElem?_addEntry_self, hother.symm, rfl⟩
      · obtain ⟨hit, hhit, hrest⟩ := h.cached other e he
        exact ⟨hit, getElem?_addEntry hhit, hrest⟩
    single := fun j hopened hnot => by
      by_cases hj : j = session
      · have hnew : update t.sessions peer (some t.entries.length) (belongs j)
            = some t.entries.length := by rw [hj, ← hpeer, update_self]
        exact cached_eq_some.mpr ⟨_, _, hnew, getElem?_addEntry_self, hj.symm⟩
      · have hnot : ((t.addEntry peer session).kernel j).closed = none := hnot
        have hopened : ((t.addEntry peer session).kernel j).opened = true := hopened
        rw [closed_addEntry] at hnot
        rw [opened_addEntry_of_ne hj] at hopened
        have hcached := h.single j hopened hnot
        -- so it is another peer's
        have hother : belongs j ≠ peer := fun heq =>
          (hfree j (heq ▸ hcached)).elim hj fun hclosed => hclosed hnot
        obtain ⟨e, hit, he, hhit, hsession⟩ := cached_eq_some.mp hcached
        have hkept : update t.sessions peer (some t.entries.length) (belongs j)
            = some e := by rw [update_of_ne hother, he]
        exact cached_eq_some.mpr ⟨e, hit, hkept, getElem?_addEntry hhit, hsession⟩
    evicted := fun j hevicted => by
      have hevicted : ((t.addEntry peer session).kernel j).closed = some .evicted := hevicted
      show ((t.addEntry peer session).kernel j).ended = true
      rw [closed_addEntry] at hevicted
      rw [ended_addEntry]
      exact h.evicted j hevicted
    resolves := fun j other hj => by
      rcases update_cases hj with ⟨hsame, hj⟩ | ⟨-, hj⟩
      · rw [← some.inj hj, hpeer, hsame]
      · exact h.resolves j other hj }

omit [DecidableEq π] in
theorem noteSession (h : t.Kept belongs) (session : ι) :
    (t.noteSession session (belongs session)).Kept belongs :=
  { h with
    resolves := fun j other hj => by
      rcases update_cases hj with ⟨hsame, hj⟩ | ⟨-, hj⟩
      · rw [← some.inj hj, hsame]
      · exact h.resolves j other hj }

omit [DecidableEq π] in
theorem endSession (h : t.Kept belongs) (session : ι) : (t.endSession session).Kept belongs := by
  have hkernel : ∀ j, ((t.endSession session).kernel j).opened = (t.kernel j).opened
      ∧ ((t.endSession session).kernel j).closed = (t.kernel j).closed
      ∧ ((t.kernel j).ended = true → ((t.endSession session).kernel j).ended = true) := fun j => by
    by_cases hj : j = session
    · simp [hj, SessionTable.endSession]
    · simp [SessionTable.endSession, update_of_ne hj]
  exact
    { h with
      single := fun j hopened hnot =>
        h.single j ((hkernel j).1 ▸ hopened) ((hkernel j).2.1 ▸ hnot)
      evicted := fun j hevicted => (hkernel j).2.2 (h.evicted j ((hkernel j).2.1 ▸ hevicted)) }

end Kept

end SessionTable

/-! ## Serve handles -/

/-- A call of `serveHttp`, and its handle. -/
inductive ServeAt where
  | awaiting | served | closed | failed
  deriving DecidableEq

structure ServeBinding (π : Type*) where
  peer : π
  fabric : Nat
  place : ServeAt
  deriving DecidableEq

structure ServeTable (π : Type*) where
  /-- Every call of `serveHttp`, by its number. -/
  binds : List (ServeBinding π)
  servers : π → Option Nat

namespace ServeTable

variable {π : Type*}

def empty : ServeTable π where
  binds := []
  servers _ := none

def serveHttp (t : ServeTable π) (peer : π) (fabric : Nat) : ServeTable π :=
  { t with binds := t.binds ++ [{ peer := peer, fabric := fabric, place := .awaiting }] }

/-- The handles of the map are closed, the map is cleared. -/
def closeAll [DecidableEq π] (t : ServeTable π) : ServeTable π where
  binds := t.binds.mapIdx fun h b =>
    if t.servers b.peer = some h then { b with place := .closed } else b
  servers _ := none

def setPlace (t : ServeTable π) (h : Nat) (b : ServeBinding π) (place : ServeAt) : ServeTable π :=
  { t with binds := t.binds.set h { b with place := place } }

/-- `servers.set`. -/
def register [DecidableEq π] (t : ServeTable π) (h : Nat) (b : ServeBinding π) : ServeTable π :=
  { t.setPlace h b .served with servers := update t.servers b.peer (some h) }

/-! ### What the serve table keeps -/

/-- The open handles are those of the map, each on the host's fabric. -/
structure Kept (fabric : Option Nat) (t : ServeTable π) : Prop where
  served : ∀ (h : Nat) b, t.binds[h]? = some b → b.place = .served →
    t.servers b.peer = some h ∧ fabric = some b.fabric
  registered : ∀ peer h, t.servers peer = some h →
    ∃ b, t.binds[h]? = some b ∧ b.peer = peer ∧ b.place = .served

variable {fabric : Option Nat} {t : ServeTable π} {h : Nat} {b : ServeBinding π}

theorem kept_empty : (empty : ServeTable π).Kept fabric where
  served h b hb := by cases hb
  registered peer h hh := by cases hh

namespace Kept

theorem of_none_served (hkept : t.Kept fabric) (hnone : ∀ b ∈ t.binds, b.place ≠ .served)
    (other : Option Nat) : t.Kept other where
  served _ b hb hserved := absurd hserved (hnone b (mem_of_getElem? hb))
  registered := hkept.registered

theorem none_served (hkept : t.Kept none) : ∀ b ∈ t.binds, b.place ≠ .served := by
  intro b hb hserved
  obtain ⟨h, hlt, hget⟩ := mem_iff_getElem.mp hb
  cases (hkept.served h b (List.getElem?_eq_some_iff.mpr ⟨hlt, hget⟩) hserved).2

theorem unique (hkept : t.Kept fabric) {h' : Nat} {b' : ServeBinding π}
    (hb : t.binds[h]? = some b) (hb' : t.binds[h']? = some b') (hserved : b.place = .served)
    (hserved' : b'.place = .served) (hpeer : b.peer = b'.peer) : h = h' := by
  have hmap := (hkept.served h b hb hserved).1
  rw [hpeer, (hkept.served h' b' hb' hserved').1] at hmap
  exact (some.inj hmap).symm

theorem serveHttp (hkept : t.Kept fabric) (peer : π) (f : Nat) :
    (t.serveHttp peer f).Kept fabric where
  served h b hb hserved := by
    rcases Nat.lt_or_ge h t.binds.length with hlt | hge
    · rw [ServeTable.serveHttp, getElem?_append_left hlt] at hb
      exact hkept.served h b hb hserved
    · -- the new call has no handle yet
      rw [ServeTable.serveHttp, getElem?_append_right hge] at hb
      cases mem_singleton.mp (mem_of_getElem? hb)
      cases hserved
  registered peer h hh := by
    obtain ⟨b, hb, hrest⟩ := hkept.registered peer h hh
    have hlt : h < t.binds.length := (List.getElem?_eq_some_iff.mp hb).1
    exact ⟨b, (getElem?_append_left hlt).trans hb, hrest⟩

theorem setPlace (hkept : t.Kept fabric) (hb : t.binds[h]? = some b) (hat : b.place = .awaiting)
    {place : ServeAt} (hplace : place ≠ .served) : (t.setPlace h b place).Kept fabric where
  served h' b' hb' hserved := by
    by_cases heq : h = h'
    · subst heq
      rw [ServeTable.setPlace, getElem?_set_self (List.getElem?_eq_some_iff.mp hb).1] at hb'
      cases hb'
      exact absurd hserved hplace
    · rw [ServeTable.setPlace, getElem?_set_ne heq] at hb'
      exact hkept.served h' b' hb' hserved
  registered peer h' hh := by
    obtain ⟨b', hb', hpeer, hserved⟩ := hkept.registered peer h' hh
    have hne : h ≠ h' := fun heq => by
      subst heq
      cases hb.symm.trans hb'
      rw [hat] at hserved
      cases hserved
    exact ⟨b', (getElem?_set_ne hne).trans hb', hpeer, hserved⟩

variable [DecidableEq π]

/-- **A handle is registered**, the peer's only one, on the host's fabric. -/
theorem register (hkept : t.Kept fabric) (hb : t.binds[h]? = some b) (hat : b.place = .awaiting)
    (hfree : t.servers b.peer = none) (hfabric : fabric = some b.fabric) :
    (t.register h b).Kept fabric where
  served h' b' hb' hserved := by
    show update t.servers b.peer (some h) b'.peer = some h' ∧ _
    have hb' : (t.binds.set h { b with place := .served })[h']? = some b' := hb'
    by_cases heq : h = h'
    · subst heq
      rw [getElem?_set_self (List.getElem?_eq_some_iff.mp hb).1] at hb'
      cases hb'
      exact ⟨update_self _ _ _, hfabric⟩
    · rw [getElem?_set_ne heq] at hb'
      obtain ⟨hmap, hon⟩ := hkept.served h' b' hb' hserved
      have hpeer : b'.peer ≠ b.peer := fun hpeer => by
        rw [hpeer, hfree] at hmap
        cases hmap
      rw [update_of_ne hpeer]
      exact ⟨hmap, hon⟩
  registered peer h' hh := by
    rcases update_cases hh with ⟨hpeer, hh⟩ | ⟨hpeer, hh⟩
    · cases hh
      exact ⟨_, getElem?_set_self (List.getElem?_eq_some_iff.mp hb).1, hpeer.symm, rfl⟩
    · obtain ⟨b', hb', hpeer', hserved⟩ := hkept.registered peer h' hh
      have hne : h ≠ h' := fun heq => by
        subst heq
        cases hb.symm.trans hb'
        rw [hat] at hserved
        cases hserved
      exact ⟨b', (getElem?_set_ne hne).trans hb', hpeer', hserved⟩

/-- **`closeAll` leaves no handle open.** -/
theorem closeAll_none_served (hkept : t.Kept fabric) :
    ∀ b ∈ t.closeAll.binds, b.place ≠ .served := by
  intro b hb hserved
  obtain ⟨h, hlt, rfl⟩ := mem_mapIdx.mp hb
  split at hserved
  · cases hserved
  · next hnot =>
    exact hnot (hkept.served h _ (getElem?_eq_getElem hlt) hserved).1

theorem closeAll (hkept : t.Kept fabric) (other : Option Nat) : t.closeAll.Kept other where
  served _ b hb hserved :=
    absurd hserved (hkept.closeAll_none_served b (mem_of_getElem? hb))
  registered peer h hh := by cases hh

end Kept

end ServeTable

end Dweb
