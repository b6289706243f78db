import OpenDweb.Lib.Lru
import OpenDweb.Lib.Machine
import OpenDweb.Continuity.Session
import OpenDweb.Lib.Updates

/-!
# OpenDweb — the session registry

The registry keeps the sessions of an endpoint, one a peer, and remembers the ids of sessions
that are over as tombstones: a late INIT or RESUME of such a session is answered with
`TOKEN_REVOKED`. Sessions that are dead or closed are reaped by the next operation. The
tombstones are bounded; beyond their capacity the least recently used one is evicted.

* **`RegistryState.admitInitOrdered`**, **`registerLocal`**, **`removeIf`**,
  **`lookupResume`** — the operations, each with the ids it evicts.
* **`RegistryState.WellFormed`** — sessions and peers point at each other, and a tombstone is
  of no stored session.
* **`RegistryState.Anchors`** — an operation leaves a tombstone for what it takes out of the
  map. `admitInitOrdered` does not where a newer INIT replaces the session of its peer.
* **`registry_holds`** — the invariant over runs in which no INIT replaces a session.

A session is named by its id where the source hands out an `Arc` of it. The source walks a
hash map to reap; the order of the walk is an argument.
-/

namespace Dweb

open Std (ExtTreeMap)
open List Option Std.ExtTreeMap

abbrev SessionId := BytesN 16

def tombstoneCap : Nat := 1024

/-! ## State -/

structure RegistryEntry where
  shared : SessionShared
  /-- `shared.peer_id`. -/
  peerId : String
  /-- The session has no current channel, or one that a new INIT may replace. -/
  channelReplaceable : Bool
  /-- The endpoint that began the session, by its key bytes. -/
  initiator : Option (BytesN 32)

def RegistryEntry.phase (e : RegistryEntry) : SessionPhase := e.shared.resumeControl.phase

/-- `Dead` or `Closed`. -/
def RegistryEntry.isTerminal (e : RegistryEntry) : Bool := e.phase = .dead || e.phase = .closed

structure RegistryState where
  sessions : ExtTreeMap SessionId RegistryEntry
  peers : ExtTreeMap String SessionId
  tombstones : LruSet SessionId

inductive InitAdmission where
  /-- `fresh` unless the INIT is a repetition. -/
  | admitted (sessionId : SessionId) (fresh : Bool)
  | peerMismatch
  | tokenMismatch
  | tokenRevoked
  | canonical (sessionId : SessionId)
  | replaced (sessionId old : SessionId)
  deriving DecidableEq

inductive ResumeLookup where
  | active (sessionId : SessionId)
  | revoked
  | missing
  deriving DecidableEq

/-- What an operation answers, what it leaves, and the tombstones it evicted. -/
structure RegistryOutcome (α : Type) where
  result : α
  state : RegistryState
  evicted : List SessionId

namespace RegistryState

def empty : RegistryState := { sessions := ∅, peers := ∅, tombstones := .empty }

/-! ## Operations -/

/-- Take a session out of the map and leave a tombstone for it. -/
def retire (s : RegistryState) (sessionId : SessionId) : RegistryState × List SessionId :=
  match s.sessions[sessionId]? with
  | none => (s, [])
  | some entry =>
    let r := s.tombstones.insert tombstoneCap sessionId
    ({ sessions := s.sessions.erase sessionId
       peers :=
         if s.peers[entry.peerId]? = some sessionId then s.peers.erase entry.peerId else s.peers
       tombstones := r.1 }, r.2)

def isTerminalId (s : RegistryState) (sessionId : SessionId) : Bool :=
  s.sessions[sessionId]?.any RegistryEntry.isTerminal

def retireAll (s : RegistryState) : List SessionId → RegistryState × List SessionId
  | [] => (s, [])
  | sessionId :: rest =>
    let r := s.retire sessionId
    let r' := r.1.retireAll rest
    (r'.1, r.2 ++ r'.2)

/-- The terminal sessions are collected first and then retired, in the order of the walk. -/
def reapTerminal (s : RegistryState) (walk : List SessionId) : RegistryState × List SessionId :=
  s.retireAll (walk.filter s.isTerminalId)

/-- `is_tombstoned`: a hit makes the tombstone the most recent one. -/
def isTombstoned (s : RegistryState) (sessionId : SessionId) : Bool × RegistryState :=
  let r := s.tombstones.lookup sessionId
  (r.1, { s with tombstones := r.2 })

/-- The incoming INIT takes the place of the peer's canonical session: that one is still
negotiating and comes later in the order of `(EndpointId, sessionId)`, or its channel is of
no use any more. -/
def incomingWins (existing : RegistryEntry) (canonical incoming : SessionId)
    (incomingEndpoint : BytesN 32) : Bool :=
  (existing.phase = .negotiating
      && existing.initiator.any fun id =>
        decide (incomingEndpoint < id) || (incomingEndpoint = id && decide (incoming < canonical)))
    || (existing.phase = .recovering && existing.channelReplaceable)
    || (existing.phase = .active && existing.channelReplaceable)

/-- A session admitted from an INIT, stored as the canonical one of its peer. -/
def store (s : RegistryState) (sessionId : SessionId) (entry : RegistryEntry) : RegistryState :=
  { s with
    sessions := s.sessions.insert sessionId entry
    peers := s.peers.insert entry.peerId sessionId }

def displace (s : RegistryState) (canonical : SessionId) (peerId : String) : RegistryState :=
  { s with sessions := s.sessions.erase canonical, peers := s.peers.erase peerId }

def initEntry (sessionId : SessionId) (token : Token) (peerId : String)
    (incomingEndpoint : BytesN 32) (limits : JournalLimits) : RegistryEntry where
  shared := .new sessionId token false limits
  peerId := peerId
  channelReplaceable := true
  initiator := some incomingEndpoint

/-- `admit_init_ordered`. -/
def admitInitOrdered (s : RegistryState) (walk : List SessionId) (sessionId : SessionId)
    (token : Token) (peerId : String) (incomingEndpoint : BytesN 32) (limits : JournalLimits) :
    RegistryOutcome InitAdmission :=
  let reaped := s.reapTerminal walk
  let checked := reaped.1.isTombstoned sessionId
  let s := checked.2
  let answer (result : InitAdmission) (s : RegistryState) : RegistryOutcome InitAdmission :=
    { result := result, state := s, evicted := reaped.2 }
  let entry := initEntry sessionId token peerId incomingEndpoint limits
  if checked.1 then answer .tokenRevoked s
  else
    match s.sessions[sessionId]? with
    | some existing =>
      if existing.peerId ≠ peerId then answer .peerMismatch s
      else if existing.shared.resumeControl.tokens.current.2 ≠ token then answer .tokenMismatch s
      else answer (.admitted sessionId false) s
    | none =>
      match s.peers[peerId]?.bind fun canonical =>
          s.sessions[canonical]?.map fun existing => (canonical, existing) with
      | some (canonical, existing) =>
        if incomingWins existing canonical sessionId incomingEndpoint then
          answer (.replaced sessionId canonical)
            ((s.displace canonical peerId).store sessionId entry)
        else answer (.canonical canonical) s
      | none => answer (.admitted sessionId true) (s.store sessionId entry)

/-- `register_local`: the session that is canonical now, and whether it is the one given. -/
def registerLocal (s : RegistryState) (walk : List SessionId) (sessionId : SessionId)
    (entry : RegistryEntry) : RegistryOutcome (SessionId × Bool) :=
  let reaped := s.reapTerminal walk
  let s := reaped.1
  match s.peers[entry.peerId]?.filter (· ∈ s.sessions) with
  | some canonical => { result := (canonical, false), state := s, evicted := reaped.2 }
  | none =>
    { result := (sessionId, true), state := s.store sessionId entry, evicted := reaped.2 }

/-- `remove_if`. The session's phase is set to `Dead`; it is stored no more. -/
def removeIf (s : RegistryState) (sessionId : SessionId) : RegistryOutcome Unit :=
  let r := s.retire sessionId
  { result := (), state := r.1, evicted := r.2 }

def get (s : RegistryState) (walk : List SessionId) (sessionId : SessionId) :
    RegistryOutcome (Option SessionId) :=
  let reaped := s.reapTerminal walk
  { result := if sessionId ∈ reaped.1.sessions then some sessionId else none
    state := reaped.1
    evicted := reaped.2 }

def lookupResume (s : RegistryState) (walk : List SessionId) (sessionId : SessionId) :
    RegistryOutcome ResumeLookup :=
  let reaped := s.reapTerminal walk
  if sessionId ∈ reaped.1.sessions then
    { result := .active sessionId, state := reaped.1, evicted := reaped.2 }
  else
    let checked := reaped.1.isTombstoned sessionId
    { result := if checked.1 then .revoked else .missing
      state := checked.2
      evicted := reaped.2 }

/-- `canonical_sid_for_peer`. -/
def canonicalSidForPeer (s : RegistryState) (walk : List SessionId) (peerId : String) :
    RegistryOutcome (Option SessionId) :=
  let reaped := s.reapTerminal walk
  { result := reaped.1.peers[peerId]?.filter (· ∈ reaped.1.sessions)
    state := reaped.1
    evicted := reaped.2 }

/-- `reusable_for_peer`. -/
def reusableForPeer (s : RegistryState) (walk : List SessionId) (peerId : String) :
    RegistryOutcome (Option SessionId) :=
  let reaped := s.reapTerminal walk
  { result := reaped.1.peers[peerId]?.filter fun sessionId =>
      reaped.1.sessions[sessionId]?.any fun e => !e.isTerminal
    state := reaped.1
    evicted := reaped.2 }

/-- What others do to a session while it is stored: its phase, its tokens and its channel
change, its id and its peer do not. -/
def touch (s : RegistryState) (sessionId : SessionId) (control : ResumeCtl)
    (channelReplaceable : Bool) : RegistryState :=
  { s with
    sessions := s.sessions.modify sessionId fun e =>
      { e with
        shared := { e.shared with resumeControl := control }
        channelReplaceable := channelReplaceable } }

/-! ## Well-formedness -/

/-- Sessions and peers point at each other, and no stored session has a tombstone. -/
structure WellFormed (s : RegistryState) : Prop where
  peers : ∀ (peerId : String) (sid : SessionId), s.peers[peerId]? = some sid →
    ∃ e, s.sessions[sid]? = some e ∧ e.peerId = peerId
  sessions : ∀ (sid : SessionId) (e : RegistryEntry), s.sessions[sid]? = some e →
    s.peers[e.peerId]? = some sid ∧ e.shared.sessionId = sid
  tombstones : s.tombstones.WellFormed tombstoneCap
  apart : ∀ sid ∈ s.tombstones.keys, sid ∉ s.sessions

theorem wellFormed_empty : empty.WellFormed where
  peers peerId sid h := by simp [empty] at h
  sessions sid e h := by simp [empty] at h
  tombstones := LruSet.wellFormed_empty tombstoneCap
  apart sid h := by simp [empty, LruSet.empty] at h

variable {s : RegistryState} {sid sid' : SessionId} {entry : RegistryEntry}

theorem WellFormed.eq_of_peerId (h : s.WellFormed) {e e' : RegistryEntry}
    (he : s.sessions[sid]? = some e) (he' : s.sessions[sid']? = some e')
    (hpeer : e.peerId = e'.peerId) : sid = sid' := by
  have hsid := (h.sessions sid e he).1
  have hsid' := (h.sessions sid' e' he').1
  rw [hpeer, hsid'] at hsid
  exact (some.inj hsid).symm

/-! ### Retiring -/

theorem retire_of_some (h : s.WellFormed) (hentry : s.sessions[sid]? = some entry) :
    s.retire sid
      = ({ sessions := s.sessions.erase sid
           peers := s.peers.erase entry.peerId
           tombstones := (s.tombstones.insert tombstoneCap sid).1 },
          (s.tombstones.insert tombstoneCap sid).2) := by
  unfold retire
  rw [hentry]
  dsimp only
  rw [if_pos (h.sessions sid entry hentry).1]

theorem retire_of_none (h : s.sessions[sid]? = none) : s.retire sid = (s, []) := by
  unfold retire
  rw [h]

theorem erase_wellFormed_sessions (h : s.WellFormed) (hentry : s.sessions[sid]? = some entry) :
    (∀ (peerId : String) (sid' : SessionId), (s.peers.erase entry.peerId)[peerId]? = some sid' →
      ∃ e, (s.sessions.erase sid)[sid']? = some e ∧ e.peerId = peerId)
    ∧ ∀ (sid' : SessionId) (e : RegistryEntry), (s.sessions.erase sid)[sid']? = some e →
      (s.peers.erase entry.peerId)[e.peerId]? = some sid' ∧ e.shared.sessionId = sid' := by
  refine ⟨fun peerId sid' hpeer => ?_, fun sid' e he => ?_⟩
  · obtain ⟨hne, hpeer⟩ := getElem?_erase_some hpeer
    obtain ⟨e, he, hpeerId⟩ := h.peers peerId sid' hpeer
    refine ⟨e, ?_, hpeerId⟩
    rw [getElem?_erase, if_neg, he]
    intro heq
    obtain rfl := compare_eq_iff_eq.mp heq
    rw [hentry, some.injEq] at he
    exact hne (by rw [he, hpeerId])
  · obtain ⟨hne, he⟩ := getElem?_erase_some he
    obtain ⟨hpeer, hid⟩ := h.sessions sid' e he
    refine ⟨?_, hid⟩
    rw [getElem?_erase, if_neg, hpeer]
    intro heq
    exact hne (h.eq_of_peerId hentry he (compare_eq_iff_eq.mp heq))

theorem retire_wellFormed (h : s.WellFormed) (sid : SessionId) : (s.retire sid).1.WellFormed := by
  cases hentry : s.sessions[sid]? with
  | none => rwa [retire_of_none hentry]
  | some entry =>
    rw [retire_of_some h hentry]
    obtain ⟨hpeers, hsessions⟩ := erase_wellFormed_sessions h hentry
    refine ⟨hpeers, hsessions, LruSet.insert_wellFormed h.tombstones sid, fun sid' hsid' => ?_⟩
    rw [mem_erase]
    rintro ⟨hne, hmem⟩
    rcases ((LruSet.mem_insert _ _ _ _).mp hsid').1 with heq | htomb
    · exact hne (compare_eq_iff_eq.mpr heq.symm)
    · exact h.apart sid' htomb hmem

/-! ### Storing -/

theorem store_wellFormed (h : s.WellFormed) (hid : entry.shared.sessionId = sid)
    (hnew : s.sessions[sid]? = none) (hpeer : s.peers[entry.peerId]? = none)
    (htomb : sid ∉ s.tombstones.keys) : (s.store sid entry).WellFormed where
  peers peerId sid' hmem := by
    change (s.peers.insert entry.peerId sid)[peerId]? = some sid' at hmem
    show ∃ e, (s.sessions.insert sid entry)[sid']? = some e ∧ e.peerId = peerId
    rcases getElem?_insert_cases hmem with ⟨heq, rfl⟩ | ⟨-, hmem⟩
    · exact ⟨entry, getElem?_insert_self, heq⟩
    · obtain ⟨e, he, hpeerId⟩ := h.peers peerId sid' hmem
      refine ⟨e, ?_, hpeerId⟩
      rw [ExtTreeMap.getElem?_insert, if_neg, he]
      intro heq
      rw [compare_eq_iff_eq.mp heq, he] at hnew
      cases hnew
  sessions sid' e he := by
    change (s.sessions.insert sid entry)[sid']? = some e at he
    show (s.peers.insert entry.peerId sid)[e.peerId]? = some sid' ∧ e.shared.sessionId = sid'
    rcases getElem?_insert_cases he with ⟨rfl, rfl⟩ | ⟨-, he⟩
    · exact ⟨getElem?_insert_self, hid⟩
    · obtain ⟨hpeer', hid'⟩ := h.sessions sid' e he
      refine ⟨?_, hid'⟩
      rw [ExtTreeMap.getElem?_insert, if_neg, hpeer']
      intro heq
      rw [compare_eq_iff_eq.mp heq, hpeer'] at hpeer
      cases hpeer
  tombstones := h.tombstones
  apart sid' hsid' hmem := by
    rcases ExtTreeMap.mem_insert.mp hmem with heq | hmem
    · exact htomb (compare_eq_iff_eq.mp heq ▸ hsid')
    · exact h.apart sid' hsid' hmem

theorem isTombstoned_wellFormed (h : s.WellFormed) (sid : SessionId) :
    (s.isTombstoned sid).2.WellFormed where
  peers := h.peers
  sessions := h.sessions
  tombstones := LruSet.lookup_wellFormed h.tombstones sid
  apart sid' hsid' := h.apart sid' (LruSet.lookup_keys s.tombstones sid ▸ hsid')

/-! ## Tombstones for what leaves -/

/-- What leaves the map has a tombstone, and tombstones stay, unless they are evicted. -/
structure Anchors (s s' : RegistryState) (evicted : List SessionId) : Prop where
  left : ∀ sid ∈ s.sessions, sid ∉ s'.sessions → sid ∉ evicted → sid ∈ s'.tombstones.keys
  kept : ∀ sid ∈ s.tombstones.keys, sid ∉ evicted → sid ∈ s'.tombstones.keys

theorem Anchors.refl (s : RegistryState) : s.Anchors s [] :=
  ⟨fun _ h hnot => absurd h hnot, fun _ h _ => h⟩

theorem Anchors.trans {t u : RegistryState} {evicted evicted' : List SessionId}
    (h : s.Anchors t evicted) (h' : t.Anchors u evicted') : s.Anchors u (evicted ++ evicted') where
  left sid hs hu hevicted := by
    rw [mem_append, not_or] at hevicted
    by_cases ht : sid ∈ t.sessions
    · exact h'.left sid ht hu hevicted.2
    · exact h'.kept sid (h.left sid hs ht hevicted.1) hevicted.2
  kept sid hs hevicted := by
    rw [mem_append, not_or] at hevicted
    exact h'.kept sid (h.kept sid hs hevicted.1) hevicted.2

theorem Anchors.of_le {s' : RegistryState} (hsessions : ∀ sid ∈ s.sessions, sid ∈ s'.sessions)
    (htombs : s'.tombstones.keys = s.tombstones.keys) : s.Anchors s' [] :=
  ⟨fun sid h hnot => absurd (hsessions sid h) hnot, fun _ h _ => htombs ▸ h⟩

theorem anchors_retire (s : RegistryState) (sid : SessionId) :
    s.Anchors (s.retire sid).1 (s.retire sid).2 := by
  unfold retire
  split
  · exact .refl s
  · refine ⟨fun sid' hmem hnot hevicted => ?_, fun sid' hmem hevicted => ?_⟩
    · refine (LruSet.mem_insert _ _ _ _).mpr ⟨Or.inl ?_, hevicted⟩
      by_contra hne
      refine hnot (mem_erase.mpr ⟨fun heq => hne ?_, hmem⟩)
      exact (compare_eq_iff_eq.mp heq).symm
    · exact (LruSet.mem_insert _ _ _ _).mpr ⟨Or.inr hmem, hevicted⟩

/-! ### Reaping -/

theorem retireAll_wellFormed (h : s.WellFormed) (ids : List SessionId) :
    (s.retireAll ids).1.WellFormed := by
  induction ids generalizing s with
  | nil => exact h
  | cons sid ids ih => exact ih (retire_wellFormed h sid)

theorem anchors_retireAll (s : RegistryState) (ids : List SessionId) :
    s.Anchors (s.retireAll ids).1 (s.retireAll ids).2 := by
  induction ids generalizing s with
  | nil => exact .refl s
  | cons sid ids ih => exact (s.anchors_retire sid).trans (ih _)

theorem reapTerminal_wellFormed (h : s.WellFormed) (walk : List SessionId) :
    (s.reapTerminal walk).1.WellFormed := retireAll_wellFormed h _

theorem anchors_reapTerminal (s : RegistryState) (walk : List SessionId) :
    s.Anchors (s.reapTerminal walk).1 (s.reapTerminal walk).2 := s.anchors_retireAll _

theorem anchors_checked (s : RegistryState) (walk : List SessionId) (sid : SessionId) :
    s.Anchors ((s.reapTerminal walk).1.isTombstoned sid).2 (s.reapTerminal walk).2 := by
  have hsame : (s.reapTerminal walk).1.Anchors ((s.reapTerminal walk).1.isTombstoned sid).2 [] :=
    .of_le (fun _ h => h) (LruSet.lookup_keys _ sid)
  exact append_nil (s.reapTerminal walk).2 ▸ (s.anchors_reapTerminal walk).trans hsame

/-- Reaping stores nothing, and only sessions get new tombstones. -/
structure Shrinks (s s' : RegistryState) : Prop where
  sessions : ∀ sid ∈ s'.sessions, sid ∈ s.sessions
  tombstones : ∀ sid ∈ s'.tombstones.keys, sid ∈ s.tombstones.keys ∨ sid ∈ s.sessions

theorem Shrinks.trans {t u : RegistryState} (h : s.Shrinks t) (h' : t.Shrinks u) :
    s.Shrinks u where
  sessions sid hu := h.sessions sid (h'.sessions sid hu)
  tombstones sid hu :=
    (h'.tombstones sid hu).elim (h.tombstones sid) fun ht => Or.inr (h.sessions sid ht)

theorem shrinks_retire (s : RegistryState) (sid : SessionId) : s.Shrinks (s.retire sid).1 := by
  unfold retire
  split
  · exact ⟨fun _ h => h, fun _ h => Or.inl h⟩
  · next entry hentry =>
    refine ⟨fun sid' hmem => (mem_erase.mp hmem).2, fun sid' hmem => ?_⟩
    rcases ((LruSet.mem_insert _ _ _ _).mp hmem).1 with rfl | hmem
    · exact Or.inr (mem_iff_isSome_getElem?.mpr (by rw [hentry]; rfl))
    · exact Or.inl hmem

theorem shrinks_retireAll (s : RegistryState) (ids : List SessionId) :
    s.Shrinks (s.retireAll ids).1 := by
  induction ids generalizing s with
  | nil => exact ⟨fun _ h => h, fun _ h => Or.inl h⟩
  | cons sid ids ih => exact (s.shrinks_retire sid).trans (ih _)

theorem shrinks_reapTerminal (s : RegistryState) (walk : List SessionId) :
    s.Shrinks (s.reapTerminal walk).1 := s.shrinks_retireAll _

/-! ## INIT -/

/-- An INIT takes the place of its peer's session: its id is new, and the canonical session
of the peer, as it is after reaping, gives way. -/
def Displaces (s : RegistryState) (walk : List SessionId) (sessionId : SessionId)
    (peerId : String) (incomingEndpoint : BytesN 32) : Prop :=
  let reaped := (s.reapTerminal walk).1
  sessionId ∉ reaped.tombstones.keys ∧ sessionId ∉ reaped.sessions
    ∧ ((reaped.peers[peerId]?.bind fun canonical =>
        reaped.sessions[canonical]?.map fun existing => (canonical, existing)).any fun p =>
          incomingWins p.2 p.1 sessionId incomingEndpoint) = true

instance (s : RegistryState) (walk : List SessionId) (sessionId : SessionId) (peerId : String)
    (incomingEndpoint : BytesN 32) :
    Decidable (s.Displaces walk sessionId peerId incomingEndpoint) := by
  unfold Displaces
  infer_instance

/-- Everything an INIT can do: answer and leave the state as it was found, store a first
session of the peer, or displace the peer's session. -/
theorem admitInitOrdered_cases (h : s.WellFormed) (walk : List SessionId) (sid : SessionId)
    (token : Token) (peerId : String) (incoming : BytesN 32) (limits : JournalLimits) :
    let t := ((s.reapTerminal walk).1.isTombstoned sid).2
    let out := s.admitInitOrdered walk sid token peerId incoming limits
    out.evicted = (s.reapTerminal walk).2
      ∧ ((sid ∈ t.tombstones.keys → out.result = .tokenRevoked)
      ∧ (out.state = t
        ∨ sid ∉ t.tombstones.keys ∧ t.sessions[sid]? = none
          ∧ (t.peers[peerId]? = none
              ∧ out.state = t.store sid (initEntry sid token peerId incoming limits)
            ∨ s.Displaces walk sid peerId incoming ∧ ∃ canonical,
              t.peers[peerId]? = some canonical
              ∧ out.state = (t.displace canonical peerId).store sid
                  (initEntry sid token peerId incoming limits)))) := by
  intro t out
  have ht : t.WellFormed := isTombstoned_wellFormed (reapTerminal_wellFormed h walk) sid
  have hchecked : ((s.reapTerminal walk).1.isTombstoned sid).1 = true
      ↔ sid ∈ t.tombstones.keys := by
    show ((s.reapTerminal walk).1.tombstones.lookup sid).1 = true ↔ _
    rw [LruSet.lookup_fst, ← LruSet.lookup_keys (s.reapTerminal walk).1.tombstones sid]
    rfl
  have htombs : t.tombstones.keys = (s.reapTerminal walk).1.tombstones.keys :=
    LruSet.lookup_keys _ sid
  refine ⟨?_, fun htomb => ?_, ?_⟩
  · show (s.admitInitOrdered walk sid token peerId incoming limits).evicted = _
    unfold admitInitOrdered
    dsimp only
    repeat' split
    all_goals rfl
  · show (s.admitInitOrdered walk sid token peerId incoming limits).result = _
    unfold admitInitOrdered
    dsimp only
    rw [if_pos (hchecked.mpr htomb)]
  by_cases htomb : sid ∈ t.tombstones.keys
  · left
    show (s.admitInitOrdered walk sid token peerId incoming limits).state = t
    unfold admitInitOrdered
    dsimp only
    rw [if_pos (hchecked.mpr htomb)]
  have hnot : ¬((s.reapTerminal walk).1.isTombstoned sid).1 = true := fun h => htomb (hchecked.mp h)
  cases hstored : t.sessions[sid]? with
  | some existing =>
    left
    show (s.admitInitOrdered walk sid token peerId incoming limits).state = t
    unfold admitInitOrdered
    dsimp only
    rw [if_neg hnot, hstored]
    dsimp only
    repeat' split
    all_goals rfl
  | none =>
    cases hcanonical : t.peers[peerId]?.bind fun canonical =>
        t.sessions[canonical]?.map fun existing => (canonical, existing) with
    | none =>
      refine Or.inr ⟨htomb, rfl, Or.inl ⟨?_, ?_⟩⟩
      · -- the peers' entries are of stored sessions
        cases hpeer : t.peers[peerId]? with
        | none => rfl
        | some canonical =>
          obtain ⟨e, he, -⟩ := ht.peers peerId canonical hpeer
          rw [hpeer, bind_some, he] at hcanonical
          cases hcanonical
      · show (s.admitInitOrdered walk sid token peerId incoming limits).state = _
        unfold admitInitOrdered
        dsimp only
        rw [if_neg hnot, hstored, hcanonical]
    | some p =>
      obtain ⟨canonical, existing⟩ := p
      by_cases hwins : incomingWins existing canonical sid incoming = true
      · refine Or.inr ⟨htomb, rfl, Or.inr ⟨⟨htombs ▸ htomb, ?_, ?_⟩, canonical, ?_, ?_⟩⟩
        · intro hmem
          rw [mem_iff_isSome_getElem?] at hmem
          change t.sessions[sid]?.isSome = true at hmem
          rw [hstored] at hmem
          cases hmem
        · show ((t.peers[peerId]?.bind fun canonical =>
            t.sessions[canonical]?.map fun existing => (canonical, existing)).any fun p =>
              incomingWins p.2 p.1 sid incoming) = true
          rw [hcanonical]
          exact hwins
        · obtain ⟨canonical', hpeer, hmap⟩ := bind_eq_some_iff.mp hcanonical
          obtain ⟨e, -, heq⟩ := map_eq_some_iff.mp hmap
          rw [hpeer, (Prod.mk.inj heq).1]
        · show (s.admitInitOrdered walk sid token peerId incoming limits).state = _
          unfold admitInitOrdered
          dsimp only
          rw [if_neg hnot, hstored, hcanonical]
          dsimp only
          rw [if_pos hwins]
      · left
        show (s.admitInitOrdered walk sid token peerId incoming limits).state = t
        unfold admitInitOrdered
        dsimp only
        rw [if_neg hnot, hstored, hcanonical]
        dsimp only
        rw [if_neg hwins]

theorem displace_wellFormed (h : s.WellFormed) {canonical : SessionId} {peerId : String}
    (hpeer : s.peers[peerId]? = some canonical) : (s.displace canonical peerId).WellFormed := by
  obtain ⟨entry, hentry, rfl⟩ := h.peers peerId canonical hpeer
  obtain ⟨hpeers, hsessions⟩ := erase_wellFormed_sessions h hentry
  exact ⟨hpeers, hsessions, h.tombstones, fun sid hsid hmem =>
    h.apart sid hsid (mem_erase.mp hmem).2⟩

theorem admitInitOrdered_wellFormed (h : s.WellFormed) (walk : List SessionId) (sid : SessionId)
    (token : Token) (peerId : String) (incoming : BytesN 32) (limits : JournalLimits) :
    (s.admitInitOrdered walk sid token peerId incoming limits).state.WellFormed := by
  have ht : ((s.reapTerminal walk).1.isTombstoned sid).2.WellFormed :=
    isTombstoned_wellFormed (reapTerminal_wellFormed h walk) sid
  obtain ⟨-, -, hsame | ⟨htomb, hnew, ⟨hpeer, hstate⟩ | ⟨-, canonical, hpeer, hstate⟩⟩⟩ :=
    admitInitOrdered_cases h walk sid token peerId incoming limits
  · rw [hsame]
    exact ht
  · rw [hstate]
    exact store_wellFormed ht rfl hnew hpeer htomb
  · rw [hstate]
    refine store_wellFormed (displace_wellFormed ht hpeer) rfl ?_ getElem?_erase_self
      htomb
    show (ExtTreeMap.erase _ canonical)[sid]? = none
    rw [getElem?_erase, hnew, ite_self]

theorem mem_store : sid' ∈ (s.store sid entry).sessions ↔ sid = sid' ∨ sid' ∈ s.sessions := by
  show sid' ∈ s.sessions.insert sid entry ↔ _
  rw [ExtTreeMap.mem_insert, compare_eq_iff_eq]

theorem anchors_admitInitOrdered (h : s.WellFormed) {walk : List SessionId} {peerId : String}
    {incoming : BytesN 32} (hstays : ¬s.Displaces walk sid peerId incoming) (token : Token)
    (limits : JournalLimits) :
    s.Anchors (s.admitInitOrdered walk sid token peerId incoming limits).state
      (s.admitInitOrdered walk sid token peerId incoming limits).evicted := by
  have hchecked := s.anchors_checked walk sid
  obtain ⟨hevicted, -, hsame | ⟨-, -, ⟨-, hstate⟩ | ⟨hdisplaces, -⟩⟩⟩ :=
    admitInitOrdered_cases h walk sid token peerId incoming limits
  · rw [hevicted, hsame]
    exact hchecked
  · rw [hevicted, hstate]
    have hstored : ((s.reapTerminal walk).1.isTombstoned sid).2.Anchors
        (((s.reapTerminal walk).1.isTombstoned sid).2.store sid
          (initEntry sid token peerId incoming limits)) [] :=
      .of_le (fun sid' h => mem_store.mpr (Or.inr h)) rfl
    exact append_nil (s.reapTerminal walk).2 ▸ hchecked.trans hstored
  · exact absurd hdisplaces hstays

/-! ## The other operations -/

theorem registerLocal_state (h : s.WellFormed) (walk : List SessionId) (sid : SessionId)
    (entry : RegistryEntry) :
    (s.registerLocal walk sid entry).evicted = (s.reapTerminal walk).2
      ∧ ((s.registerLocal walk sid entry).state = (s.reapTerminal walk).1
        ∨ (s.reapTerminal walk).1.peers[entry.peerId]? = none
          ∧ (s.registerLocal walk sid entry).state = (s.reapTerminal walk).1.store sid entry) := by
  have ht := reapTerminal_wellFormed h walk
  unfold registerLocal
  dsimp only
  cases hpeer : (s.reapTerminal walk).1.peers[entry.peerId]? with
  | none => exact ⟨rfl, Or.inr ⟨rfl, rfl⟩⟩
  | some canonical =>
    obtain ⟨e, he, -⟩ := ht.peers _ canonical hpeer
    have hmem : canonical ∈ (s.reapTerminal walk).1.sessions :=
      mem_iff_isSome_getElem?.mpr (by rw [he]; rfl)
    rw [filter_some, if_pos (decide_eq_true hmem)]
    exact ⟨rfl, Or.inl rfl⟩

theorem registerLocal_wellFormed (h : s.WellFormed) (walk : List SessionId)
    (hid : entry.shared.sessionId = sid) (hnew : sid ∉ s.sessions) (htomb : sid ∉ s.tombstones.keys) :
    (s.registerLocal walk sid entry).state.WellFormed := by
  have ht := reapTerminal_wellFormed h walk
  have hshrinks := s.shrinks_reapTerminal walk
  obtain ⟨-, hsame | ⟨hpeer, hstate⟩⟩ := registerLocal_state h walk sid entry
  · rwa [hsame]
  · rw [hstate]
    refine store_wellFormed ht hid ?_ hpeer ?_
    · exact ExtTreeMap.getElem?_eq_none fun hmem => hnew (hshrinks.sessions sid hmem)
    · exact fun hmem => (hshrinks.tombstones sid hmem).elim htomb hnew

theorem anchors_registerLocal (h : s.WellFormed) (walk : List SessionId) (sid : SessionId)
    (entry : RegistryEntry) :
    s.Anchors (s.registerLocal walk sid entry).state (s.registerLocal walk sid entry).evicted := by
  have hreaped := s.anchors_reapTerminal walk
  obtain ⟨hevicted, hsame | ⟨-, hstate⟩⟩ := registerLocal_state h walk sid entry
  · rw [hevicted, hsame]
    exact hreaped
  · rw [hevicted, hstate]
    have hstored : (s.reapTerminal walk).1.Anchors ((s.reapTerminal walk).1.store sid entry) [] :=
      .of_le (fun sid' h => mem_store.mpr (Or.inr h)) rfl
    exact append_nil (s.reapTerminal walk).2 ▸ hreaped.trans hstored

theorem lookupResume_state (s : RegistryState) (walk : List SessionId) (sid : SessionId) :
    (s.lookupResume walk sid).evicted = (s.reapTerminal walk).2
      ∧ ((s.lookupResume walk sid).state = (s.reapTerminal walk).1
        ∨ (s.lookupResume walk sid).state = ((s.reapTerminal walk).1.isTombstoned sid).2) := by
  unfold lookupResume
  dsimp only
  split
  · exact ⟨rfl, Or.inl rfl⟩
  · exact ⟨rfl, Or.inr rfl⟩

theorem lookupResume_wellFormed (h : s.WellFormed) (walk : List SessionId) (sid : SessionId) :
    (s.lookupResume walk sid).state.WellFormed := by
  have ht := reapTerminal_wellFormed h walk
  obtain ⟨-, hstate | hstate⟩ := s.lookupResume_state walk sid
  · rwa [hstate]
  · rw [hstate]
    exact isTombstoned_wellFormed ht sid

theorem anchors_lookupResume (s : RegistryState) (walk : List SessionId) (sid : SessionId) :
    s.Anchors (s.lookupResume walk sid).state (s.lookupResume walk sid).evicted := by
  obtain ⟨hevicted, hstate | hstate⟩ := s.lookupResume_state walk sid
  · rw [hevicted, hstate]
    exact s.anchors_reapTerminal walk
  · rw [hevicted, hstate]
    exact s.anchors_checked walk sid

theorem mem_touch {control : ResumeCtl} {replaceable : Bool} :
    sid' ∈ (s.touch sid control replaceable).sessions ↔ sid' ∈ s.sessions :=
  mem_modify

theorem touch_wellFormed (h : s.WellFormed) (sid : SessionId) (control : ResumeCtl)
    (replaceable : Bool) : (s.touch sid control replaceable).WellFormed := by
  -- a touched entry keeps its id and its peer
  have hentries : ∀ (sid' : SessionId) (e : RegistryEntry),
      (s.touch sid control replaceable).sessions[sid']? = some e →
      ∃ e', s.sessions[sid']? = some e' ∧ e.peerId = e'.peerId
        ∧ e.shared.sessionId = e'.shared.sessionId := by
    intro sid' e he
    change (s.sessions.modify sid _)[sid']? = some e at he
    rw [ExtTreeMap.getElem?_modify] at he
    split at he
    · next heq =>
      obtain rfl := compare_eq_iff_eq.mp heq
      obtain ⟨e', he', rfl⟩ := map_eq_some_iff.mp he
      exact ⟨e', he', rfl, rfl⟩
    · exact ⟨e, he, rfl, rfl⟩
  refine ⟨fun peerId sid' hpeer => ?_, fun sid' e he => ?_, h.tombstones, fun sid' hsid' hmem => ?_⟩
  · obtain ⟨e, he, hpeerId⟩ := h.peers peerId sid' hpeer
    have hmem : sid' ∈ (s.touch sid control replaceable).sessions :=
      mem_touch.mpr (mem_iff_isSome_getElem?.mpr (by rw [he]; rfl))
    rw [mem_iff_isSome_getElem?, isSome_iff_exists] at hmem
    obtain ⟨e', he'⟩ := hmem
    obtain ⟨e'', he'', hpeer', -⟩ := hentries sid' e' he'
    rw [he, some.injEq] at he''
    exact ⟨e', he', by rw [hpeer', ← he'', hpeerId]⟩
  · obtain ⟨e', he', hpeer', hid'⟩ := hentries sid' e he
    obtain ⟨hpeer, hid⟩ := h.sessions sid' e' he'
    exact ⟨hpeer' ▸ hpeer, hid' ▸ hid⟩
  · exact h.apart sid' hsid' (mem_touch.mp hmem)

theorem anchors_touch (s : RegistryState) (sid : SessionId) (control : ResumeCtl)
    (replaceable : Bool) : s.Anchors (s.touch sid control replaceable) [] :=
  .of_le (fun _ h => mem_touch.mpr h) rfl

/-! ### Tombstones are set by retiring alone -/

theorem tombstones_admitInitOrdered (h : s.WellFormed) (walk : List SessionId) (sid : SessionId)
    (token : Token) (peerId : String) (incoming : BytesN 32) (limits : JournalLimits) :
    (s.admitInitOrdered walk sid token peerId incoming limits).state.tombstones.keys
      = (s.reapTerminal walk).1.tombstones.keys := by
  have hchecked : ((s.reapTerminal walk).1.isTombstoned sid).2.tombstones.keys
      = (s.reapTerminal walk).1.tombstones.keys := LruSet.lookup_keys _ sid
  obtain ⟨-, -, hstate | ⟨-, -, ⟨-, hstate⟩ | ⟨-, canonical, -, hstate⟩⟩⟩ :=
    admitInitOrdered_cases h walk sid token peerId incoming limits
  all_goals
    rw [hstate]
    exact hchecked

theorem tombstones_registerLocal (h : s.WellFormed) (walk : List SessionId) (sid : SessionId)
    (entry : RegistryEntry) :
    (s.registerLocal walk sid entry).state.tombstones.keys
      = (s.reapTerminal walk).1.tombstones.keys := by
  obtain ⟨-, hstate | ⟨-, hstate⟩⟩ := registerLocal_state h walk sid entry
  · rw [hstate]
  · rw [hstate]
    rfl

theorem tombstones_lookupResume (s : RegistryState) (walk : List SessionId) (sid : SessionId) :
    (s.lookupResume walk sid).state.tombstones.keys
      = (s.reapTerminal walk).1.tombstones.keys := by
  obtain ⟨-, hstate | hstate⟩ := s.lookupResume_state walk sid
  · rw [hstate]
  · rw [hstate]
    exact LruSet.lookup_keys _ sid

/-! ### What a tombstone promises -/

theorem admitInitOrdered_of_tombstone (h : s.WellFormed) (htomb : sid ∈ s.tombstones.keys)
    (walk : List SessionId) (token : Token) (peerId : String) (incoming : BytesN 32)
    (limits : JournalLimits)
    (hevicted : sid ∉ (s.admitInitOrdered walk sid token peerId incoming limits).evicted) :
    (s.admitInitOrdered walk sid token peerId incoming limits).result = .tokenRevoked := by
  obtain ⟨heq, hrevoked, -⟩ := admitInitOrdered_cases h walk sid token peerId incoming limits
  rw [heq] at hevicted
  exact hrevoked ((s.anchors_checked walk sid).kept sid htomb hevicted)

theorem lookupResume_of_tombstone (h : s.WellFormed) (htomb : sid ∈ s.tombstones.keys)
    (walk : List SessionId) (hevicted : sid ∉ (s.lookupResume walk sid).evicted) :
    (s.lookupResume walk sid).result = .revoked := by
  rw [(s.lookupResume_state walk sid).1] at hevicted
  have hkept := (s.anchors_reapTerminal walk).kept sid htomb hevicted
  have hgone := (reapTerminal_wellFormed h walk).apart sid hkept
  have hhit : ((s.reapTerminal walk).1.isTombstoned sid).1 = true :=
    (LruSet.lookup_fst _ sid).mpr hkept
  unfold lookupResume
  dsimp only
  rw [if_neg hgone]
  dsimp only
  rw [if_pos hhit]

end RegistryState

/-! ## Runs -/

structure RegistryRun where
  state : RegistryState
  /-- Ids that have left the map and have not been evicted since. -/
  departed : List SessionId
  used : List SessionId

/-- An operation on the registry; `walk` is the order in which the sessions are walked. -/
inductive RegistryEvent where
  | admitInit (walk : List SessionId) (sessionId : SessionId) (token : Token) (peerId : String)
      (incomingEndpoint : BytesN 32) (limits : JournalLimits)
  /-- The caller registers a session under its own peer. -/
  | registerLocal (walk : List SessionId) (sessionId : SessionId) (entry : RegistryEntry)
  | removeIf (sessionId : SessionId)
  | get (walk : List SessionId) (sessionId : SessionId)
  | lookupResume (walk : List SessionId) (sessionId : SessionId)
  | canonicalSidForPeer (walk : List SessionId) (peerId : String)
  | reusableForPeer (walk : List SessionId) (peerId : String)
  | touch (sessionId : SessionId) (control : ResumeCtl) (channelReplaceable : Bool)

namespace RegistryRun

/-- Follow an operation: what has left the map, without what it evicted. -/
def advance (r : RegistryRun) (state : RegistryState) (evicted : List SessionId) : RegistryRun where
  state := state
  departed := (r.departed ++ r.state.sessions.keys.filter (· ∉ state.sessions)).filter (· ∉ evicted)
  used := r.used ++ state.sessions.keys

def step (r : RegistryRun) : RegistryEvent → Option RegistryRun
  | .admitInit walk sid token peerId incoming limits =>
    let out := r.state.admitInitOrdered walk sid token peerId incoming limits
    if walk.Perm r.state.sessions.keys then some (r.advance out.state out.evicted) else none
  | .registerLocal walk sid entry =>
    let out := r.state.registerLocal walk sid entry
    -- a session id is random: it has not been used before
    if walk.Perm r.state.sessions.keys ∧ entry.shared.sessionId = sid ∧ sid ∉ r.used then
      some (r.advance out.state out.evicted)
    else none
  | .removeIf sid =>
    let out := r.state.removeIf sid
    some (r.advance out.state out.evicted)
  | .get walk sid =>
    let out := r.state.get walk sid
    if walk.Perm r.state.sessions.keys then some (r.advance out.state out.evicted) else none
  | .lookupResume walk sid =>
    let out := r.state.lookupResume walk sid
    if walk.Perm r.state.sessions.keys then some (r.advance out.state out.evicted) else none
  | .canonicalSidForPeer walk peerId =>
    let out := r.state.canonicalSidForPeer walk peerId
    if walk.Perm r.state.sessions.keys then some (r.advance out.state out.evicted) else none
  | .reusableForPeer walk peerId =>
    let out := r.state.reusableForPeer walk peerId
    if walk.Perm r.state.sessions.keys then some (r.advance out.state out.evicted) else none
  | .touch sid control replaceable => some (r.advance (r.state.touch sid control replaceable) [])

def empty : RegistryRun := { state := .empty, departed := [], used := [] }

def DisplacesNone (r : RegistryRun) : RegistryEvent → Prop
  | .admitInit walk sid _ peerId incoming _ => ¬r.state.Displaces walk sid peerId incoming
  | _ => True

instance (r : RegistryRun) (e : RegistryEvent) : Decidable (r.DisplacesNone e) := by
  unfold DisplacesNone
  cases e <;> infer_instance

/-- The registry's invariant: sessions and peers are one to one, the tombstones are listed
once and bounded, and a session that has left is not admitted again and not reported missing
until its tombstone is evicted. -/
structure Holds (r : RegistryRun) : Prop where
  peers : ∀ (peerId : String) (sid : SessionId), r.state.peers[peerId]? = some sid →
    ∃ e, r.state.sessions[sid]? = some e ∧ e.peerId = peerId ∧ e.shared.sessionId = sid
  sessions : ∀ (sid : SessionId) (e : RegistryEntry), r.state.sessions[sid]? = some e →
    r.state.peers[e.peerId]? = some sid
  tombstones : r.state.tombstones.WellFormed tombstoneCap
  gone : ∀ sid ∈ r.departed, sid ∉ r.state.sessions
  refused : ∀ sid ∈ r.departed, ∀ walk token peerId incoming limits,
    let out := r.state.admitInitOrdered walk sid token peerId incoming limits
    sid ∉ out.evicted → out.result = .tokenRevoked
  known : ∀ sid ∈ r.departed, ∀ walk,
    let out := r.state.lookupResume walk sid
    sid ∉ out.evicted → out.result = .revoked

end RegistryRun

def registryMachine : Machine RegistryRun RegistryEvent where
  init r := r = .empty
  step := RegistryRun.step

/-! ## The invariant -/

namespace RegistryRun

/-- What holds whatever replaces what: stored ids and tombstones are used ids. -/
structure Sound (r : RegistryRun) : Prop where
  wellFormed : r.state.WellFormed
  stored : ∀ sid ∈ r.state.sessions, sid ∈ r.used
  tombstones : ∀ sid ∈ r.state.tombstones.keys, sid ∈ r.used

theorem sound_empty : Sound empty where
  wellFormed := RegistryState.wellFormed_empty
  stored sid h := by simp [empty, RegistryState.empty] at h
  tombstones sid h := by simp [empty, RegistryState.empty, LruSet.empty] at h

variable {r r' : RegistryRun} {e : RegistryEvent}

/-- **What a step does.** The state stays well-formed, only stored sessions get tombstones,
and a step that displaces no session leaves a tombstone for whatever leaves the map. -/
theorem Sound.step_outcome (h : r.Sound) (hstep : r.step e = some r') :
    ∃ state evicted, r' = r.advance state evicted ∧ state.WellFormed
      ∧ (∀ sid ∈ state.tombstones.keys, sid ∈ r.state.tombstones.keys ∨ sid ∈ r.state.sessions)
      ∧ (r.DisplacesNone e → r.state.Anchors state evicted) := by
  have hwell := h.wellFormed
  have hreaped : ∀ (walk : List SessionId) {state : RegistryState},
      state.tombstones.keys = (r.state.reapTerminal walk).1.tombstones.keys →
      ∀ sid ∈ state.tombstones.keys, sid ∈ r.state.tombstones.keys ∨ sid ∈ r.state.sessions :=
    fun walk _ heq sid hsid => (r.state.shrinks_reapTerminal walk).tombstones sid (heq ▸ hsid)
  cases e with
  | admitInit walk sid token peerId incoming limits =>
    obtain ⟨-, hr⟩ := ite_none_right_eq_some.mp hstep
    exact ⟨_, _, (some.inj hr).symm,
      RegistryState.admitInitOrdered_wellFormed hwell walk sid token peerId incoming limits,
      hreaped walk (RegistryState.tombstones_admitInitOrdered hwell walk sid token peerId incoming
        limits),
      fun hguard => RegistryState.anchors_admitInitOrdered hwell hguard token limits⟩
  | registerLocal walk sid entry =>
    obtain ⟨⟨-, hid, hfresh⟩, hr⟩ := ite_none_right_eq_some.mp hstep
    exact ⟨_, _, (some.inj hr).symm,
      RegistryState.registerLocal_wellFormed hwell walk hid (fun hmem => hfresh (h.stored sid hmem))
        (fun hmem => hfresh (h.tombstones sid hmem)),
      hreaped walk (RegistryState.tombstones_registerLocal hwell walk sid entry),
      fun _ => RegistryState.anchors_registerLocal hwell walk sid entry⟩
  | removeIf sid =>
    exact ⟨_, _, (some.inj hstep).symm, RegistryState.retire_wellFormed hwell sid,
      (r.state.shrinks_retire sid).tombstones, fun _ => r.state.anchors_retire sid⟩
  | lookupResume walk sid =>
    obtain ⟨-, hr⟩ := ite_none_right_eq_some.mp hstep
    exact ⟨_, _, (some.inj hr).symm, RegistryState.lookupResume_wellFormed hwell walk sid,
      hreaped walk (r.state.tombstones_lookupResume walk sid),
      fun _ => r.state.anchors_lookupResume walk sid⟩
  | touch sid control replaceable =>
    exact ⟨_, _, (some.inj hstep).symm,
      RegistryState.touch_wellFormed hwell sid control replaceable, fun _ hmem => Or.inl hmem,
      fun _ => r.state.anchors_touch sid control replaceable⟩
  | get walk _ | canonicalSidForPeer walk _ | reusableForPeer walk _ =>
    obtain ⟨-, hr⟩ := ite_none_right_eq_some.mp hstep
    exact ⟨_, _, (some.inj hr).symm, RegistryState.reapTerminal_wellFormed hwell walk,
      hreaped walk rfl, fun _ => r.state.anchors_reapTerminal walk⟩

theorem Sound.step (h : r.Sound) (hstep : r.step e = some r') : r'.Sound := by
  obtain ⟨state, evicted, rfl, hwell, htombs, -⟩ := h.step_outcome hstep
  exact ⟨hwell, fun sid hsid => mem_append_right _ (ExtTreeMap.mem_keys.mpr hsid),
    fun sid hsid =>
      mem_append_left _ ((htombs sid hsid).elim (h.tombstones sid) (h.stored sid))⟩

structure Inv (r : RegistryRun) : Prop extends Sound r where
  departed : ∀ sid ∈ r.departed, sid ∈ r.state.tombstones.keys

theorem Inv.step (h : r.Inv) (hguard : r.DisplacesNone e) (hstep : r.step e = some r') :
    r'.Inv := by
  refine ⟨h.toSound.step hstep, fun sid hsid => ?_⟩
  obtain ⟨state, evicted, rfl, -, -, hanchors⟩ := h.toSound.step_outcome hstep
  have hanchors := hanchors hguard
  obtain ⟨hsid, hevicted⟩ := List.mem_filter.mp hsid
  have hevicted : sid ∉ evicted := of_decide_eq_true hevicted
  rcases mem_append.mp hsid with hsid | hsid
  · exact hanchors.kept sid (h.departed sid hsid) hevicted
  · obtain ⟨hkey, hleft⟩ := List.mem_filter.mp hsid
    exact hanchors.left sid (ExtTreeMap.mem_keys.mp hkey) (of_decide_eq_true hleft) hevicted

theorem Inv.holds (h : r.Inv) : r.Holds where
  peers peerId sid hpeer := by
    obtain ⟨e, he, hpeerId⟩ := h.wellFormed.peers peerId sid hpeer
    exact ⟨e, he, hpeerId, (h.wellFormed.sessions sid e he).2⟩
  sessions sid e he := (h.wellFormed.sessions sid e he).1
  tombstones := h.wellFormed.tombstones
  gone sid hsid := h.wellFormed.apart sid (h.departed sid hsid)
  refused sid hsid walk token peerId incoming limits := by
    intro out hevicted
    exact RegistryState.admitInitOrdered_of_tombstone h.wellFormed (h.departed sid hsid) walk token
      peerId incoming limits hevicted
  known sid hsid walk := by
    intro out hevicted
    exact RegistryState.lookupResume_of_tombstone h.wellFormed (h.departed sid hsid) walk hevicted

end RegistryRun

theorem registry_wellFormed {r : RegistryRun} (h : registryMachine.Reachable r) :
    r.state.WellFormed := by
  have hsound : r.Sound := by
    refine Machine.ReachableUnder.invariant ?_ (fun r e r' hsound _ hstep => ?_) h
    · rintro r rfl
      exact RegistryRun.sound_empty
    · exact hsound.step hstep
  exact hsound.wellFormed

/-- **The registry keeps its invariant**, as long as no INIT displaces the session of its
peer. -/
theorem registry_holds {r : RegistryRun}
    (h : registryMachine.ReachableUnder RegistryRun.DisplacesNone r) : r.Holds := by
  have hinv : r.Inv := by
    refine Machine.ReachableUnder.invariant ?_ (fun r e r' hinv hguard hstep => ?_) h
    · rintro r rfl
      exact ⟨RegistryRun.sound_empty, fun sid hsid => (by cases hsid)⟩
    · exact hinv.step hguard hstep
  exact hinv.holds

/-- An INIT of one peer for the session with id `n`. -/
def initEvent (walk : List Nat) (n : Nat) : RegistryEvent :=
  .admitInit (walk.map (BytesN.ofNat 16)) (.ofNat 16 n) (.ofNat 16 n) "peer" (.ofNat 32 9) .default

/-- Session `n` comes to a phase, with a channel that a new INIT may replace. -/
def phaseEvent (n : Nat) (phase : SessionPhase) : RegistryEvent :=
  .touch (.ofNat 16 n) { ResumeCtl.new (.ofNat 16 n) with phase := phase } true

theorem registry_wellFormed_displaced :
    ∃ r, registryMachine.Reachable r ∧ r.departed ≠ [] ∧ r.state.WellFormed := by
  have hrun : (registryMachine.run .empty
      [initEvent [] 1, phaseEvent 1 .active, initEvent [1] 2]).any
      (fun r => decide (r.departed ≠ [])) = true := by
    decide +kernel
  obtain ⟨r, hr, hdeparted⟩ := (Option.any_eq_true _ _).mp hrun
  have hreach : registryMachine.Reachable r := Machine.reachable_of_run rfl hr
  exact ⟨r, hreach, of_decide_eq_true hdeparted, registry_wellFormed hreach⟩

theorem registry_holds_reaped :
    ∃ r, registryMachine.ReachableUnder RegistryRun.DisplacesNone r
      ∧ r.departed = [BytesN.ofNat 16 1] ∧ r.Holds := by
  have hrun : (registryMachine.runUnder RegistryRun.DisplacesNone .empty
      [initEvent [] 1, phaseEvent 1 .dead, initEvent [1] 2,
       .lookupResume [.ofNat 16 2] (.ofNat 16 1)]).any
      (fun r => decide (r.departed = [BytesN.ofNat 16 1])) = true := by
    decide +kernel
  obtain ⟨r, hr, hdeparted⟩ := Machine.exists_reachableUnder rfl hrun
  exact ⟨r, hr, of_decide_eq_true hdeparted, registry_holds hr⟩

/-- The second INIT of a peer displaces its session without a channel: the first session is
reported missing, and its INIT is admitted again as soon as the second has lost its channel
too. -/
theorem displaced_session_forgotten :
    ∃ r, registryMachine.Reachable r
      ∧ BytesN.ofNat 16 1 ∈ r.departed
      ∧ (r.state.lookupResume [.ofNat 16 2] (.ofNat 16 1)).result = .missing
      ∧ (r.state.admitInitOrdered [.ofNat 16 2] (.ofNat 16 1) (.ofNat 16 1) "peer" (.ofNat 32 9)
          .default).result = .replaced (.ofNat 16 1) (.ofNat 16 2)
      ∧ ¬r.Holds := by
  have hrun : (registryMachine.run .empty
      [initEvent [] 1, phaseEvent 1 .active, initEvent [1] 2, phaseEvent 2 .active]).any
      (fun r => decide (BytesN.ofNat 16 1 ∈ r.departed
        ∧ (r.state.lookupResume [.ofNat 16 2] (.ofNat 16 1)).result = .missing
        ∧ (r.state.lookupResume [.ofNat 16 2] (.ofNat 16 1)).evicted = []
        ∧ (r.state.admitInitOrdered [.ofNat 16 2] (.ofNat 16 1) (.ofNat 16 1) "peer" (.ofNat 32 9)
            .default).result = .replaced (.ofNat 16 1) (.ofNat 16 2))) = true := by
    decide +kernel
  obtain ⟨r, hr, hp⟩ := (Option.any_eq_true _ _).mp hrun
  obtain ⟨hdeparted, hmissing, hevicted, hagain⟩ := of_decide_eq_true hp
  refine ⟨r, Machine.reachable_of_run rfl hr, hdeparted, hmissing, hagain, fun h => ?_⟩
  have hrevoked := h.known _ hdeparted [.ofNat 16 2]
    (by rw [hevicted]; exact not_mem_nil)
  rw [hmissing] at hrevoked
  cases hrevoked

end Dweb
