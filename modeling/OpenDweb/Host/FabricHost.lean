import OpenDweb.Host.PeerTables
import OpenDweb.Lib.Machine

/-!
# OpenDweb — the fabric host: starts, joins and closes

One process holds one fabric of its home directory, with a session and a `serveHttp` handle for
each peer. `ensureStarted`, `joinWithToken`, `sessionResolver`, `bindPeer` and `close` look at
the host's variables and change them with awaits in between and no lock. A step of this
machine is what one call does up to its next await, and the label says how the await ended.

* **`Opener`** — a start or a join. Each opens at most one fabric, so a fabric is known by the
  number of the call that opens it.
* **`FabricHost.step`** — all calls, the peers' events and the sessions', in any order.
* **`FabricHost.Respects`** — the steps that do not run into what a call forgot to look at again.

Awaits with nothing of the host's between them are one. A fabric's `shutdown` does not fail, and
peers come and go at any time: of the event subscription nothing is kept.
-/

namespace Dweb

/-! ## State -/

inductive HostStatus where
  | idle | starting | started | failed | closed
  deriving DecidableEq

inductive OpenerAt where
  /-- `startSequence`: the identity and the SDK are loaded, `Fabric.open`, `createRoot`. -/
  | preparing | opening | creating
  | abandoning
  /-- The fabric is the host's: posture and tuple are checked, `start`. -/
  | checking | starting | failing
  | members
  /-- `startSequence` is done; what it promised is not settled yet. -/
  | returning | throwing
  | returned | thrown
  /-- `joinWithToken`, from its preparations on. -/
  | joinPreparing | joining | rootCheck | rejecting
  /-- In `teardownFabric`, at the `shutdown` of the fabric there was. -/
  | tearing (old : Option Nat)
  | joinStarting
  | joinOver
  deriving DecidableEq

/-- The fabric that a `teardownFabric` at this place has in hand. -/
def OpenerAt.torn : OpenerAt → Option Nat
  | .tearing old => old
  | _ => none

inductive FabricLife where
  | unopened | opened | started | shut
  deriving DecidableEq

/-- `start`; what was shut down stays so. -/
def FabricLife.start : FabricLife → FabricLife
  | .opened => .started
  | life => life

structure Opener where
  place : OpenerAt
  fabric : FabricLife
  deriving DecidableEq

/-- `shutdown` of the fabric that was the host's, if there was one. -/
def shutDown (openers : List Opener) : Option Nat → List Opener
  | none => openers
  | some f => openers.modify f fun o => { o with fabric := .shut }

/-- How far a `close` is. -/
inductive HostCloseAt where
  | tearing (old : Option Nat)
  | ended
  deriving DecidableEq

def HostCloseAt.torn : HostCloseAt → Option Nat
  | .tearing old => old
  | .ended => none

inductive ResolverAt where
  | awaiting (start : Nat)
  | ready
  /-- At the `state` of the session of a cached entry. -/
  | querying (entry : Nat)
  | connecting | opening
  | ended
  deriving DecidableEq

/-- A `sessionResolver`; on which fabric it connects decides nothing here. -/
structure SessionResolver (π : Type*) where
  peer : π
  place : ResolverAt
  deriving DecidableEq

structure FabricHost (π ι : Type*) where
  status : HostStatus
  startPromise : Option Nat
  fabric : Option Nat
  openers : List Opener
  closes : List HostCloseAt
  resolvers : List (SessionResolver π)
  sessions : SessionTable π ι
  serves : ServeTable π
  connectedPeers : List π

/-- What `ensureStarted` gives: a promise kept or broken at once, or that of a start. -/
inductive StartAnswer where
  | ready | rejected
  | awaiting (start : Nat)

/-- How `Fabric.open` ends; without a persisted roster the start goes on with `createRoot`. -/
inductive FabricOpenEnd where
  | opened | noRoster | failed
  deriving DecidableEq

namespace FabricHost

variable {π ι : Type*}

def initial : FabricHost π ι where
  status := .idle
  startPromise := none
  fabric := none
  openers := []
  closes := []
  resolvers := []
  sessions := .empty
  serves := .empty
  connectedPeers := []

/-! ## Fabrics -/

def setOpener (s : FabricHost π ι) (i : Nat) (place : OpenerAt) (fabric : FabricLife) :
    FabricHost π ι :=
  { s with openers := s.openers.set i { place := place, fabric := fabric } }

/-- `ensureStarted`: one start at a time. -/
def ensureStarted (s : FabricHost π ι) : FabricHost π ι × StartAnswer :=
  match s.status with
  | .started => (s, .ready)
  | .closed => (s, .rejected)
  | _ =>
    match s.startPromise with
    | some i => (s, .awaiting i)
    | none =>
      ({ s with
          status := .starting
          startPromise := some s.openers.length
          openers := s.openers ++ [{ place := .preparing, fabric := .unopened }] },
        .awaiting s.openers.length)

/-- The identity and the SDK are loaded, or not, in a start or a join. -/
def preparedEnds (s : FabricHost π ι) (i : Nat) (o : Opener) (ok : Bool) :
    Option (FabricHost π ι) :=
  match o.place with
  | .preparing => some (s.setOpener i (if ok then .opening else .throwing) o.fabric)
  | .joinPreparing => some (s.setOpener i (if ok then .joining else .joinOver) o.fabric)
  | _ => none

/-- The start has its fabric: it is the host's, unless the host has been closed. -/
def takeUp (s : FabricHost π ι) (i : Nat) : FabricHost π ι :=
  if s.status = .closed then s.setOpener i .abandoning .opened
  else { s.setOpener i .checking .opened with fabric := some i }

def openEnds (s : FabricHost π ι) (i : Nat) (o : Opener) (e : FabricOpenEnd) :
    Option (FabricHost π ι) :=
  match o.place with
  | .opening =>
    some <|
      match e with
      | .opened => s.takeUp i
      | .noRoster => s.setOpener i .creating o.fabric
      | .failed => s.setOpener i .throwing o.fabric
  | _ => none

def createEnds (s : FabricHost π ι) (i : Nat) (o : Opener) (ok : Bool) :
    Option (FabricHost π ι) :=
  match o.place with
  | .creating => some (if ok then s.takeUp i else s.setOpener i .throwing o.fabric)
  | _ => none

def checkEnds (s : FabricHost π ι) (i : Nat) (o : Opener) (ok : Bool) : Option (FabricHost π ι) :=
  match o.place with
  | .checking => some (s.setOpener i (if ok then .starting else .failing) o.fabric)
  | _ => none

/-- `start` of the fabric. -/
def startEnds (s : FabricHost π ι) (i : Nat) (o : Opener) (ok : Bool) : Option (FabricHost π ι) :=
  match o.place with
  | .starting =>
    some (if ok then s.setOpener i .members o.fabric.start
      else s.setOpener i .failing o.fabric)
  | .joinStarting =>
    some (if ok then
        { s.setOpener i .joinOver o.fabric.start with status := .started }
      else s.setOpener i .joinOver o.fabric)
  | _ => none

/-- `shutdown` of a fabric that its call gives up. -/
def shutEnds (s : FabricHost π ι) (i : Nat) (o : Opener) : Option (FabricHost π ι) :=
  match o.place with
  | .abandoning => some (s.setOpener i .throwing .shut)
  | .failing => some { s.setOpener i .throwing .shut with fabric := none }
  | .rejecting => some (s.setOpener i .joinOver .shut)
  | _ => none

/-- The handlers of `ensureStarted` run. -/
def startSettles (s : FabricHost π ι) (i : Nat) (o : Opener) : Option (FabricHost π ι) :=
  match o.place with
  | .returning => some { s.setOpener i .returned o.fabric with startPromise := none }
  | .throwing =>
    some { s.setOpener i .thrown o.fabric with startPromise := none, status := .failed }
  | _ => none

/-! ## Serving -/

variable [DecidableEq π]

/-- `bindPeer` up to its await; on no fabric `serveHttp` fails. -/
def bindPeer (s : FabricHost π ι) (peer : π) : FabricHost π ι :=
  if s.status = .closed ∨ (s.serves.servers peer).isSome then s
  else
    match s.fabric with
    | none => s
    | some f => { s with serves := s.serves.serveHttp peer f }

def bindEnds (s : FabricHost π ι) (h : Nat) (b : ServeBinding π) (ok : Bool) :
    Option (FabricHost π ι) :=
  match b.place with
  | .awaiting =>
    some { s with
      serves :=
        if !ok then s.serves.setPlace h b .failed
        else if s.status = .closed then s.serves.setPlace h b .closed
        else s.serves.register h b }
  | _ => none

def addConnected (s : FabricHost π ι) (peer : π) : FabricHost π ι :=
  { s with connectedPeers := if peer ∈ s.connectedPeers then s.connectedPeers
      else s.connectedPeers ++ [peer] }

def peerConnected (s : FabricHost π ι) (peer : π) : FabricHost π ι :=
  (s.addConnected peer).bindPeer peer

/-- The roster is read, or cannot be; its members but oneself are bound, the host is started. -/
def membersEnd (s : FabricHost π ι) (i : Nat) (o : Opener) (found : Option (List π)) :
    Option (FabricHost π ι) :=
  match o.place with
  | .members =>
    some { ((found.getD []).foldl peerConnected s).setOpener i .returning o.fabric with
      status := .started }
  | _ => none

/-- `setRouter`, as far as it binds. -/
def setRouter (s : FabricHost π ι) : FabricHost π ι :=
  if s.status = .started then s.connectedPeers.foldl bindPeer s else s

/-! ## Taking down -/

variable [DecidableEq ι]

/-- `teardownFabric` without the fabric. -/
def clearPeers (s : FabricHost π ι) : FabricHost π ι :=
  { s with
    serves := s.serves.closeAll
    connectedPeers := []
    sessions := s.sessions.evictAll }

/-- `teardownFabric` up to its await: the fabric is no longer the host's. -/
def teardown (s : FabricHost π ι) : FabricHost π ι := { s.clearPeers with fabric := none }

def join (s : FabricHost π ι) : FabricHost π ι :=
  { s with openers := s.openers ++ [{ place := .joinPreparing, fabric := .unopened }] }

/-- `Fabric.joinWithToken`. -/
def joinEnds (s : FabricHost π ι) (i : Nat) (o : Opener) (ok : Bool) : Option (FabricHost π ι) :=
  match o.place with
  | .joining =>
    some (if ok then s.setOpener i .rootCheck .opened else s.setOpener i .joinOver o.fabric)
  | _ => none

/-- The root of the joined fabric is known; it is to be the inviter. -/
def rootEnds (s : FabricHost π ι) (i : Nat) (o : Opener) (inviter : Bool) :
    Option (FabricHost π ι) :=
  match o.place with
  | .rootCheck =>
    some (if inviter then s.teardown.setOpener i (.tearing s.fabric) o.fabric
      else s.setOpener i .rejecting o.fabric)
  | _ => none

/-- The old fabric is down, the joined one takes its place. -/
def tornDown (s : FabricHost π ι) (i : Nat) (o : Opener) : Option (FabricHost π ι) :=
  match o.place with
  | .tearing old =>
    some { { s with openers := shutDown s.openers old }.setOpener i .joinStarting o.fabric with
      fabric := some i }
  | _ => none

def close (s : FabricHost π ι) : FabricHost π ι :=
  { s.teardown with closes := s.closes ++ [.tearing s.fabric] }

def closeEnds (s : FabricHost π ι) (k : Nat) (c : HostCloseAt) : Option (FabricHost π ι) :=
  match c with
  | .tearing old =>
    some { s.clearPeers with
      openers := shutDown s.openers old
      status := .closed
      startPromise := none
      closes := s.closes.set k .ended }
  | .ended => none

/-! ## Sessions -/

def moveResolver (s : FabricHost π ι) (k : Nat) (r : SessionResolver π) (place : ResolverAt) :
    FabricHost π ι :=
  { s with resolvers := s.resolvers.set k { r with place := place } }

/-- `sessionResolver` is called. -/
def resolve (s : FabricHost π ι) (peer : π) : FabricHost π ι :=
  let (s', answer) := s.ensureStarted
  match answer with
  | .ready => { s' with resolvers := s'.resolvers ++ [{ peer := peer, place := .ready }] }
  | .awaiting i => { s' with resolvers := s'.resolvers ++ [{ peer := peer, place := .awaiting i }] }
  | .rejected => s'

/-- The fabric is started: what is cached is looked at. -/
def lookUp (s : FabricHost π ι) (k : Nat) (r : SessionResolver π) : FabricHost π ι :=
  match s.sessions.hit r.peer with
  | none => s.moveResolver k r .connecting
  | some (e, hit) =>
    if hit.closed then
      { s with sessions := s.sessions.evictSession r.peer .evicted }.moveResolver k r .connecting
    else s.moveResolver k r (.querying e)

def resolverGoesOn (s : FabricHost π ι) (k : Nat) (r : SessionResolver π) :
    Option (FabricHost π ι) :=
  match r.place with
  | .ready => some (s.lookUp k r)
  | .awaiting i =>
    match s.openers[i]?.map Opener.place with
    | some .returned => some (s.lookUp k r)
    | some .thrown => some (s.moveResolver k r .ended)
    | _ => none
  | _ => none

/-- A snapshot for which the cached session is used again; `none` could not be read. -/
def goodSnapshot : Option SessionPhase → Bool
  | none | some .active | some .recovering => true
  | _ => false

/-- `state` of the cached session. Who is told of the end of a session finds it ended. -/
def stateEnds (s : FabricHost π ι) (k : Nat) (r : SessionResolver π)
    (snapshot : Option SessionPhase) : Option (FabricHost π ι) :=
  match r.place with
  | .querying e =>
    match s.sessions.entries[e]? with
    | none => none
    | some hit =>
      if (snapshot = some .dead ∨ snapshot = some .closed)
          ∧ (s.sessions.kernel hit.session).ended = false then none
      else if goodSnapshot snapshot then some (s.moveResolver k r .ended)
      else
        some ({ s with sessions := s.sessions.evictSession r.peer .evicted }.moveResolver k r
          .connecting)
  | _ => none

def connectEnds (s : FabricHost π ι) (k : Nat) (r : SessionResolver π) (ok : Bool) :
    Option (FabricHost π ι) :=
  match r.place with
  | .connecting => some (s.moveResolver k r (if ok then .opening else .ended))
  | _ => none

/-- `openSession` gives a handle of a session of the peer, a new one or one there is. -/
def openSessionEnds (belongs : ι → π) (s : FabricHost π ι) (k : Nat) (r : SessionResolver π)
    (session : Option ι) : Option (FabricHost π ι) :=
  match r.place, session with
  | .opening, none => some (s.moveResolver k r .ended)
  | .opening, some session =>
    if belongs session ≠ r.peer then none
    else
      some { s.moveResolver k r .ended with
        sessions :=
          if s.status = .closed then
            (s.sessions.addEntry r.peer session).closeSession session .teardown
          else s.sessions.cacheEntry r.peer session }
  | _, _ => none

/-- `onState` tells that the session is dead or closed. -/
def stateEvent (s : FabricHost π ι) (e : Nat) : Option (FabricHost π ι) :=
  match s.sessions.entries[e]? with
  | none => none
  | some hit =>
    if hit.subscribed && (s.sessions.kernel hit.session).ended then
      some { s with sessions := s.sessions.evictSession hit.peer .evicted }
    else none

end FabricHost

/-! ## Steps -/

/-- What happens next; peers are `hexToZ32` keys. -/
inductive FabricHostLabel (π ι : Type*) where
  | ensureStarted
  | preparedEnds (i : Nat) (ok : Bool)
  | openEnds (i : Nat) (e : FabricOpenEnd)
  | createEnds (i : Nat) (ok : Bool)
  | checkEnds (i : Nat) (ok : Bool)
  | startEnds (i : Nat) (ok : Bool)
  | membersEnd (i : Nat) (found : Option (List π))
  | shutEnds (i : Nat)
  | startSettles (i : Nat)
  | join
  | joinEnds (i : Nat) (ok : Bool)
  | rootEnds (i : Nat) (inviter : Bool)
  | tornDown (i : Nat)
  | close
  | closeEnds (k : Nat)
  | resolve (peer : π)
  | resolverGoesOn (k : Nat)
  | stateEnds (k : Nat) (snapshot : Option SessionPhase)
  | connectEnds (k : Nat) (ok : Bool)
  | openSessionEnds (k : Nat) (session : Option ι)
  | bindEnds (h : Nat) (ok : Bool)
  | peerConnected (peer : π)
  | peerDisconnected (peer : π)
  | setRouter
  /-- A request on a session reaches the router, which notes the peer it is bound to. -/
  | noteSession (session : ι)
  | sessionEnds (session : ι)
  | stateEvent (e : Nat)
  deriving DecidableEq

namespace FabricHost

variable {π ι : Type*} [DecidableEq π] [DecidableEq ι]

def step (belongs : ι → π) (s : FabricHost π ι) : FabricHostLabel π ι → Option (FabricHost π ι)
  | .ensureStarted => some s.ensureStarted.1
  | .preparedEnds i ok => s.openers[i]?.bind fun o => s.preparedEnds i o ok
  | .openEnds i e => s.openers[i]?.bind fun o => s.openEnds i o e
  | .createEnds i ok => s.openers[i]?.bind fun o => s.createEnds i o ok
  | .checkEnds i ok => s.openers[i]?.bind fun o => s.checkEnds i o ok
  | .startEnds i ok => s.openers[i]?.bind fun o => s.startEnds i o ok
  | .membersEnd i found => s.openers[i]?.bind fun o => s.membersEnd i o found
  | .shutEnds i => s.openers[i]?.bind fun o => s.shutEnds i o
  | .startSettles i => s.openers[i]?.bind fun o => s.startSettles i o
  | .join => some s.join
  | .joinEnds i ok => s.openers[i]?.bind fun o => s.joinEnds i o ok
  | .rootEnds i inviter => s.openers[i]?.bind fun o => s.rootEnds i o inviter
  | .tornDown i => s.openers[i]?.bind fun o => s.tornDown i o
  | .close => some s.close
  | .closeEnds k => s.closes[k]?.bind fun c => s.closeEnds k c
  | .resolve peer => some (s.resolve peer)
  | .resolverGoesOn k => s.resolvers[k]?.bind fun r => s.resolverGoesOn k r
  | .stateEnds k snapshot => s.resolvers[k]?.bind fun r => s.stateEnds k r snapshot
  | .connectEnds k ok => s.resolvers[k]?.bind fun r => s.connectEnds k r ok
  | .openSessionEnds k session =>
    s.resolvers[k]?.bind fun r => openSessionEnds belongs s k r session
  | .bindEnds h ok => s.serves.binds[h]?.bind fun b => s.bindEnds h b ok
  | .peerConnected peer => some (s.peerConnected peer)
  | .peerDisconnected peer =>
    some { s with connectedPeers := s.connectedPeers.filter (· ≠ peer) }
  | .setRouter => some s.setRouter
  | .noteSession session =>
    some { s with sessions := s.sessions.noteSession session (belongs session) }
  | .sessionEnds session => some { s with sessions := s.sessions.endSession session }
  | .stateEvent e => s.stateEvent e

/-- There is no fabric: none is the host's, none is in the hands of another call's teardown, and no
close has begun. -/
def Vacant (s : FabricHost π ι) (others : List Opener) : Prop :=
  s.fabric = none ∧ s.closes = [] ∧ ∀ o ∈ others, o.place.torn = none

def CachedEnded (s : FabricHost π ι) (peer : π) : Prop :=
  ∀ j ∈ s.sessions.cached peer, (s.sessions.kernel j).ended = true

instance (s : FabricHost π ι) (others : List Opener) : Decidable (s.Vacant others) := by
  unfold Vacant
  infer_instance

instance (s : FabricHost π ι) (peer : π) : Decidable (s.CachedEnded peer) := by
  unfold CachedEnded
  infer_instance

/-- Steps away from the defects. A fabric becomes the host's only where there is none; a closed host
is not started and no start of it fails; a start that fails takes back its own fabric only, with
nothing served on it; what is evicted has ended; a session is cached where no other open one is, a
serve handle registered where the peer has none, while its fabric is the host's. -/
def Respects (s : FabricHost π ι) : FabricHostLabel π ι → Prop
  | .openEnds _ e => e = .opened → s.status ≠ .closed → s.Vacant s.openers
  | .createEnds _ ok => ok = true → s.status ≠ .closed → s.Vacant s.openers
  | .startEnds i ok =>
    ∀ o ∈ s.openers[i]?, o.place = .joinStarting → ok = true → s.status ≠ .closed
  | .membersEnd _ _ => s.status ≠ .closed
  | .shutEnds i =>
    ∀ o ∈ s.openers[i]?, o.place = .failing →
      (s.fabric = none ∨ s.fabric = some i) ∧ ∀ b ∈ s.serves.binds, b.place ≠ .served
  | .startSettles i => ∀ o ∈ s.openers[i]?, o.place = .throwing → s.status ≠ .closed
  | .tornDown i => s.Vacant (s.openers.eraseIdx i)
  | .stateEnds k snapshot =>
    goodSnapshot snapshot = false → ∀ r ∈ s.resolvers[k]?, s.CachedEnded r.peer
  | .stateEvent e => ∀ hit ∈ s.sessions.entries[e]?, s.CachedEnded hit.peer
  | .openSessionEnds k session =>
    s.status ≠ .closed → ∀ r ∈ s.resolvers[k]?, ∀ j ∈ session,
      ∀ j' ∈ s.sessions.cached r.peer, j' = j ∨ (s.sessions.kernel j').closed ≠ none
  | .bindEnds h ok =>
    ok = true → s.status ≠ .closed → ∀ b ∈ s.serves.binds[h]?,
      s.serves.servers b.peer = none ∧ s.fabric = some b.fabric
  | _ => True

instance (s : FabricHost π ι) (l : FabricHostLabel π ι) : Decidable (s.Respects l) := by
  unfold Respects
  split <;> infer_instance

end FabricHost

/-- `belongs` is the peer of each session of the kernel. -/
def fabricHostMachine {π ι : Type*} [DecidableEq π] [DecidableEq ι] (belongs : ι → π) :
    Machine (FabricHost π ι) (FabricHostLabel π ι) where
  init s := s = .initial
  step := FabricHost.step belongs

end Dweb
