import OpenDweb.Lib.Utf8Lossy
import OpenDweb.Continuity.RecvWindow
import OpenDweb.Continuity.StreamJournal
import OpenDweb.Continuity.ResumeCtl

/-!
# OpenDweb — the session core: state, sending and reading

`SessionShared` is what one endpoint keeps of a session across its channels: the streams
with their receive windows and send journals, the delivery queues, the bookkeeping of opened
requests and the resume control. Operations are state-passing functions; an operation that
ends in a channel write returns the frame it writes, and what follows a failed write is an
operation of its own (`markLocalAbort`, `retractFinal`).

Texts of errors are the source's; all of them are `SessionError::Connect`, so an error is
its text. Where the source walks a hash map, the order of the walk is an argument.
-/

namespace Dweb

open Std (ExtTreeMap)

/-! ## Frames -/

inductive FrameType where
  | sessionInit | resumeInit | resumeOk | resumeReject | ping | pong | sessionFin
  | sessionReset | sessionInitOk | sessionInitReject | open_ | openOk | openReject | data
  | ack | fin | reset
  deriving DecidableEq

inductive Direction where
  | clientToProvider | providerToClient
  deriving DecidableEq

namespace FrameFlags

def start : Nat := 0x0001
def end_ : Nat := 0x0002
def reset : Nat := 0x0004
def replay : Nat := 0x0010

end FrameFlags

structure Frame where
  frameType : FrameType
  flags : Nat
  sessionId : BytesN 16
  streamId : Nat
  direction : Direction
  byteOffset : Nat
  payload : Bytes

/-! ## Streams -/

inductive StreamTerm where
  | fin | peerReset | protocolError | localAbort
  deriving DecidableEq

def StreamTerm.isError : StreamTerm → Bool
  | .fin => false
  | .peerReset | .protocolError | .localAbort => true

/-- `term` is one of the error terms. -/
def isErrorTerm (term : Option StreamTerm) : Bool := term.any StreamTerm.isError

structure StreamCtx where
  recv : RecvWindow
  journal : StreamJournal
  finalSent : Option Nat
  remoteFinal : Option Nat
  committedOffset : Nat
  lastAckedOffset : Nat
  peerReset : Bool
  term : Option StreamTerm

namespace StreamCtx

def new (streamId : Nat) (limits : JournalLimits) : StreamCtx where
  recv := RecvWindow.new
  journal := StreamJournal.new streamId limits
  finalSent := none
  remoteFinal := none
  committedOffset := 0
  lastAckedOffset := 0
  peerReset := false
  term := none

/-- Sticky: an error term stays, `fin` may become an error term. -/
def setTerm (ctx : StreamCtx) (t : StreamTerm) : StreamCtx :=
  if isErrorTerm ctx.term then ctx else { ctx with term := some t }

def quotaReapable (ctx : StreamCtx) : Bool :=
  isErrorTerm ctx.term
    || (ctx.remoteFinal.isSome && ctx.finalSent.isSome && ctx.journal.heldBytes == 0)

/-- Acknowledge everything sent: the journal is emptied, the offsets stay. -/
def clearJournal (ctx : StreamCtx) : StreamCtx :=
  { ctx with journal := ctx.journal.advanceAck ctx.journal.nextOffset }

def terminate (ctx : StreamCtx) (t : StreamTerm) : StreamCtx :=
  ({ ctx with remoteFinal := some ctx.recv.expectedOffset }.setTerm t).clearJournal

/-- An ACK carrying `committedOffset` is about to go out. -/
def noteAck (ctx : StreamCtx) : StreamCtx :=
  if ctx.lastAckedOffset < ctx.committedOffset then
    { ctx with lastAckedOffset := ctx.committedOffset }
  else ctx

end StreamCtx

/-- Bytes handed to the application in order, and how many wait. -/
structure DeliverQueue where
  frames : List Bytes
  bytes : Nat
  deriving DecidableEq

def DeliverQueue.empty : DeliverQueue := { frames := [], bytes := 0 }

inductive RequestState where
  | accepted | started | completed
  deriving DecidableEq

/-! ## The session core -/

def gapCap : Nat := 64
def gapByteCap : Nat := 2 * 1024 * 1024
def gapSessionByteCap : Nat := 8 * 1024 * 1024
def replayPerRound : Nat := 4
def deliverQueueStreamCap : Nat := 2 * 1024 * 1024
def deliverQueueSessionCap : Nat := 8 * 1024 * 1024
def maxActiveStreams : Nat := 128
def abortedRegistryCap : Nat := 4096
def resetTombstoneCap : Nat := 1024

structure SessionShared where
  sessionId : BytesN 16
  isClient : Bool
  limits : JournalLimits
  resumeControl : ResumeCtl
  streams : ExtTreeMap Nat StreamCtx
  /-- Locally aborted streams, whose RESET is repeated on every resume. -/
  abortedRegistry : ExtTreeMap Nat Unit
  resetTombstones : ExtTreeMap Nat Unit
  peerStateExhausted : Bool
  requests : ExtTreeMap Nat (RequestState × String)
  idemIndex : ExtTreeMap String Nat
  aliases : ExtTreeMap Nat Nat
  streamKeys : ExtTreeMap Nat String
  openMetas : ExtTreeMap Nat Bytes
  delivered : ExtTreeMap Nat DeliverQueue
  closing : Bool
  staleFrameCount : Nat
  ackViolationCount : Nat
  protocolViolationCount : Nat

namespace SessionShared

def new (sessionId : BytesN 16) (token : Token) (isClient : Bool) (limits : JournalLimits) :
    SessionShared where
  sessionId := sessionId
  isClient := isClient
  limits := limits
  resumeControl := ResumeCtl.new token
  streams := ∅
  abortedRegistry := ∅
  resetTombstones := ∅
  peerStateExhausted := false
  requests := ∅
  idemIndex := ∅
  aliases := ∅
  streamKeys := ∅
  openMetas := ∅
  delivered := ∅
  closing := false
  staleFrameCount := 0
  ackViolationCount := 0
  protocolViolationCount := 0

def sendDirection (s : SessionShared) : Direction :=
  if s.isClient then .clientToProvider else .providerToClient

def recvDirection (s : SessionShared) : Direction :=
  if s.isClient then .providerToClient else .clientToProvider

def resolveStream (s : SessionShared) (raw : Nat) : Nat := s.aliases[raw]?.getD raw

def countViolation (s : SessionShared) : SessionShared :=
  { s with protocolViolationCount := s.protocolViolationCount + 1 }

def modifyStream (s : SessionShared) (streamId : Nat) (g : StreamCtx → StreamCtx) :
    SessionShared :=
  { s with streams := s.streams.modify streamId g }

/-! ### Opening -/

/-- Book an OPEN under its idempotency key: the stream it belongs to, and whether it is
new. -/
def onOpen (s : SessionShared) (streamId : Nat) (idemKey : String) :
    SessionShared × Nat × Bool :=
  match s.idemIndex[idemKey]? with
  | some existing => (s, existing, false)
  | none =>
    ({ s with
        idemIndex := s.idemIndex.insert idemKey streamId
        streamKeys := s.streamKeys.insert streamId idemKey
        requests := s.requests.insertIfNew streamId (.accepted, idemKey) }, streamId, true)

/-- Take back what `onOpen` booked. -/
def rollbackOpen (s : SessionShared) (streamId : Nat) (idemKey : String) : SessionShared :=
  { s with
    idemIndex := s.idemIndex.erase idemKey
    requests := s.requests.erase streamId
    streamKeys := s.streamKeys.erase streamId }

def reserveStreamSlot (s : SessionShared) (streamId : Nat) : Except String SessionShared :=
  if s.closing then .error "session closing"
  else if streamId ∈ s.streams then .ok s
  else
    let active := mapSum s.streams fun ctx => if ctx.quotaReapable then 0 else 1
    let pending := s.abortedRegistry.size
    if maxActiveStreams ≤ active then
      .error s!"active stream cap exceeded: {active} >= {maxActiveStreams}"
    else if abortedRegistryCap ≤ active + pending then
      .error (s!"pending RESET budget exhausted: {active} active + {pending} pending >= "
        ++ s!"{abortedRegistryCap}")
    else
      .ok { s with streams := s.streams.insert streamId (StreamCtx.new streamId s.limits) }

/-- Started at most once: only an accepted request can be. -/
def tryMarkStarted (s : SessionShared) (streamId : Nat) : SessionShared × Bool :=
  match s.requests[streamId]? with
  | some (.accepted, key) =>
    ({ s with requests := s.requests.insert streamId (.started, key) }, true)
  | _ => (s, false)

def markCompleted (s : SessionShared) (streamId : Nat) : SessionShared :=
  { s with requests := s.requests.modify streamId fun r => (.completed, r.2) }

def openMeta (s : SessionShared) (streamId : Nat) : Option Bytes := s.openMetas[streamId]?

/-! ### Sending -/

def dataFrame (s : SessionShared) (flags streamId offset : Nat) (payload : Bytes) : Frame where
  frameType := .data
  flags := flags
  sessionId := s.sessionId
  streamId := streamId
  direction := s.sendDirection
  byteOffset := offset
  payload := payload

def finFrame (s : SessionShared) (flags streamId finalOffset : Nat) : Frame where
  frameType := .fin
  flags := flags
  sessionId := s.sessionId
  streamId := streamId
  direction := s.sendDirection
  byteOffset := finalOffset
  payload := []

def resetFrame (s : SessionShared) (streamId : Nat) : Frame where
  frameType := .reset
  flags := FrameFlags.reset
  sessionId := s.sessionId
  streamId := streamId
  direction := s.sendDirection
  byteOffset := 0
  payload := []

/-- An ACK names the direction of the data it acknowledges. -/
def ackFrame (s : SessionShared) (streamId : Nat) (dataDirection : Direction) (offset : Nat) :
    Frame where
  frameType := .ack
  flags := 0
  sessionId := s.sessionId
  streamId := streamId
  direction := dataDirection
  byteOffset := offset
  payload := []

def openFrame (s : SessionShared) (flags streamId : Nat) (payload : Bytes) : Frame where
  frameType := .open_
  flags := flags
  sessionId := s.sessionId
  streamId := streamId
  direction := s.sendDirection
  byteOffset := 0
  payload := payload

/-- DATA and FIN go only to an open stream that is neither finished nor ended in error. -/
def ensureSendStream (s : SessionShared) (streamId : Nat) : Except String Unit :=
  match s.streams[streamId]? with
  | none => .error s!"unknown stream id: {streamId}"
  | some ctx =>
    if isErrorTerm ctx.term then
      .error s!"stream terminated: {streamId} (no send after terminal error)"
    else if ctx.finalSent.isNone then .ok ()
    else .error s!"stream already finished: {streamId}"

/-- Book a segment in the stream's journal, within the session's budgets. -/
def recordSend (s : SessionShared) (streamId : Nat) (payload : Bytes) :
    Except String (Nat × SessionShared) :=
  match s.streams[streamId]? with
  | none => .error s!"unknown stream id: {streamId}"
  | some ctx =>
    if isErrorTerm ctx.term then
      .error s!"stream terminated: {streamId} (no journal after terminal error)"
    else if ctx.finalSent.isSome then .error s!"stream already finished: {streamId}"
    else
      let sessionHeld := mapSum s.streams fun c => c.journal.heldBytes
      if s.limits.maxSessionBytes < sessionHeld + payload.length then
        .error
          (JournalError.sessionBytesCap sessionHeld payload.length s.limits.maxSessionBytes).toString
      else
        let sessionSegments := mapSum s.streams fun c => c.journal.segmentsLen
        let cap := s.limits.maxSessionSegments
        if cap ≤ sessionSegments then
          .error s!"journal session segment cap exceeded: {sessionSegments} >= {cap}"
        else
          match ctx.journal.record payload false with
          | .error e => .error e.toString
          | .ok (offset, journal) =>
            .ok (offset,
              { s with streams := s.streams.insert streamId { ctx with journal := journal } })

/-- A local abort: the term sticks, the FIN is not repeated, the journal is emptied and the
RESET is owed, unless the stream had already ended in error. -/
def markLocalAbort (s : SessionShared) (streamId : Nat) : SessionShared :=
  match s.streams[streamId]? with
  | none => s
  | some ctx =>
    let ctx' := { ctx.setTerm .localAbort with finalSent := none }.clearJournal
    { s with
      streams := s.streams.insert streamId ctx'
      abortedRegistry :=
        if ctx.term = none ∨ ctx.term = some .fin then s.abortedRegistry.insert streamId ()
        else s.abortedRegistry }

/-- `finish`: the FIN to write, with its offset booked. -/
def finish (s : SessionShared) (streamId : Nat) : Except String (Frame × SessionShared) :=
  match s.ensureSendStream streamId with
  | .error e => .error e
  | .ok () =>
    match s.streams[streamId]? with
    | none => .error s!"unknown stream id: {streamId}"
    | some ctx =>
      if ctx.term = some .localAbort then
        .error s!"stream aborted locally: no FIN after abort ({streamId})"
      else
        let final := ctx.journal.nextOffset
        .ok (s.finFrame FrameFlags.end_ streamId final,
          { s with streams := s.streams.insert streamId { ctx with finalSent := some final } })

def retractFinal (s : SessionShared) (streamId : Nat) : SessionShared :=
  s.modifyStream streamId fun ctx => { ctx with finalSent := none }

/-- `send_open`: reserve the stream and its key, then the OPEN to write, if any; a stream
cancelled meanwhile writes nothing. -/
def sendOpen (s : SessionShared) (streamId : Nat) (idemKey : String) (payload : Bytes) :
    Except String (Option Frame × SessionShared) :=
  if s.closing then .error "session closing"
  else
    match s.reserveStreamSlot streamId with
    | .error e => .error e
    | .ok s =>
      let s := { s with streamKeys := s.streamKeys.insert streamId idemKey }
      if s.streams[streamId]?.any fun ctx => ctx.term = some .localAbort then .ok (none, s)
      else .ok (some (s.openFrame FrameFlags.start streamId payload), s)

def openFailed (s : SessionShared) (streamId : Nat) : SessionShared :=
  let s := s.markLocalAbort streamId
  { s with streamKeys := s.streamKeys.erase streamId }

/-! ### Reading -/

/-- The first critical section of `recv`: take the next delivered segment. -/
def recvPop (s : SessionShared) (streamId : Nat) : Option (Bytes × SessionShared) :=
  s.delivered[streamId]?.bind fun q =>
    match q.frames with
    | [] => none
    | b :: rest =>
      some (b, { s with
        delivered := s.delivered.insert streamId
          { frames := rest, bytes := q.bytes - b.length } })

/-- The second one: what was taken is committed, and acknowledged if that is news. -/
def recvCommit (s : SessionShared) (streamId len : Nat) : SessionShared × Option Frame :=
  match s.streams[streamId]? with
  | none => (s, none)
  | some ctx =>
    let ctx := { ctx with committedOffset := ctx.committedOffset + len }
    ({ s with streams := s.streams.insert streamId ctx.noteAck },
      if ctx.lastAckedOffset < ctx.committedOffset then
        some (s.ackFrame streamId s.recvDirection ctx.committedOffset)
      else none)

/-- Whether the stream is over for the reader, and why. -/
def recvEnded (s : SessionShared) (streamId : Nat) : Bool × Option StreamTerm :=
  match s.streams[streamId]? with
  | none => (false, none)
  | some ctx =>
    (decide (ctx.remoteFinal = some ctx.recv.expectedOffset)
      || decide (ctx.term = some .localAbort), ctx.term)

def queueEmpty (s : SessionShared) (streamId : Nat) : Bool :=
  s.delivered[streamId]?.all fun q => q.frames.isEmpty

/-- The text `recv` ends with. -/
def recvEndText : Option StreamTerm → String
  | some .fin | none => "stream ended"
  | some .peerReset => "stream reset by peer"
  | some .protocolError => "stream terminated: protocol error"
  | some .localAbort => "stream aborted locally"

/-! ### Resuming -/

structure StreamSummary where
  streamId : Nat
  recvAck : Nat
  sendNext : Nat
  finalSent : Option Nat
  deriving DecidableEq

def summaries (s : SessionShared) : List StreamSummary :=
  s.streams.toList.map fun p =>
    { streamId := p.1, recvAck := p.2.committedOffset, sendNext := p.2.journal.nextOffset,
      finalSent := p.2.finalSent }

/-- A summary acknowledges like an ACK: never beyond what was sent. -/
def applySummary (s : SessionShared) (summary : StreamSummary) : SessionShared :=
  match s.streams[summary.streamId]? with
  | none => s
  | some ctx =>
    if ctx.journal.nextOffset < summary.recvAck then
      { s with ackViolationCount := s.ackViolationCount + 1 }
    else
      { s with
        streams := s.streams.insert summary.streamId
          { ctx with journal := ctx.journal.advanceAck summary.recvAck } }

def advanceJournalFromSummary (s : SessionShared) (summaries : List StreamSummary) :
    SessionShared :=
  summaries.foldl applySummary s

/-- The segments to send again, stream by stream in the given order. -/
def replayBatches (s : SessionShared) (order : List Nat) : List (Nat × List (Nat × Bytes)) :=
  order.filterMap fun id =>
    s.streams[id]?.bind fun ctx =>
      if 0 < ctx.journal.heldBytes ∧ isErrorTerm ctx.term = false then
        some (id, ctx.journal.replay)
      else none

def finResentStreams (s : SessionShared) (order : List Nat) : List (Nat × Nat) :=
  order.filterMap fun id =>
    s.streams[id]?.bind fun ctx =>
      if ctx.term ≠ some .localAbort then ctx.finalSent.map fun final => (id, final) else none

def abortedStreams (s : SessionShared) : List Nat := s.abortedRegistry.keys

def openResendList (s : SessionShared) (order : List Nat) : List (Nat × String) :=
  order.filterMap fun id =>
    if id ∈ s.abortedRegistry then none else s.streamKeys[id]?.map fun key => (id, key)

/-- `replay_data_arbited`: the check made when a replayed segment is about to be written. -/
def replayData (s : SessionShared) (streamId offset : Nat) (payload : Bytes) : Option Frame :=
  s.streams[streamId]?.bind fun ctx =>
    if isErrorTerm ctx.term then none
    else some (s.dataFrame FrameFlags.replay streamId offset payload)

/-- `replay_fin_arbited`: written only while the snapshot still holds. -/
def replayFin (s : SessionShared) (streamId snapshot : Nat) : Option Frame :=
  s.streams[streamId]?.bind fun ctx =>
    if ctx.term ≠ some .localAbort ∧ ctx.finalSent = some snapshot then
      some (s.finFrame (FrameFlags.end_ + FrameFlags.replay) streamId snapshot)
    else none

/-- The payload a repeated OPEN carries, made up from the stream id and the key. -/
def replayOpenPayload (streamId : Nat) (idemKey : String) : Bytes :=
  ("\x7b\"requestId\":\"" ++ toString streamId ++ "\",\"idempotencyKey\":\"" ++ idemKey
    ++ "\"\x7d").toUTF8.data.toList

/-- `replay_open_arbited`. -/
def replayOpen (s : SessionShared) (streamId : Nat) (idemKey : String) : Option Frame :=
  s.streams[streamId]?.bind fun ctx =>
    if ctx.term ≠ some .localAbort then
      some (s.openFrame (FrameFlags.start + FrameFlags.replay) streamId
        (replayOpenPayload streamId idemKey))
    else none

end SessionShared

/-- One round of `interleave_replay`: at most `replayPerRound` segments of each stream. -/
def interleaveRound (batches : List (Nat × List (Nat × Bytes))) : List (Nat × Nat × Bytes) :=
  batches.flatMap fun b => (b.2.take replayPerRound).map fun seg => (b.1, seg.1, seg.2)

/-- The replay order: rounds until every stream's segments are out. The longest batch bounds
the number of rounds. -/
def interleaveLoop : Nat → List (Nat × List (Nat × Bytes)) → List (Nat × Nat × Bytes)
  | 0, _ => []
  | fuel + 1, batches =>
    match interleaveRound batches with
    | [] => []
    | round => round ++ interleaveLoop fuel (batches.map fun b => (b.1, b.2.drop replayPerRound))

def interleaveReplay (batches : List (Nat × List (Nat × Bytes))) : List (Nat × Nat × Bytes) :=
  interleaveLoop ((batches.map fun b => b.2.length).sum + 1) batches

/-! ## What each operation does -/

namespace SessionShared

variable {s s' : SessionShared} {sid : Nat}

theorem reserveStreamSlot_eq_ok (h : s.reserveStreamSlot sid = .ok s') :
    s.closing = false ∧ ((sid ∈ s.streams ∧ s' = s)
      ∨ (sid ∉ s.streams
        ∧ s' = { s with streams := s.streams.insert sid (StreamCtx.new sid s.limits) })) := by
  unfold reserveStreamSlot at h
  split at h
  · cases h
  · next hclosing =>
    refine ⟨Bool.not_eq_true _ ▸ hclosing, ?_⟩
    split at h
    · next hmem => exact Or.inl ⟨hmem, (Except.ok.inj h).symm⟩
    · next hmem =>
      simp only at h
      split at h
      · cases h
      · split at h
        · cases h
        · exact Or.inr ⟨hmem, (Except.ok.inj h).symm⟩

theorem ensureSendStream_eq_ok (h : s.ensureSendStream sid = .ok ()) :
    ∃ ctx, s.streams[sid]? = some ctx ∧ isErrorTerm ctx.term = false ∧ ctx.finalSent = none := by
  unfold ensureSendStream at h
  split at h
  · cases h
  · next ctx hctx =>
    split at h
    · cases h
    · next hterm =>
      split at h
      · next hfinal => exact ⟨ctx, hctx, Bool.not_eq_true _ ▸ hterm, Option.isNone_iff_eq_none.mp hfinal⟩
      · cases h

theorem recordSend_eq_ok {offset : Nat} {payload : Bytes}
    (h : s.recordSend sid payload = .ok (offset, s')) :
    ∃ ctx journal, s.streams[sid]? = some ctx ∧ isErrorTerm ctx.term = false
      ∧ ctx.finalSent = none
      ∧ (mapSum s.streams fun c => c.journal.heldBytes) + payload.length
          ≤ s.limits.maxSessionBytes
      ∧ (mapSum s.streams fun c => c.journal.segmentsLen) < s.limits.maxSessionSegments
      ∧ ctx.journal.record payload false = .ok (offset, journal)
      ∧ s' = { s with streams := s.streams.insert sid { ctx with journal := journal } } := by
  unfold recordSend at h
  split at h
  · cases h
  · next ctx hctx =>
    split at h
    · cases h
    · next hterm =>
      split at h
      · cases h
      · next hfinal =>
        simp only at h
        split at h
        · cases h
        · next hbytes =>
          split at h
          · cases h
          · next hsegs =>
            split at h
            · cases h
            · next offset' journal hrec =>
              obtain ⟨rfl, rfl⟩ := Prod.mk.inj (Except.ok.inj h)
              exact ⟨ctx, journal, hctx, Bool.not_eq_true _ ▸ hterm,
                Option.not_isSome_iff_eq_none.mp hfinal, Nat.not_lt.mp hbytes,
                Nat.not_le.mp hsegs, hrec, rfl⟩

theorem finish_eq_ok {f : Frame} (h : s.finish sid = .ok (f, s')) :
    ∃ ctx, s.streams[sid]? = some ctx ∧ isErrorTerm ctx.term = false ∧ ctx.finalSent = none
      ∧ f = s.finFrame FrameFlags.end_ sid ctx.journal.nextOffset
      ∧ s' = { s with
          streams := s.streams.insert sid
            { ctx with finalSent := some ctx.journal.nextOffset } } := by
  unfold finish at h
  split at h
  · cases h
  · next hensure =>
    obtain ⟨ctx, hctx, hterm, hfinal⟩ := ensureSendStream_eq_ok hensure
    rw [hctx] at h
    simp only at h
    split at h
    · cases h
    · obtain ⟨rfl, rfl⟩ := Prod.mk.inj (Except.ok.inj h)
      exact ⟨ctx, hctx, hterm, hfinal, rfl, rfl⟩

theorem sendOpen_eq_ok {key : String} {payload : Bytes} {written : Option Frame}
    (h : s.sendOpen sid key payload = .ok (written, s')) :
    ∃ t, s.reserveStreamSlot sid = .ok t
      ∧ s' = { t with streamKeys := t.streamKeys.insert sid key }
      ∧ (∀ f ∈ written, f = s'.openFrame FrameFlags.start sid payload) := by
  unfold sendOpen at h
  split at h
  · cases h
  · split at h
    · cases h
    · next t ht =>
      refine ⟨t, ht, ?_⟩
      simp only at h
      split at h
      · obtain ⟨rfl, rfl⟩ := Prod.mk.inj (Except.ok.inj h)
        exact ⟨rfl, fun f hf => (by cases hf)⟩
      · obtain ⟨rfl, rfl⟩ := Prod.mk.inj (Except.ok.inj h)
        exact ⟨rfl, fun f hf => (Option.some.inj hf).symm⟩

theorem recvPop_eq_some {b : Bytes} (h : s.recvPop sid = some (b, s')) :
    ∃ q rest, s.delivered[sid]? = some q ∧ q.frames = b :: rest
      ∧ s' = { s with
          delivered := s.delivered.insert sid
            { frames := rest, bytes := q.bytes - b.length } } := by
  obtain ⟨q, hq, h⟩ := Option.bind_eq_some_iff.mp h
  split at h
  · cases h
  · next b' rest hframes =>
    obtain ⟨rfl, rfl⟩ := Prod.mk.inj (Option.some.inj h)
    exact ⟨q, rest, hq, hframes, rfl⟩

end SessionShared

end Dweb
