import OpenDweb.Lib.Text
import OpenDweb.Continuity.Session

/-!
# OpenDweb — handling one incoming frame

`handle_frame_with_owner`, branch by branch. A DATA frame is handled in two critical sections:
the window takes the segment under the `streams` lock, the segments that became due enter the
delivery queue under the `delivered` lock. `beginFrame` is everything up to the gap between
them and `enqueueDelivered` what follows; `handleFrame` is the two in a row.

* **`parseIdemKey`** — the idempotency key as the provider reads it out of an OPEN payload.
* **`beginFrame`** — gates, then the branch of the frame's type.
-/

namespace Dweb

open Std (ExtTreeMap)

/-! ## The idempotency key of an OPEN payload -/

/-- What follows the first occurrence of `key`. -/
def afterFirst (key : List Char) : List Char → Option (List Char)
  | [] => if key.isEmpty then some [] else none
  | c :: cs => if key.isPrefixOf (c :: cs) then some ((c :: cs).drop key.length) else afterFirst key cs

/-- What precedes the first occurrence of `c`, if there is one. -/
def upTo (c : Char) : List Char → Option (List Char)
  | [] => none
  | d :: ds => if d = c then some [] else (upTo c ds).map (d :: ·)

/-- `str::len`: the bytes of the text in UTF-8. -/
def utf8Len (cs : List Char) : Nat := (cs.map Char.utf8Size).sum

/-- The text after `"idempotencyKey":`, up to its closing quote, or a key made up from the
payload's length. -/
def parseIdemKey (payload : Bytes) : String :=
  let s := fromUtf8Lossy payload
  let found : Option (List Char) :=
    (afterFirst "\"idempotencyKey\"".toList s).bind fun rest =>
      match trimStart rest with
      | ':' :: rest =>
        match trimStart rest with
        | '"' :: stripped => upTo '"' stripped
        | _ => none
      | _ => none
  match found with
  | some key => String.ofList key
  | none => "auto-" ++ toString (utf8Len s)

-- blanks around the colon are skipped
example : parseIdemKey "\x7b\"idempotencyKey\" : \"k\"\x7d".toUTF8.data.toList = "k" := by
  decide +kernel

/-! ## Outcomes -/

/-- The control frame to send back, and the stream an OPEN newly started. -/
structure FrameOutcome where
  reply : Option Frame
  newOpen : Option Nat

def FrameOutcome.drop : FrameOutcome := { reply := none, newOpen := none }

def FrameOutcome.ofReply (f : Frame) : FrameOutcome := { reply := some f, newOpen := none }

/-- Segments that have left the window and wait for the delivery queue. -/
structure Delivery where
  streamId : Nat
  segments : List Bytes
  ack : Frame

inductive FrameStep where
  | done (outcome : FrameOutcome)
  | delivering (d : Delivery)

namespace SessionShared

/-! ## The branches -/

def handleData (s : SessionShared) (f : Frame) : SessionShared × FrameStep :=
  let sid := s.resolveStream f.streamId
  let reset := FrameStep.done (.ofReply (s.resetFrame sid))
  let sessionGapBytes := mapSum s.streams fun ctx => ctx.recv.gapBytes
  match s.streams[sid]? with
  | none => (s.countViolation, .done .drop)
  | some ctx =>
    match u64CheckedAdd f.byteOffset f.payload.length with
    | none => (s.countViolation, reset)
    | some frameEnd =>
      if ctx.remoteFinal.any fun final => final < frameEnd then
        (s.countViolation, .done .drop)
      else if gapSessionByteCap
          < sessionGapBytes + ctx.recv.incomingGapBytes f.byteOffset f.payload then
        (({ s with streams := s.streams.insert sid (ctx.terminate .protocolError) }).countViolation,
          reset)
      else
        let r := ctx.recv.feedWithLimits f.byteOffset f.payload gapCap gapByteCap
        let ctx := { ctx with recv := r.1 }
        let ack := s.ackFrame sid f.direction ctx.committedOffset
        match r.2 with
        | .ok (.deliver segments) =>
          ({ s with streams := s.streams.insert sid ctx.noteAck },
            .delivering { streamId := sid, segments := segments, ack := ack })
        | .ok .duplicate =>
          ({ s with streams := s.streams.insert sid ctx.noteAck }, .done (.ofReply ack))
        | .ok .buffered =>
          ({ s with streams := s.streams.insert sid ctx }, .done (.ofReply ack))
        | .ok (.overlapMismatch _ _) | .error _ =>
          ({ s with streams := s.streams.insert sid (ctx.terminate .protocolError) }, reset)

/-- Whether a delivery still fits the queues of its stream and of the session. -/
def queueHasRoom (s : SessionShared) (d : Delivery) : Prop :=
  let queuedLen := (d.segments.map List.length).sum
  (s.delivered[d.streamId]?.map DeliverQueue.bytes).getD 0 + queuedLen ≤ deliverQueueStreamCap
    ∧ mapSum s.delivered DeliverQueue.bytes + queuedLen ≤ deliverQueueSessionCap

instance (s : SessionShared) (d : Delivery) : Decidable (s.queueHasRoom d) := by
  unfold queueHasRoom
  infer_instance

/-- DATA, from the delivery queue on. Segments without room are lost: they have crossed the
window already, so the stream ends in error. -/
def enqueueDelivered (s : SessionShared) (owner : Nat) (d : Delivery) :
    SessionShared × FrameOutcome :=
  if s.queueHasRoom d then
    let q := s.delivered[d.streamId]?.getD .empty
    ({ s with
        delivered := s.delivered.insert d.streamId
          { frames := q.frames ++ d.segments
            bytes := q.bytes + (d.segments.map List.length).sum }
        resumeControl := s.resumeControl.noteConfirmed owner }, .ofReply d.ack)
  else
    ((s.modifyStream d.streamId fun ctx => ctx.terminate .protocolError).countViolation,
      .ofReply (s.resetFrame d.streamId))

def handleAck (s : SessionShared) (owner : Nat) (f : Frame) : SessionShared × FrameOutcome :=
  let sid := s.resolveStream f.streamId
  match s.streams[sid]? with
  | none => (s.countViolation, .drop)
  | some ctx =>
    if ctx.journal.nextOffset < f.byteOffset then
      ({ s with ackViolationCount := s.ackViolationCount + 1 }, .drop)
    else
      ({ s with
          streams := s.streams.insert sid
            { ctx with journal := ctx.journal.advanceAck f.byteOffset }
          resumeControl := s.resumeControl.noteConfirmed owner }, .drop)

def handleFin (s : SessionShared) (f : Frame) : SessionShared × FrameOutcome :=
  let sid := s.resolveStream f.streamId
  match s.streams[sid]? with
  | none => (s.countViolation, .drop)
  | some ctx =>
    match u64CheckedAdd f.byteOffset f.payload.length with
    | none => (s.countViolation, .ofReply (s.resetFrame sid))
    | some incomingFinal =>
      match ctx.remoteFinal with
      | some existing =>
        (if existing ≠ incomingFinal then s.countViolation else s, .drop)
      | none =>
        ({ s with
            streams := s.streams.insert sid
              ({ ctx with remoteFinal := some incomingFinal }.setTerm .fin) }, .drop)

def handleOpen (s : SessionShared) (f : Frame) : SessionShared × FrameOutcome :=
  let idem := parseIdemKey f.payload
  let (s, canonical, isNew) := s.onOpen f.streamId idem
  if isNew then
    match s.reserveStreamSlot canonical with
    | .error _ => ((s.rollbackOpen canonical idem).countViolation, .drop)
    | .ok s =>
      let s := { s with openMetas := s.openMetas.insert canonical f.payload }
      if canonical ∈ s.resetTombstones then
        -- cancelled before it arrived: no request is started for it
        let s := { s with resetTombstones := s.resetTombstones.erase canonical }
        let s := s.modifyStream canonical fun ctx =>
          { ctx with remoteFinal := some ctx.recv.expectedOffset, peerReset := true }.setTerm
            .peerReset
        (s.markCompleted canonical, .drop)
      else (s, { reply := none, newOpen := some canonical })
  else if canonical ≠ f.streamId then
    ({ s with aliases := s.aliases.insert f.streamId canonical }, .drop)
  else (s, .drop)

def handleReset (s : SessionShared) (f : Frame) : SessionShared × FrameOutcome :=
  let sid := s.resolveStream f.streamId
  match s.streams[sid]? with
  | some ctx =>
    ({ s with
        streams := s.streams.insert sid
          ({ ctx with peerReset := true }.terminate .peerReset) }, .drop)
  | none =>
    if sid ∈ s.resetTombstones then (s, .drop)
    else if resetTombstoneCap ≤ s.resetTombstones.size then
      ({ s with
          peerStateExhausted := true
          resumeControl := { s.resumeControl with phase := .dead } }.countViolation, .drop)
    else ({ s with resetTombstones := s.resetTombstones.insert sid () }, .drop)

/-! ## The frame -/

/-- Data frames come in the peer's sending direction; an ACK names ours. -/
def directionOk (s : SessionShared) (f : Frame) : Bool :=
  match f.frameType with
  | .data | .open_ | .fin | .reset => f.direction = s.recvDirection
  | .ack => f.direction = s.sendDirection
  | _ => true

def parityOk (s : SessionShared) (f : Frame) : Bool :=
  f.frameType ≠ .open_ || (f.streamId % 2 = 1) = ¬s.isClient

/-- A frame up to the gap between window and delivery queue. -/
def beginFrame (s : SessionShared) (owner : Nat) (f : Frame) : SessionShared × FrameStep :=
  if f.sessionId ≠ s.sessionId then
    ({ s with staleFrameCount := s.staleFrameCount + 1 }, .done .drop)
  else if s.peerStateExhausted then (s, .done .drop)
  else if ¬s.directionOk f then (s.countViolation, .done .drop)
  else if ¬s.parityOk f then (s.countViolation, .done .drop)
  else
    match f.frameType with
    | .data => s.handleData f
    | .ack => let r := s.handleAck owner f; (r.1, .done r.2)
    | .fin => let r := s.handleFin f; (r.1, .done r.2)
    | .open_ => let r := s.handleOpen f; (r.1, .done r.2)
    | .reset => let r := s.handleReset f; (r.1, .done r.2)
    | _ => (s, .done .drop)

/-- `handle_frame_with_owner`, with nothing in between. -/
def handleFrame (s : SessionShared) (owner : Nat) (f : Frame) : SessionShared × FrameOutcome :=
  match s.beginFrame owner f with
  | (s, .done outcome) => (s, outcome)
  | (s, .delivering d) => s.enqueueDelivered owner d

end SessionShared

end Dweb
