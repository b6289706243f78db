import OpenDweb.Lib.Machine
import OpenDweb.Lib.Chunks
import OpenDweb.Continuity.HandleFrame

/-!
# OpenDweb — two endpoints exchanging streams over channels that die

Client and provider of one session, each an `Endpoint`: its session core, and the places its
tasks stand at between two critical sections. Every label is one critical section, or one
that the `terminal_arb` lock makes one (`send_data` and `finish` decide and write under it).

* **`Act`**, **`Endpoint.act`** — what an endpoint does by itself: its application sends,
  reads and finishes, its resume driver trims and replays.
* **`Endpoint.handle`** — a frame of the peer arrives.
* **`exchangeMachine`** — the two endpoints and their channels. A channel delivers each
  direction in order and loses everything in flight when it dies. A RESUME round is an
  `attempt`, a `trim`, an `install` and a `startReplay` at either end, in any order and any
  number: what the resume control would refuse is only more runs here.

A write that fails reaches nobody. The bytes accepted by the journal and the bytes returned by
`recv` are kept as histories, and so is how each `recv` ended and which frames were answered
with a RESET.
-/

namespace Dweb

open Std (ExtTreeMap)
open Function (update)

/-! ## Endpoints -/

inductive Side where
  | client | provider
  deriving DecidableEq

def Side.peer : Side → Side
  | .client => .provider
  | .provider => .client

/-- Where a background replay stands: segments first, then FINs, then RESETs. -/
inductive ReplayTask where
  | data (rest : List (Nat × Nat × Bytes))
  | fins (rest : List (Nat × Nat))
  | resets (rest : List Nat)

/-- What `recv` saw when it found its stream ended. -/
structure EndCheck where
  streamId : Nat
  term : Option StreamTerm
  /-- No segment of the stream stood between receive window and delivery queue. -/
  settled : Bool
  deriving DecidableEq

structure Endpoint where
  shared : SessionShared
  channel : Nat
  /-- The pump stands between window and delivery queue, for the channel that owns it. -/
  delivering : Option (Nat × Delivery)
  /-- Segments booked by `prepare_send`, with the offset it returned. -/
  prepared : List (Nat × Nat × Bytes)
  /-- Bytes `recv` has popped and not committed yet. -/
  uncommitted : Nat → Nat
  outbox : List Frame
  /-- Running replay tasks and the channel each writes to. -/
  replays : List (Nat × ReplayTask)
  /-- Calls of `recv` that found their stream ended and have yet to look at the queue. -/
  endChecks : List EndCheck
  sent : Nat → List Bytes
  /-- History: the bytes `recv` returned. -/
  received : Nat → Bytes
  /-- History: how `recv` ended. -/
  ended : List EndCheck
  /-- History: the streams of frames answered with a RESET. -/
  resetReplies : List Nat

/-- What an endpoint does by itself. `written` says whether the write succeeds. -/
inductive Act where
  /-- The stream's slot is reserved: `send_open`, or the peer's OPEN. -/
  | openStream (streamId : Nat)
  | sendData (streamId : Nat) (payload : Bytes) (written : Bool)
  | prepareSend (streamId : Nat) (payload : Bytes)
  /-- `send_data_at` for the `k`-th prepared segment. -/
  | sendDataAt (k : Nat)
  | finish (streamId : Nat) (written : Bool)
  | recvPop (streamId : Nat)
  | recvCommit (streamId len : Nat)
  /-- `recv` finds its stream ended. -/
  | recvCheck (streamId : Nat)
  /-- The `k`-th of these finds the queue empty and ends. -/
  | recvEnd (k : Nat)
  /-- The pump puts what the window delivered into the queue. -/
  | enqueue
  | writeControl (k : Nat)
  | dropControl (k : Nat)
  | install
  /-- The acting channel's replay begins with a snapshot of the journals. -/
  | startReplay (order : List Nat)
  /-- The `k`-th replay task takes its next step. -/
  | replayNext (k : Nat) (order : List Nat)
  | replayFails (k : Nat)

namespace Endpoint

def new (shared : SessionShared) : Endpoint where
  shared := shared
  channel := 0
  delivering := none
  prepared := []
  uncommitted _ := 0
  outbox := []
  replays := []
  endChecks := []
  sent _ := []
  received _ := []
  ended := []
  resetReplies := []

def setReplay (e : Endpoint) (k : Nat) (channel : Nat) (task : ReplayTask) : Endpoint :=
  { e with replays := e.replays.set k (channel, task) }

/-- `record_send`, with the chunk added to the history. -/
def recordSend (e : Endpoint) (streamId : Nat) (payload : Bytes) : Option (Nat × Endpoint) :=
  match e.shared.recordSend streamId payload with
  | .error _ => none
  | .ok (offset, shared) =>
    some (offset,
      { e with
        shared := shared
        sent := update e.sent streamId (e.sent streamId ++ [payload]) })

/-- Take over the outcome of a frame: the reply is to be written. -/
def outcome (e : Endpoint) (shared : SessionShared) (o : FrameOutcome) : Endpoint :=
  { e with
    shared := shared
    outbox := e.outbox ++ o.reply.toList
    resetReplies := e.resetReplies
      ++ (o.reply.toList.filter fun f => f.frameType = .reset).map Frame.streamId }

def took (e : Endpoint) (owner : Nat) : SessionShared × FrameStep → Endpoint
  | (shared, .done o) => e.outcome shared o
  | (shared, .delivering d) => { e with shared := shared, delivering := some (owner, d) }

/-- A frame of the peer, received on channel `owner`. -/
def handle (e : Endpoint) (owner : Nat) (f : Frame) : Endpoint :=
  e.took owner (e.shared.beginFrame owner f)

/-- The next step of a replay task: the task left and the frame to write, if it is not
withdrawn. -/
def replayStep (s : SessionShared) (order : List Nat) :
    ReplayTask → Option (ReplayTask × Option Frame)
  | .data ((sid, offset, payload) :: rest) => some (.data rest, s.replayData sid offset payload)
  | .data [] => some (.fins (s.finResentStreams order), none)
  | .fins ((sid, final) :: rest) => some (.fins rest, s.replayFin sid final)
  | .fins [] => some (.resets s.abortedStreams, none)
  | .resets (sid :: rest) => some (.resets rest, some (s.resetFrame sid))
  | .resets [] => none

/-- An act on channel `i`, with the frame it wrote there. A call that is refused is no act. -/
def act (e : Endpoint) (i : Nat) : Act → Option (Endpoint × Option Frame)
  | .openStream sid =>
    match e.shared.reserveStreamSlot sid with
    | .error _ => none
    | .ok shared => some ({ e with shared := shared }, none)
  | .sendData sid payload written =>
    match e.shared.ensureSendStream sid with
    | .error _ => none
    | .ok () =>
      (e.recordSend sid payload).map fun (offset, e) =>
        if written then (e, some (e.shared.dataFrame 0 sid offset payload))
        else ({ e with shared := e.shared.markLocalAbort sid }, none)
  | .prepareSend sid payload =>
    (e.recordSend sid payload).map fun (offset, e) =>
      ({ e with prepared := e.prepared ++ [(sid, offset, payload)] }, none)
  | .sendDataAt k =>
    e.prepared[k]?.bind fun (sid, offset, payload) =>
      match e.shared.ensureSendStream sid with
      | .error _ => none
      | .ok () => some (e, some (e.shared.dataFrame 0 sid offset payload))
  | .finish sid written =>
    match e.shared.finish sid with
    | .error _ => none
    | .ok (f, shared) =>
      if written then some ({ e with shared := shared }, some f)
      else some ({ e with shared := shared.retractFinal sid }, none)
  | .recvPop sid =>
    (e.shared.recvPop sid).map fun (b, shared) =>
      ({ e with
        shared := shared
        uncommitted := update e.uncommitted sid (e.uncommitted sid + b.length)
        received := update e.received sid (e.received sid ++ b) }, none)
  | .recvCommit sid len =>
    if e.uncommitted sid < len then none
    else
      let r := e.shared.recvCommit sid len
      some ({ e with
        shared := r.1
        uncommitted := update e.uncommitted sid (e.uncommitted sid - len)
        outbox := e.outbox ++ r.2.toList }, none)
  | .recvCheck sid =>
    let r := e.shared.recvEnded sid
    if r.1 then
      some ({ e with
        endChecks := e.endChecks ++
          [{ streamId := sid, term := r.2
             settled := e.delivering.all fun d => d.2.streamId ≠ sid }] }, none)
    else none
  | .recvEnd k =>
    e.endChecks[k]?.bind fun c =>
      if e.shared.queueEmpty c.streamId then some ({ e with ended := e.ended ++ [c] }, none)
      else none
  | .enqueue =>
    e.delivering.map fun (owner, d) =>
      let r := e.shared.enqueueDelivered owner d
      ({ e with delivering := none }.outcome r.1 r.2, none)
  | .writeControl k =>
    e.outbox[k]?.map fun f => ({ e with outbox := e.outbox.eraseIdx k }, some f)
  | .dropControl k => some ({ e with outbox := e.outbox.eraseIdx k }, none)
  | .install => some ({ e with channel := i }, none)
  | .startReplay order =>
    some ({ e with
      replays := e.replays ++ [(i, .data (interleaveReplay (e.shared.replayBatches order)))] },
      none)
  | .replayNext k order =>
    e.replays[k]?.bind fun (j, task) =>
      if j ≠ i then none
      else (replayStep e.shared order task).map fun (task, f) => (e.setReplay k j task, f)
  | .replayFails k => some ({ e with replays := e.replays.eraseIdx k }, none)

def trim (e : Endpoint) (summaries : List SessionShared.StreamSummary) : Endpoint :=
  { e with shared := e.shared.advanceJournalFromSummary summaries }

end Endpoint

/-! ## The system -/

structure Link where
  alive : Bool
  inFlight : Side → List Frame
  /-- The stream summaries of the RESUME_INIT the channel began with. -/
  summaries : List SessionShared.StreamSummary

def Link.push (c : Link) (x : Side) (f : Frame) : Link :=
  { c with inFlight := update c.inFlight x (c.inFlight x ++ [f]) }

def Link.pop (c : Link) (x : Side) : Link :=
  { c with inFlight := update c.inFlight x (c.inFlight x).tail }

structure Exchange where
  ends : Side → Endpoint
  channels : List Link

inductive ExchangeLabel where
  /-- Side `x` acts, on channel `i` where it writes. -/
  | act (x : Side) (i : Nat) (a : Act)
  /-- The first frame side `x` has in flight on channel `i` reaches the peer, whose current
  channel that is. -/
  | deliver (x : Side) (i : Nat)
  | drop (x : Side) (i : Nat)
  | attempt
  /-- The provider reads the RESUME_INIT of channel `i`. -/
  | trim (i : Nat)
  | die (i : Nat)

namespace Exchange

def setEnd (s : Exchange) (x : Side) (e : Endpoint) : Exchange :=
  { s with ends := update s.ends x e }

def setChannel (s : Exchange) (i : Nat) (c : Link) : Exchange :=
  { s with channels := s.channels.set i c }

/-- A successful write of side `x` on channel `i`. -/
def put (s : Exchange) (x : Side) (i : Nat) : Option Frame → Option Exchange
  | none => some s
  | some f => s.channels[i]?.bind fun c =>
    if c.alive then some (s.setChannel i (c.push x f)) else none

def step (s : Exchange) : ExchangeLabel → Option Exchange
  | .act x i a => ((s.ends x).act i a).bind fun (e, f) => (s.setEnd x e).put x i f
  | .deliver x i =>
    s.channels[i]?.bind fun c =>
      (c.inFlight x).head?.bind fun f =>
        let e := s.ends x.peer
        if e.channel ≠ i ∨ e.delivering.isSome then none
        else some ((s.setChannel i (c.pop x)).setEnd x.peer (e.handle i f))
  | .drop x i =>
    s.channels[i]?.bind fun c =>
      if (s.ends x.peer).channel = i then none else some (s.setChannel i (c.pop x))
  | .attempt =>
    some { s with
      channels := s.channels ++
        [{ alive := true, inFlight := fun _ => [], summaries := (s.ends .client).shared.summaries }] }
  | .trim i =>
    s.channels[i]?.map fun c =>
      s.setEnd .provider ((s.ends .provider).trim c.summaries)
  | .die i =>
    s.channels[i]?.map fun c =>
      s.setChannel i { c with alive := false, inFlight := fun _ => [] }

end Exchange

/-- A session just initialised: no stream, one channel. -/
def Exchange.fresh (sessionId : BytesN 16) (token : Token) (limits : JournalLimits) : Exchange where
  ends
    | .client => .new (.new sessionId token true limits)
    | .provider => .new (.new sessionId token false limits)
  channels := [{ alive := true, inFlight := fun _ => [], summaries := [] }]

def exchangeMachine (limits : JournalLimits) : Machine Exchange ExchangeLabel where
  init s := ∃ sessionId token, s = Exchange.fresh sessionId token limits
  step := Exchange.step

end Dweb
