import OpenDweb.Lib.Machine
import OpenDweb.Continuity.HandleFrame

/-!
# OpenDweb — the end of a stream: FIN against RESET

`terminal_arb` is the one lock under which a stream's FIN, its cancellation and everything a
resume sends again are decided and written. An operation that holds it still goes from one
critical section to the next, and frames arrive, segments are booked and frames are written
by others in between. A step of this machine is one critical section.

* **`ArbTask.proceed`** — the next critical section of the operation that holds the lock.
* **`Arbitration.NoFinAfterAbort`**, **`NothingAfterReset`**, **`NoAbortAfterFinish`** — what
  is promised of the order of events.
* **`Arbitration.Punctual`** — `send_data_at`, which checks and writes without the lock,
  writes in time.
-/

namespace Dweb

open Std (ExtTreeMap)

namespace SessionShared

/-! ## The critical sections -/

/-- Whether an abort has come too late: this side's FIN is out, and on a client the peer's
has come. -/
def abortIsFrozen (s : SessionShared) (ctx : StreamCtx) : Bool :=
  if ctx.term = some .localAbort then false
  else ctx.finalSent.isSome && (!s.isClient || ctx.remoteFinal.isSome)

/-- The second critical section of `finish`: the offset of the FIN, booked. -/
def bookFinal (s : SessionShared) (sid : Nat) : Except String (Nat × SessionShared) :=
  match s.streams[sid]? with
  | none => .error s!"unknown stream id: {sid}"
  | some ctx =>
    if ctx.term = some .localAbort then
      .error s!"stream aborted locally: no FIN after abort ({sid})"
    else
      let final := ctx.journal.nextOffset
      .ok (final, { s with streams := s.streams.insert sid { ctx with finalSent := some final } })

/-- The RESET of `send_reset` and `reset_open_streams`, unlike the reply to a bad frame, carries
no flag. -/
def abortResetFrame (s : SessionShared) (sid : Nat) : Frame := { s.resetFrame sid with flags := 0 }

def termOf (s : SessionShared) (sid : Nat) : Option StreamTerm :=
  s.streams[sid]?.bind StreamCtx.term

end SessionShared

/-! ## State -/

/-- What the sending operations do that others can see. -/
inductive WireEvent where
  /-- A frame was written, the stream's term being `term`. -/
  | wrote (f : Frame) (term : Option StreamTerm)
  /-- `LocalAbort` was recorded. -/
  | aborted (sid : Nat)
  /-- `finish` returned `Ok`. -/
  | finished (sid : Nat)

inductive PendingWrite where
  /-- `send_data_at` has passed its check. -/
  | data (sid offset : Nat) (payload : Bytes)
  /-- An abort has been recorded; `send_reset` follows. -/
  | reset (sid : Nat)
  deriving DecidableEq

/-- The operation that holds `terminal_arb`, at the critical section it comes to next. -/
inductive ArbTask where
  | sendData (sid : Nat) (payload : Bytes)
  | sendDataChecked (sid : Nat) (payload : Bytes)
  | sendDataRecorded (sid offset : Nat) (payload : Bytes)
  | sendDataFailed (sid : Nat)
  | finish (sid : Nat)
  | finishChecked (sid : Nat)
  | finishBooked (sid final : Nat)
  | finishFailed (sid : Nat)
  /-- `abort_stream`, or `settle_local_abort` before `send_reset`. -/
  | abort (sid : Nat)
  | abortDecided (sid : Nat)
  /-- `reset_open_streams`, with the streams it still comes to before its deadline. -/
  | close (sids : List Nat)
  | closeDecided (sid : Nat) (sids : List Nat)
  | closeReset (sid : Nat) (sids : List Nat)
  | replayFin (sid snapshot : Nat)
  | replayData (sid offset : Nat) (payload : Bytes)
  | replayOpen (sid : Nat) (idemKey : String)
  | replaying (f : Frame)

def ArbTask.isStart : ArbTask → Bool
  | .sendData .. | .finish .. | .abort .. | .close .. | .replayFin .. | .replayData ..
  | .replayOpen .. => true
  | _ => false

structure Arbitration where
  shared : SessionShared
  holder : Option ArbTask
  pending : List PendingWrite
  /-- Segments between the window and the delivery queue. -/
  deliveries : List Delivery
  log : List WireEvent

/-- How `send_frame` ends: a write that fails may have reached the wire. -/
inductive WriteOutcome where
  | written
  | failed (landed : Bool)
  deriving DecidableEq

def WriteOutcome.landed : WriteOutcome → Bool
  | .written => true
  | .failed landed => landed

/-! ## Steps -/

structure ArbResult where
  shared : SessionShared
  holder : Option ArbTask
  owed : List PendingWrite
  events : List WireEvent

namespace ArbResult

def release (s : SessionShared) (events : List WireEvent) : ArbResult :=
  { shared := s, holder := none, owed := [], events := events }

/-- The operation goes on to `t`. -/
def next (s : SessionShared) (t : ArbTask) (events : List WireEvent) : ArbResult :=
  { shared := s, holder := some t, owed := [], events := events }

end ArbResult

/-- The event of writing `f`. -/
def wroteEvents (s : SessionShared) (f : Frame) (w : WriteOutcome) : List WireEvent :=
  if w.landed then [.wrote f (s.termOf f.streamId)] else []

/-- The event of `mark_local_abort`, where the term did become `LocalAbort`. -/
def abortedEvents (s : SessionShared) (sid : Nat) : List WireEvent :=
  if s.termOf sid = some .localAbort then [.aborted sid] else []

namespace ArbTask

/-- The check of a replay: write `f`, or nothing. -/
def replayCheck (s : SessionShared) : Option Frame → ArbResult
  | none => .release s []
  | some f => .next s (.replaying f) []

/-- The next critical section of the operation that holds the lock; `w` is how its write
ends, where it writes. -/
def proceed (s : SessionShared) (w : WriteOutcome) : ArbTask → ArbResult
  | .sendData sid payload =>
    match s.ensureSendStream sid with
    | .error _ => .release s []
    | .ok () => .next s (.sendDataChecked sid payload) []
  | .sendDataChecked sid payload =>
    match s.recordSend sid payload with
    | .error _ => .release s []
    | .ok (offset, s) => .next s (.sendDataRecorded sid offset payload) []
  | .sendDataRecorded sid offset payload =>
    let events := wroteEvents s (s.dataFrame 0 sid offset payload) w
    if w = .written then .release s events else .next s (.sendDataFailed sid) events
  | .sendDataFailed sid =>
    let s := s.markLocalAbort sid
    .release s (abortedEvents s sid)
  | .finish sid =>
    match s.ensureSendStream sid with
    | .error _ => .release s []
    | .ok () => .next s (.finishChecked sid) []
  | .finishChecked sid =>
    match s.bookFinal sid with
    | .error _ => .release s []
    | .ok (final, s) => .next s (.finishBooked sid final) []
  | .finishBooked sid final =>
    let events := wroteEvents s (s.finFrame FrameFlags.end_ sid final) w
    if w = .written then .release s (.finished sid :: events)
    else .next s (.finishFailed sid) events
  | .finishFailed sid => .release (s.retractFinal sid) []
  | .abort sid =>
    if s.streams[sid]?.any s.abortIsFrozen then .release s []
    else .next s (.abortDecided sid) []
  | .abortDecided sid =>
    let s := s.markLocalAbort sid
    { ArbResult.release s (abortedEvents s sid) with owed := [.reset sid] }
  | .close [] => .release s []
  | .close (sid :: sids) =>
    if s.streams[sid]?.any s.abortIsFrozen then .next s (.close sids) []
    else .next s (.closeDecided sid sids) []
  | .closeDecided sid sids =>
    let s := s.markLocalAbort sid
    .next s (.closeReset sid sids) (abortedEvents s sid)
  | .closeReset sid sids => .next s (.close sids) (wroteEvents s (s.abortResetFrame sid) w)
  | .replayFin sid snapshot => replayCheck s (s.replayFin sid snapshot)
  | .replayData sid offset payload => replayCheck s (s.replayData sid offset payload)
  | .replayOpen sid idemKey => replayCheck s (s.replayOpen sid idemKey)
  | .replaying f => .release s (wroteEvents s f w)

end ArbTask

inductive ArbLabel where
  /-- An operation takes `terminal_arb`. -/
  | begin_ (t : ArbTask)
  | proceed (w : WriteOutcome)
  | prepareSend (sid : Nat) (payload : Bytes)
  /-- The check of `send_data_at`. -/
  | sendDataAt (sid offset : Nat) (payload : Bytes)
  | write (p : PendingWrite) (w : WriteOutcome)
  | receive (owner : Nat) (f : Frame)
  /-- The `i`-th delivery under way reaches its queue. -/
  | enqueue (owner i : Nat)

namespace Arbitration

def pendingFrame (s : SessionShared) : PendingWrite → Frame
  | .data sid offset payload => s.dataFrame 0 sid offset payload
  | .reset sid => s.abortResetFrame sid

/-- After a critical section of the operation that holds the lock. -/
def after (s : Arbitration) (r : ArbResult) : Arbitration :=
  { s with
    shared := r.shared
    holder := r.holder
    pending := r.owed ++ s.pending
    log := r.events ++ s.log }

def step (s : Arbitration) : ArbLabel → Option Arbitration
  | .begin_ t =>
    if s.holder.isNone && t.isStart then some { s with holder := some t } else none
  | .proceed w => s.holder.map fun t => s.after (t.proceed s.shared w)
  | .prepareSend sid payload =>
    match s.shared.recordSend sid payload with
    | .error _ => none
    | .ok (_, shared) => some { s with shared := shared }
  | .sendDataAt sid offset payload =>
    match s.shared.ensureSendStream sid with
    | .error _ => none
    | .ok () => some { s with pending := .data sid offset payload :: s.pending }
  | .write p w =>
    if p ∈ s.pending then
      some { s with
        pending := s.pending.erase p
        log := wroteEvents s.shared (pendingFrame s.shared p) w ++ s.log }
    else none
  | .receive owner f =>
    match s.shared.beginFrame owner f with
    | (shared, .done _) => some { s with shared := shared }
    | (shared, .delivering d) =>
      some { s with shared := shared, deliveries := d :: s.deliveries }
  | .enqueue owner i =>
    s.deliveries[i]?.map fun d =>
      { s with
        shared := (s.shared.enqueueDelivered owner d).1
        deliveries := s.deliveries.eraseIdx i }

end Arbitration

/-- The session as it goes on after the stream `sid` has been opened. -/
def arbitration (sid : Nat) : Machine Arbitration ArbLabel where
  init s :=
    s.holder = none ∧ s.pending = [] ∧ s.deliveries = [] ∧ s.log = []
      ∧ ∃ ctx, s.shared.streams[sid]? = some ctx ∧ ctx.term = none ∧ ctx.finalSent = none
  step := Arbitration.step

/-! ## What is promised of the wire -/

namespace WireEvent

def isFin (sid : Nat) : WireEvent → Bool
  | .wrote f _ => f.frameType = .fin && f.streamId = sid
  | _ => false

def isSend (sid : Nat) : WireEvent → Bool
  | .wrote f _ => (f.frameType = .open_ || f.frameType = .data || f.frameType = .fin)
      && f.streamId = sid
  | _ => false

def isReset (sid : Nat) : WireEvent → Bool
  | .wrote f _ => f.frameType = .reset && f.streamId = sid
  | _ => false

def isAbortReset (sid : Nat) : WireEvent → Bool
  | .wrote f term => f.frameType = .reset && f.streamId = sid && term = some .localAbort
  | _ => false

def isAborted (sid : Nat) : WireEvent → Bool
  | .aborted id => id = sid
  | _ => false

def isFinished (sid : Nat) : WireEvent → Bool
  | .finished id => id = sid
  | _ => false

end WireEvent

/-- In a history, latest first, nothing that meets `q` comes after something that meets `p`. -/
def NeverAfter (p q : WireEvent → Bool) (log : List WireEvent) : Prop :=
  log.Pairwise fun later earlier => p earlier = true → q later = false

instance (p q : WireEvent → Bool) (log : List WireEvent) : Decidable (NeverAfter p q log) := by
  unfold NeverAfter
  infer_instance

theorem neverAfter_append {p q : WireEvent → Bool} {events log : List WireEvent} :
    NeverAfter p q (events ++ log) ↔
      NeverAfter p q events ∧ NeverAfter p q log
        ∧ ∀ later ∈ events, ∀ earlier ∈ log, p earlier = true → q later = false :=
  List.pairwise_append

namespace Arbitration

/-- After `LocalAbort` no FIN is written, and the booked one is gone. -/
def NoFinAfterAbort (sid : Nat) (s : Arbitration) : Prop :=
  NeverAfter (WireEvent.isAborted sid) (WireEvent.isFin sid) s.log
    ∧ ((∃ e ∈ s.log, e.isAborted sid = true) →
        ∀ ctx ∈ s.shared.streams[sid]?, ctx.finalSent = none)

/-- After the RESET of a local abort neither OPEN nor DATA nor FIN is written. -/
def NothingAfterReset (sid : Nat) (s : Arbitration) : Prop :=
  NeverAfter (WireEvent.isAbortReset sid) (WireEvent.isSend sid) s.log

/-- After `finish` has returned `Ok` to a provider, nothing aborts the stream. -/
def NoAbortAfterFinish (sid : Nat) (s : Arbitration) : Prop :=
  s.shared.isClient = false →
    NeverAfter (WireEvent.isFinished sid) (fun e => e.isAborted sid || e.isReset sid) s.log

/-- A DATA that `send_data_at` writes without the lock reaches the wire before the RESET. -/
def Punctual (sid : Nat) (s : Arbitration) : ArbLabel → Prop
  | .write (.data id _ _) w =>
    id = sid → w.landed = true → ∀ e ∈ s.log, e.isAbortReset sid = false
  | _ => True

instance (sid : Nat) (s : Arbitration) (l : ArbLabel) : Decidable (s.Punctual sid l) := by
  unfold Punctual
  split <;> infer_instance

end Arbitration

end Dweb
