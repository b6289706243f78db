import OpenDweb.Lib.Bytes
import OpenDweb.Lib.Machine

/-!
# OpenDweb — the response relay

`createRelayRegistry` of `opendweb-ext-ai/src/provider/relay.mjs`, for one response. A step is a
critical section of its lock, or what runs between two of them; sections come in any order. Other
responses are seen as evictions of this one's record.

* **`ResponseEntry`** — the cursors, the ring and the terminal. `committedSeq`, `servedSeq` and
  `producedSeq` start at -1.
* **`decideReady`** — the decision of a pull, in the lock; **`applyTerminal`**, **`dropEntry`** —
  the two ends of an entry.
* **`PullCall`**, **`ChunkCall`**, **`CancelCall`** — the calls, with their place in their code.
* **`responseMachine`** — producer, pulls, cancels, sweeps, drains and closes.
-/

namespace Dweb

/-! ## State -/

inductive TerminalKind where
  | done
  | cancelled
  | expired
  | error
deriving DecidableEq

/-- `entry.terminal`; `code` and `message` are those of an error. -/
structure Terminal where
  kind : TerminalKind
  code : String
  message : String
deriving DecidableEq

/-- Status and header projection of the upstream's response. -/
structure ResponseMeta where
  status : Nat
  headers : List (String × String)
deriving DecidableEq

/-- A record of `summaries`. A tombstone has no `expiresAt`. -/
structure ResponseRecord where
  terminal : Terminal
  keyId : String
  head : Option ResponseMeta
  committedSeq : Int
  expiresAt : Option Nat
deriving DecidableEq

inductive ConflictCode where
  | pull_in_flight
  | invalid_from_seq
deriving DecidableEq

inductive ResponseAnswer where
  /-- 200 with a piece; `done` where the upstream has ended behind it. -/
  | piece (seq : Int) (body : Bytes) (done : Bool)
  | hold (nextSeq : Int)
  | summary (committedSeq : Int) (head : Option ResponseMeta)
  | conflict (code : ConflictCode)
  /-- 404 `response_not_found`. -/
  | notFound
  /-- 404 `response_expired`. -/
  | expired
  | failed (code message : String)
  | status (kind : TerminalKind)
deriving DecidableEq

structure ResponseEntry where
  keyId : String
  createdAt : Nat
  lastActivityAt : Nat
  committedSeq : Int
  producedSeq : Int
  servedSeq : Int
  pending : List (Int × Bytes)
  bufferBytes : Nat
  eof : Bool
  head : Option ResponseMeta
  terminal : Option Terminal
  pullInFlight : Bool
deriving DecidableEq

inductive PullPhase where
  | queued
  /-- In the hold; woken by the ring, its timer or its signal. -/
  | held (woken aborted : Bool)
  | second (aborted : Bool)
  /-- Decided, and behind the lock to give its place free; nothing is answered to an abort. -/
  | releasing (answer : Option ResponseAnswer)
  /-- Answered from the summaries; its place there is still taken. -/
  | replayed (answer : ResponseAnswer)
  | answered (answer : Option ResponseAnswer)
deriving DecidableEq

structure PullCall where
  fromSeq : Int
  keyId : String
  signalled : Bool
  phase : PullPhase
deriving DecidableEq

/-- A `chunk` that waits for space. -/
structure ChunkCall where
  piece : Bytes
  woken : Bool
deriving DecidableEq

inductive CancelCall where
  | queued
  | answered (answer : ResponseAnswer)
deriving DecidableEq

/-- A decision that was made with the entry and the record as they are. -/
structure ResponseDecision where
  entry : ResponseEntry
  record : Option ResponseRecord
  now : Nat
  answer : ResponseAnswer
deriving DecidableEq

structure ResponseConfig where
  perRidBufferBytes : Nat
  idleTtlMs : Nat
  absoluteLifetimeMs : Nat

structure ResponseState where
  now : Nat
  entry : ResponseEntry
  record : Option ResponseRecord
  replayInFlight : Bool
  expiring : Bool
  pulls : List PullCall
  chunks : List ChunkCall
  cancels : List CancelCall
  produced : List Bytes
  /-- Calls of `onTerminal`. -/
  onTerminals : Nat
  decisions : List ResponseDecision

/-! ## Sections -/

def PullCall.wake (call : PullCall) : PullCall :=
  match call.phase with
  | .held _ aborted => { call with phase := .held true aborted }
  | _ => call

def ResponseRecord.isDue (record : ResponseRecord) (now : Nat) : Bool :=
  record.expiresAt.any (· ≤ now)

/-- `expireSummary` makes it a tombstone. -/
def ResponseRecord.tombstone (record : ResponseRecord) : ResponseRecord where
  terminal := ⟨.expired, "", ""⟩
  keyId := record.keyId
  head := none
  committedSeq := 0
  expiresAt := none

namespace ResponseState

def wakePulls (s : ResponseState) : ResponseState := { s with pulls := s.pulls.map PullCall.wake }

def wakeChunks (s : ResponseState) : ResponseState :=
  { s with chunks := s.chunks.map fun call => { call with woken := true } }

variable (config : ResponseConfig)

def putSummary (s : ResponseState) (terminal : Terminal) : ResponseState :=
  { s with record := some {
      terminal
      keyId := s.entry.keyId
      head := s.entry.head
      committedSeq := s.entry.producedSeq
      expiresAt := some (s.now + config.idleTtlMs) } }

def applyTerminal (s : ResponseState) (terminal : Terminal) : ResponseState :=
  if s.entry.terminal ≠ none then s
  else
    let s := s.putSummary config terminal
    let s := { s with
      entry := { s.entry with terminal := some terminal, pending := [], bufferBytes := 0 }
      onTerminals := s.onTerminals + 1 }
    s.wakePulls.wakeChunks

/-- The consumer has never seen it: there is no record. -/
def dropEntry (s : ResponseState) : ResponseState :=
  if s.entry.terminal ≠ none then s
  else
    let s := { s with
      entry := { s.entry with
        terminal := some ⟨.error, "", ""⟩, pending := [], bufferBytes := 0 }
      onTerminals := s.onTerminals + 1 }
    s.wakePulls.wakeChunks

/-- `expireSummary`, where it is due. -/
def expireSummary (s : ResponseState) : ResponseState :=
  { s with record := s.record.map fun record =>
      if record.isDue s.now then record.tombstone else record }

/-- `touchSummary`. -/
def touchSummary (s : ResponseState) : ResponseState :=
  { s with record := s.record.map fun record =>
      { record with expiresAt := record.expiresAt.map fun _ => s.now + config.idleTtlMs } }

def terminalReplay (s : ResponseState) (keyId : String) : ResponseAnswer × ResponseState :=
  match s.record with
  | none => (.notFound, s)
  | some record =>
    if record.keyId ≠ keyId then (.notFound, s)
    else if record.isDue s.now then (.expired, s.expireSummary)
    else
      let answer : ResponseAnswer :=
        match record.terminal.kind with
        | .expired => .expired
        | .cancelled => .notFound
        | .error => .failed record.terminal.code record.terminal.message
        | .done => .summary record.committedSeq record.head
      (answer, s.touchSummary config)

def shiftPending (committedSeq : Int) : List (Int × Bytes) → Nat → List (Int × Bytes) × Nat
  | [], bufferBytes => ([], bufferBytes)
  | (seq, buf) :: pending, bufferBytes =>
    if seq ≤ committedSeq then shiftPending committedSeq pending (bufferBytes - buf.length)
    else ((seq, buf) :: pending, bufferBytes)

def confirm (s : ResponseState) (fromSeq : Int) : ResponseState :=
  let confirmTarget := min (fromSeq - 1) s.entry.servedSeq
  if s.entry.committedSeq < confirmTarget then
    let (pending, bufferBytes) := shiftPending confirmTarget s.entry.pending s.entry.bufferBytes
    let s := { s with
      entry := { s.entry with committedSeq := confirmTarget, pending, bufferBytes } }
    s.wakeChunks
  else s

/-- `none` is a pull that is not ready. -/
def decideReady (s : ResponseState) (fromSeq : Int) : Option ResponseAnswer × ResponseState :=
  if s.entry.terminal ≠ none then
    let (answer, s) := s.terminalReplay config s.entry.keyId
    (some answer, s)
  else
    let s := s.confirm fromSeq
    if fromSeq ≠ s.entry.committedSeq + 1 then (some (.conflict .invalid_from_seq), s)
    else
      let ready : Option Bytes :=
        match s.entry.pending with
        | (seq, buf) :: _ => if seq = fromSeq then some buf else none
        | [] => none
      match ready with
      | some buf =>
        let isLast := s.entry.eof && fromSeq = s.entry.producedSeq
        (some (.piece fromSeq buf isLast),
          { s with entry := { s.entry with servedSeq := fromSeq, lastActivityAt := s.now } })
      | none =>
        if s.entry.eof ∧ s.entry.producedSeq < fromSeq then
          let s := { s with
            entry := { s.entry with
              committedSeq := s.entry.producedSeq, lastActivityAt := s.now } }
          (some (.summary s.entry.producedSeq s.entry.head),
            s.applyTerminal config ⟨.done, "", ""⟩)
        else (none, s)

/-- The section of a `chunk`. -/
def tryChunk (s : ResponseState) (piece : Bytes) : Option ResponseState :=
  if s.entry.terminal ≠ none ∨ s.entry.eof then some s
  else if s.entry.bufferBytes + piece.length ≤ config.perRidBufferBytes then
    let seq := s.entry.producedSeq + 1
    let s := { s with
      entry := { s.entry with
        producedSeq := seq
        pending := s.entry.pending ++ [(seq, piece)]
        bufferBytes := s.entry.bufferBytes + piece.length }
      produced := s.produced ++ [piece] }
    some s.wakePulls
  else none

def setPull (s : ResponseState) (k : Nat) (call : PullCall) (phase : PullPhase) : ResponseState :=
  { s with pulls := s.pulls.set k { call with phase } }

/-- A decision is made of `s`, for its own key. -/
def decided (s : ResponseState) (answer : ResponseAnswer) (t : ResponseState) : ResponseState :=
  { t with decisions := ⟨s.entry, s.record, s.now, answer⟩ :: t.decisions }

def pullSummary (s : ResponseState) (fromSeq : Int) (keyId : String) : ResponseState :=
  match s.record with
  | none => { s with pulls := ⟨fromSeq, keyId, false, .answered (some .notFound)⟩ :: s.pulls }
  | some _ =>
    if s.replayInFlight then
      { s with
        pulls := ⟨fromSeq, keyId, false, .answered (some (.conflict .pull_in_flight))⟩ :: s.pulls }
    else
      let (answer, s) := s.terminalReplay config keyId
      { s with
        replayInFlight := true
        pulls := ⟨fromSeq, keyId, false, .replayed answer⟩ :: s.pulls }

def summaryAnswer (s : ResponseState) (keyId : String) : ResponseAnswer :=
  if s.record ≠ none ∧ s.replayInFlight then .conflict .pull_in_flight
  else (s.terminalReplay config keyId).1

def cancelSummary (s : ResponseState) (keyId : String) : ResponseAnswer × ResponseState :=
  match s.record with
  | none => (.notFound, s)
  | some record =>
    if record.keyId ≠ keyId then (.notFound, s)
    else if record.isDue s.now then (.expired, s.expireSummary)
    else
      let answer : ResponseAnswer :=
        if record.terminal.kind = .expired then .expired else .status record.terminal.kind
      (answer, s.touchSummary config)

end ResponseState

/-! ## The machine -/

inductive ResponseLabel where
  | tick (ms : Nat)
  | setMeta (head : ResponseMeta)
  | chunk (piece : Bytes)
  | rechunk (i : Nat)
  | endOfBody
  | error (code message : String)
  | abortLocal
  | pull (fromSeq : Int) (keyId : String) (signalled : Bool)
  | first (k : Nat)
  | signal (k : Nat)
  | timeout (k : Nat)
  | resume (k : Nat)
  | second (k : Nat)
  | release (k : Nat)
  | cancel (keyId : String)
  | cancelLocked (c : Nat)
  | sweep
  | expire
  | drain
  /-- `closeAll` and `dispose`. -/
  | close (code message : String)
  | evict

namespace ResponseState

variable (config : ResponseConfig)

def isExpiring (s : ResponseState) : Bool :=
  config.absoluteLifetimeMs ≤ s.now - s.entry.createdAt ||
    config.idleTtlMs ≤ s.now - s.entry.lastActivityAt

def step (s : ResponseState) : ResponseLabel → Option ResponseState
  | .tick ms => some { s with now := s.now + ms }
  | .setMeta head =>
    if s.entry.terminal ≠ none then some s
    else some { s with entry := { s.entry with head := some head } }
  | .chunk piece =>
    match s.tryChunk config piece with
    | some s => some s
    | none => some { s with chunks := ⟨piece, false⟩ :: s.chunks }
  | .rechunk i =>
    match s.chunks[i]? with
    | some ⟨piece, true⟩ =>
      match { s with chunks := s.chunks.eraseIdx i }.tryChunk config piece with
      | some s => some s
      | none => some { s with chunks := s.chunks.set i ⟨piece, false⟩ }
    | _ => none
  | .endOfBody =>
    if s.entry.terminal ≠ none then some s
    else some { s with entry := { s.entry with eof := true } }.wakePulls.wakeChunks
  | .error code message =>
    if s.entry.terminal ≠ none then some s
    else if s.entry.head = none then some s.dropEntry
    else some (s.applyTerminal config ⟨.error, code, message⟩)
  | .abortLocal =>
    if s.entry.terminal ≠ none ∨ s.entry.head ≠ none then some s else some s.dropEntry
  | .pull fromSeq keyId signalled =>
    if signalled then some { s with pulls := ⟨fromSeq, keyId, true, .answered none⟩ :: s.pulls }
    else if s.entry.terminal ≠ none then
      let t := s.pullSummary config fromSeq keyId
      some (if s.entry.keyId = keyId then s.decided (s.summaryAnswer config keyId) t else t)
    else if s.entry.keyId ≠ keyId then
      some { s with pulls := ⟨fromSeq, keyId, false, .answered (some .notFound)⟩ :: s.pulls }
    else some { s with pulls := ⟨fromSeq, keyId, false, .queued⟩ :: s.pulls }
  | .first k =>
    match s.pulls[k]? with
    | some call =>
      if call.phase ≠ .queued then none
      else if s.entry.pullInFlight then
        some (s.decided (.conflict .pull_in_flight)
          (s.setPull k call (.answered (some (.conflict .pull_in_flight)))))
      else
        let t := { s with entry := { s.entry with pullInFlight := true } }
        match t.decideReady config call.fromSeq with
        | (some answer, t) => some (s.decided answer (t.setPull k call (.releasing (some answer))))
        -- a signal from before the hold is seen as it is entered
        | (none, t) => some (t.setPull k call (.held call.signalled call.signalled))
    | none => none
  | .signal k =>
    match s.pulls[k]? with
    | some call =>
      match call.phase with
      | .held _ _ => some (s.setPull k { call with signalled := true } (.held true true))
      | phase => some (s.setPull k { call with signalled := true } phase)
    | none => none
  | .timeout k =>
    match s.pulls[k]? with
    | some call =>
      match call.phase with
      | .held _ aborted => some (s.setPull k call (.held true aborted))
      | _ => none
    | none => none
  | .resume k =>
    match s.pulls[k]? with
    | some call =>
      match call.phase with
      | .held true aborted => some (s.setPull k call (.second aborted))
      | _ => none
    | none => none
  | .second k =>
    match s.pulls[k]? with
    | some call =>
      match call.phase with
      | .second true => some (s.setPull k call (.releasing none))
      | .second false =>
        match s.decideReady config call.fromSeq with
        | (some answer, t) => some (s.decided answer (t.setPull k call (.releasing (some answer))))
        | (none, t) =>
          let answer := ResponseAnswer.hold (t.entry.committedSeq + 1)
          some (s.decided answer (t.setPull k call (.releasing (some answer))))
      | _ => none
    | none => none
  | .release k =>
    match s.pulls[k]? with
    | some call =>
      match call.phase with
      | .releasing answer =>
        let s := { s with entry := { s.entry with pullInFlight := false } }
        some (s.setPull k call (.answered answer))
      | .replayed answer =>
        some ({ s with replayInFlight := false }.setPull k call (.answered (some answer)))
      | _ => none
    | none => none
  | .cancel keyId =>
    if s.entry.terminal ≠ none then
      let (answer, t) := s.cancelSummary config keyId
      let t := { t with cancels := .answered answer :: t.cancels }
      some (if s.entry.keyId = keyId then s.decided answer t else t)
    else if s.entry.keyId ≠ keyId then
      some { s with cancels := .answered .notFound :: s.cancels }
    else some { s with cancels := .queued :: s.cancels }
  | .cancelLocked c =>
    match s.cancels[c]? with
    | some .queued =>
      let t := s.applyTerminal config ⟨.cancelled, "", ""⟩
      let answer := ResponseAnswer.status .cancelled
      some (s.decided answer { t with cancels := t.cancels.set c (.answered answer) })
    | _ => none
  | .sweep =>
    let expiring := s.expiring || (s.entry.terminal = none && s.isExpiring config)
    some { s.expireSummary with expiring }
  | .expire =>
    if s.expiring then
      some ({ s with expiring := false }.applyTerminal config ⟨.expired, "", ""⟩)
    else none
  | .drain =>
    some (s.applyTerminal config ⟨.error, "auth_revoked", "all session keys were revoked"⟩)
  | .close code message => some (s.applyTerminal config ⟨.error, code, message⟩)
  | .evict => if s.entry.terminal ≠ none then some { s with record := none } else none

end ResponseState

def responseMachine (config : ResponseConfig) : Machine ResponseState ResponseLabel where
  init s := s.entry.committedSeq = -1 ∧ s.entry.producedSeq = -1 ∧ s.entry.servedSeq = -1 ∧
    s.entry.pending = [] ∧ s.entry.bufferBytes = 0 ∧ s.entry.eof = false ∧
    s.entry.terminal = none ∧ s.entry.pullInFlight = false ∧ s.record = none ∧
    s.replayInFlight = false ∧ s.expiring = false ∧ s.pulls = [] ∧ s.chunks = [] ∧
    s.cancels = [] ∧ s.produced = [] ∧ s.onTerminals = 0 ∧ s.decisions = []
  step s l := s.step config l

end Dweb
