import OpenDweb.Lib.Machine
import OpenDweb.Continuity.FrameCodec
import OpenDweb.Continuity.OpenAdmission
import OpenDweb.Continuity.WindowLaws

/-!
# OpenDweb — one session against any peer

The state of one endpoint in any order of its critical sections: frames from an arbitrary peer,
calls of the application, and `recv` calls of any number of readers, each lock taken apart.

* **`sessionMachine`** — the places between two locks (`FramePlace`, `RecvPlace`) are part of the
  state, with a record of what crossed the windows and what became of it.
* **`StreamChange`** — everything that can happen to one stream other than bytes crossing its
  window; **`Crosses`** is that.
* **`step_changes`** — every step of the machine is one or the other, for every stream.
* **`streams_invariant`** — a property of single streams that both keep holds of every stream of
  every run.
-/

namespace Dweb

open Std (ExtTreeMap)
open Relation (ReflTransGen)
open Option Std.ExtTreeMap

/-! ## The machine -/

inductive FramePlace where
  | delivering (owner : Nat) (d : Delivery)
  /-- The queue had no room; the stream is about to be ended. -/
  | refused (d : Delivery)
  | done

/-- Where a call of `recv` stands. -/
inductive RecvPlace where
  | popping (streamId : Nat)
  /-- The segment has left the queue and is not committed. -/
  | holding (streamId : Nat) (segment : Bytes)
  /-- Committed; an ACK may be on its way to the channel. -/
  | committed (streamId : Nat) (segment : Bytes)
  | checking (streamId : Nat)
  /-- The stream was over for the reader; the queue is about to be locked again. -/
  | rechecking (streamId : Nat) (term : Option StreamTerm)
  | waiting (streamId : Nat)
  | returned (streamId : Nat) (segment : Bytes)
  | failed (streamId : Nat) (text : String)
  | dropped
  deriving DecidableEq

/-- Bytes of one stream, as one segment. -/
abbrev Parcel := Nat × Bytes

/-- The endpoint, and what the parcels that crossed its windows have come to. -/
structure SessionRun where
  session : SessionShared
  nextStreamId : Nat
  allocated : List Nat
  frames : List FramePlace
  recvs : List RecvPlace
  crossed : List Parcel
  consumed : List Parcel
  lost : List Parcel
  /-- What `recv` has returned. -/
  returned : List Parcel
  unreturned : List Parcel

inductive SessionEvent where
  | frame (owner : Nat) (f : Frame)
  /-- The delivery queue's critical section of the `i`-th DATA frame. -/
  | enqueue (i : Nat)
  | shut (i : Nat)
  | allocStream
  | reserveStreamSlot (streamId : Nat)
  | sendOpen (streamId : Nat) (idemKey : String) (payload : Bytes)
  | openFailed (streamId : Nat)
  | localOp (op : LocalOp)
  | recv (streamId : Nat)
  | recvPop (i : Nat)
  | recvCommit (i : Nat)
  | recvReturn (i : Nat)
  | recvCheck (i : Nat)
  | recvRecheck (i : Nat)
  /-- Read the phase: a session that is over ends the call, else it waits and begins anew. -/
  | recvPhase (i : Nat)
  | recvDrop (i : Nat)

namespace Frame

/-- A frame as `decode` returns it. -/
def OnWire (f : Frame) : Prop :=
  (f.flags < 2 ^ 16 ∧ f.streamId < 2 ^ 64 ∧ f.byteOffset < 2 ^ 64)
    ∧ f.payload.length ≤ maxFrame ∧ (f.frameType.isControl = true ↔ f.streamId = 0)
    ∧ FrameFlags.unknown f.flags = 0

instance (f : Frame) : Decidable f.OnWire := by
  unfold OnWire
  infer_instance

end Frame

/-- The calls of `LocalOp` that `recv` makes at its own places. -/
def LocalOp.isRead : LocalOp → Bool
  | .recvPop _ | .recvCommit _ _ => true
  | _ => false

namespace SessionShared

/-- The delivery queue's critical section of a DATA frame: `none` without room. -/
def enqueue (s : SessionShared) (owner : Nat) (d : Delivery) : Option SessionShared :=
  if s.queueHasRoom d then some (s.enqueueDelivered owner d).1 else none

end SessionShared

namespace SessionRun

def withSession (r : SessionRun) (s : SessionShared) : SessionRun := { r with session := s }

/-- The run with the `i`-th reader elsewhere. -/
def moveRecv (r : SessionRun) (i : Nat) (place : RecvPlace) : SessionRun :=
  { r with recvs := r.recvs.set i place }

/-- The run with the `i`-th DATA frame elsewhere. -/
def moveFrame (r : SessionRun) (i : Nat) (place : FramePlace) : SessionRun :=
  { r with frames := r.frames.set i place }

end SessionRun

def Delivery.parcels (d : Delivery) : List Parcel := d.segments.map fun b => (d.streamId, b)

/-- What is lost when the future of `recv` is dropped: what it took and did not commit, and what
it committed and did not return. -/
def RecvPlace.dropping : RecvPlace → List Parcel × List Parcel
  | .holding sid b => ([(sid, b)], [])
  | .committed sid b => ([], [(sid, b)])
  | _ => ([], [])

def RecvPlace.isOpen : RecvPlace → Bool
  | .popping _ | .holding _ _ | .committed _ _ | .checking _ | .rechecking _ _ | .waiting _ => true
  | .returned _ _ | .failed _ _ | .dropped => false

def sessionStep (r : SessionRun) : SessionEvent → Option SessionRun
  | .frame owner f =>
    if f.OnWire then
      match r.session.beginFrame owner f with
      | (s, .done _) => some (r.withSession s)
      | (s, .delivering d) =>
        some { r with
          session := s
          frames := r.frames ++ [.delivering owner d]
          crossed := r.crossed ++ d.parcels }
    else none
  | .enqueue i =>
    match r.frames[i]? with
    | some (.delivering owner d) =>
      match r.session.enqueue owner d with
      | some s => some ((r.withSession s).moveFrame i .done)
      | none => some { r.moveFrame i (.refused d) with lost := r.lost ++ d.parcels }
    | _ => none
  | .shut i =>
    match r.frames[i]? with
    | some (.refused d) =>
      let s := r.session.modifyStream d.streamId fun ctx => ctx.terminate .protocolError
      some ((r.withSession s.countViolation).moveFrame i .done)
    | _ => none
  | .allocStream =>
    some { r with
      nextStreamId := (r.nextStreamId + 2) % 2 ^ 64
      allocated := r.nextStreamId :: r.allocated }
  | .reserveStreamSlot sid =>
    if sid ∈ r.allocated then
      match r.session.reserveStreamSlot sid with
      | .ok s => some (r.withSession s)
      | .error _ => some r
    else none
  | .sendOpen sid key payload =>
    if sid ∈ r.allocated then
      match r.session.sendOpen sid key payload with
      | .ok (_, s) => some (r.withSession s)
      | .error _ => some r
    else none
  | .openFailed sid => some (r.withSession (r.session.openFailed sid))
  | .localOp op => if op.isRead then none else some (r.withSession (op.apply r.session))
  | .recv sid => some { r with recvs := r.recvs ++ [.popping sid] }
  | .recvPop i =>
    match r.recvs[i]? with
    | some (.popping sid) =>
      match r.session.recvPop sid with
      | some (b, s) => some ((r.withSession s).moveRecv i (.holding sid b))
      | none => some (r.moveRecv i (.checking sid))
    | _ => none
  | .recvCommit i =>
    match r.recvs[i]? with
    | some (.holding sid b) =>
      let s := (r.session.recvCommit sid b.length).1
      some { (r.withSession s).moveRecv i (.committed sid b) with
        consumed := r.consumed ++ [(sid, b)] }
    | _ => none
  | .recvReturn i =>
    match r.recvs[i]? with
    | some (.committed sid b) =>
      some { r.moveRecv i (.returned sid b) with returned := r.returned ++ [(sid, b)] }
    | _ => none
  | .recvCheck i =>
    match r.recvs[i]? with
    | some (.checking sid) =>
      match r.session.recvEnded sid with
      | (true, term) => some (r.moveRecv i (.rechecking sid term))
      | (false, _) => some (r.moveRecv i (.waiting sid))
    | _ => none
  | .recvRecheck i =>
    match r.recvs[i]? with
    | some (.rechecking sid term) =>
      if r.session.queueEmpty sid then
        some (r.moveRecv i (.failed sid (SessionShared.recvEndText term)))
      else some (r.moveRecv i (.waiting sid))
    | _ => none
  | .recvPhase i =>
    match r.recvs[i]? with
    | some (.waiting sid) =>
      if r.session.resumeControl.phase = .dead ∨ r.session.resumeControl.phase = .closed then
        some (r.moveRecv i (.failed sid "stream ended: session dead/closed"))
      else some (r.moveRecv i (.popping sid))
    | _ => none
  | .recvDrop i =>
    match r.recvs[i]? with
    | some place =>
      if place.isOpen then
        some { r.moveRecv i .dropped with
          lost := r.lost ++ place.dropping.1
          unreturned := r.unreturned ++ place.dropping.2 }
      else none
    | none => none

/-- An endpoint as it is set up. A client's streams have odd ids. -/
def SessionRun.init (session : SessionShared) : SessionRun where
  session := session
  nextStreamId := if session.isClient then 1 else 2
  allocated := []
  frames := []
  recvs := []
  crossed := []
  consumed := []
  lost := []
  returned := []
  unreturned := []

/-- One endpoint from its construction on, whatever its peer, its application and its readers
do. -/
def sessionMachine : Machine SessionRun SessionEvent where
  init r := ∃ sessionId token isClient limits,
    r = .init (.new sessionId token isClient limits)
  step := sessionStep

/-! ## What can happen to one stream -/

/-- One change of a stream that takes nothing across its window; `admits` says which final
offsets a FIN may announce. -/
inductive StreamChange (admits : StreamCtx → Nat → Prop) (c : StreamCtx) : StreamCtx → Prop where
  | kept (off : Nat) (p : Bytes) (w : RecvWindow) (a : SegmentAction)
      (hfinal : ∀ final ∈ c.remoteFinal, off + p.length ≤ final)
      (hfed : c.recv.FedAs off p gapCap gapByteCap (w, .ok a))
      (haction : a = .duplicate ∨ a = .buffered) : StreamChange admits c { c with recv := w }
  | noted : StreamChange admits c c.noteAck
  | refused (n : Nat) : StreamChange admits c
      ({ c with recv := { c.recv with unverifiableDuplicates := n } }.terminate .protocolError)
  | acked (x : Nat) (hx : x ≤ c.journal.nextOffset) :
      StreamChange admits c { c with journal := c.journal.advanceAck x }
  | finished (final : Nat) (hnone : c.remoteFinal = none) (hadmits : admits c final) :
      StreamChange admits c ({ c with remoteFinal := some final }.setTerm .fin)
  | reset : StreamChange admits c ({ c with peerReset := true }.terminate .peerReset)
  | cancelled : StreamChange admits c
      ({ c with remoteFinal := some c.recv.expectedOffset, peerReset := true }.setTerm .peerReset)
  | recorded (p : Bytes) (off : Nat) (j : StreamJournal) (hterm : isErrorTerm c.term = false)
      (hrecord : c.journal.record p false = .ok (off, j)) :
      StreamChange admits c { c with journal := j }
  | finalSent (hterm : isErrorTerm c.term = false) :
      StreamChange admits c { c with finalSent := some c.journal.nextOffset }
  | retracted : StreamChange admits c { c with finalSent := none }
  | aborted : StreamChange admits c { c.setTerm .localAbort with finalSent := none }.clearJournal

namespace SessionShared

def ctxOf (s : SessionShared) (sid : Nat) : StreamCtx :=
  s.streams[sid]?.getD (StreamCtx.new sid s.limits)

/-- The streams of `s'` come from those of `s` by such changes, or are new ones that `opens`
allows, and no queue is touched. -/
structure StreamsChange (admits : Nat → StreamCtx → Nat → Prop) (opens : Nat → Prop)
    (s s' : SessionShared) : Prop where
  limits : s'.limits = s.limits
  delivered : s'.delivered = s.delivered
  kept : ∀ sid ∈ s.streams, sid ∈ s'.streams
  fresh : ∀ sid ∈ s'.streams, sid ∈ s.streams ∨ opens sid
  each : ∀ sid c', s'.streams[sid]? = some c' →
    ReflTransGen (StreamChange (admits sid)) (s.ctxOf sid) c'

inductive Crosses (s : SessionShared) (f : Frame) (d : Delivery) : SessionShared → Prop where
  | intro (c : StreamCtx) (w : RecvWindow) (hc : s.streams[d.streamId]? = some c)
      (hfinal : ∀ final ∈ c.remoteFinal, f.byteOffset + f.payload.length ≤ final)
      (hfed : c.recv.FedAs f.byteOffset f.payload gapCap gapByteCap
        (w, .ok (.deliver d.segments))) :
      Crosses s f d
        { s with streams := s.streams.insert d.streamId { c with recv := w }.noteAck }

variable {admits : Nat → StreamCtx → Nat → Prop} {opens : Nat → Prop} {s s' t : SessionShared}

variable {sid : Nat} {f : Frame}

theorem ctxOf_of_some {c : StreamCtx} (h : s.streams[sid]? = some c) : s.ctxOf sid = c := by
  rw [ctxOf, h]
  rfl

namespace StreamsChange

theorem of_eq (hlimits : s'.limits = s.limits) (hdelivered : s'.delivered = s.delivered)
    (hstreams : s'.streams = s.streams) : StreamsChange admits opens s s' where
  limits := hlimits
  delivered := hdelivered
  kept sid h := hstreams ▸ h
  fresh sid h := Or.inl (hstreams ▸ h)
  each sid c' h := by
    rw [hstreams] at h
    rw [ctxOf_of_some h]

theorem refl (s : SessionShared) : StreamsChange admits opens s s := .of_eq rfl rfl rfl

theorem trans (h : StreamsChange admits opens s t) (h' : StreamsChange admits opens t s') :
    StreamsChange admits opens s s' where
  limits := h'.limits.trans h.limits
  delivered := h'.delivered.trans h.delivered
  kept sid hs := h'.kept sid (h.kept sid hs)
  fresh sid hs := (h'.fresh sid hs).elim (h.fresh sid) Or.inr
  each sid c' hc' := by
    have hlater := h'.each sid c' hc'
    cases ht : t.streams[sid]? with
    | some c =>
      rw [ctxOf_of_some ht] at hlater
      exact (h.each sid c ht).trans hlater
    | none =>
      -- a stream that `t` does not know was not known before
      have hs : s.streams[sid]? = none := by
        refine not_isSome_iff_eq_none.mp fun hsome => ?_
        have hmem := h.kept sid (mem_iff_isSome_getElem?.mpr hsome)
        rw [mem_iff_isSome_getElem?, ht] at hmem
        cases hmem
      rw [ctxOf, ht, h.limits] at hlater
      rw [ctxOf, hs]
      exact hlater

theorem of_insert {sid : Nat} {c' : StreamCtx} (hopens : sid ∈ s.streams ∨ opens sid)
    (hlimits : s'.limits = s.limits)
    (hdelivered : s'.delivered = s.delivered)
    (hstreams : s'.streams = s.streams.insert sid c')
    (hchange : ReflTransGen (StreamChange (admits sid)) (s.ctxOf sid) c') :
    StreamsChange admits opens s s' where
  limits := hlimits
  delivered := hdelivered
  kept _ h := by
    rw [hstreams]
    exact ExtTreeMap.mem_insert.mpr (Or.inr h)
  fresh sid' h := by
    rw [hstreams] at h
    rcases ExtTreeMap.mem_insert.mp h with heq | hold
    · exact compare_eq_iff_eq.mp heq ▸ hopens
    · exact Or.inl hold
  each sid' c'' h := by
    rw [hstreams] at h
    rcases getElem?_insert_cases h with ⟨rfl, rfl⟩ | ⟨-, h⟩
    · exact hchange
    · rw [ctxOf_of_some h]

theorem of_change {sid : Nat} {c c' : StreamCtx} (hc : s.streams[sid]? = some c)
    (hlimits : s'.limits = s.limits) (hdelivered : s'.delivered = s.delivered)
    (hstreams : s'.streams = s.streams.insert sid c')
    (hchange : StreamChange (admits sid) c c') : StreamsChange admits opens s s' :=
  .of_insert (.inl (mem_iff_isSome_getElem?.mpr (hc ▸ rfl))) hlimits hdelivered hstreams
    (ctxOf_of_some hc ▸ .single hchange)

end StreamsChange

theorem modifyStream_changes (sid : Nat) (g : StreamCtx → StreamCtx)
    (hg : ∀ c, s.streams[sid]? = some c → StreamChange (admits sid) c (g c)) :
    StreamsChange admits opens s (s.modifyStream sid g) := by
  cases hc : s.streams[sid]? with
  | some c => exact .of_change hc rfl rfl (modify_eq_insert hc) (hg c hc)
  | none => exact .of_eq rfl rfl (modify_of_none hc)

theorem reserveStreamSlot_changes (hopens : opens sid) (h : s.reserveStreamSlot sid = .ok s') :
    StreamsChange admits opens s s' := by
  obtain ⟨-, ⟨-, rfl⟩ | ⟨hnew, rfl⟩⟩ := reserveStreamSlot_eq_ok h
  · exact .refl s'
  · refine .of_insert (.inr hopens) rfl rfl rfl ?_
    have hnone : s.streams[sid]? = none := by
      rw [mem_iff_isSome_getElem?] at hnew
      exact not_isSome_iff_eq_none.mp hnew
    rw [ctxOf, hnone]
    exact .refl

/-! ### Frames -/

theorem handleAck_changes (owner : Nat) (f : Frame) :
    StreamsChange admits opens s (s.handleAck owner f).1 := by
  unfold handleAck
  extract_lets sid
  split
  · exact .of_eq rfl rfl rfl
  · next c hc =>
    split
    · exact .of_eq rfl rfl rfl
    · next hle => exact .of_change hc rfl rfl rfl (.acked _ (Nat.not_lt.mp hle))

theorem handleFin_changes
    (hadmits : ∀ c final, s.streams[s.resolveStream f.streamId]? = some c → c.remoteFinal = none → u64CheckedAdd f.byteOffset f.payload.length = some final → admits (s.resolveStream f.streamId) c final) :
    StreamsChange admits opens s (s.handleFin f).1 := by
  unfold handleFin
  extract_lets sid
  split
  · exact .of_eq rfl rfl rfl
  · next c hc =>
    split
    · exact .of_eq rfl rfl rfl
    · next final hfinal =>
      split
      · dsimp only
        split <;> exact .of_eq rfl rfl rfl
      · next hnone =>
        exact .of_change hc rfl rfl rfl (.finished final hnone (hadmits c final hc hnone hfinal))

theorem handleReset_changes (f : Frame) : StreamsChange admits opens s (s.handleReset f).1 := by
  unfold handleReset
  extract_lets sid
  split
  · next c hc => exact .of_change hc rfl rfl rfl .reset
  · repeat' split
    all_goals exact .of_eq rfl rfl rfl

theorem handleOpen_changes (hopens : opens f.streamId) :
    StreamsChange admits opens s (s.handleOpen f).1 := by
  have hcanonical : (s.onOpen f.streamId (parseIdemKey f.payload)).2.2 = true →
      (s.onOpen f.streamId (parseIdemKey f.payload)).2.1 = f.streamId := by
    unfold onOpen
    split
    · intro hnew
      cases hnew
    · exact fun _ => rfl
  have hbooked : StreamsChange admits opens s (s.onOpen f.streamId (parseIdemKey f.payload)).1 := by
    unfold onOpen
    split <;> exact .of_eq rfl rfl rfl
  unfold handleOpen
  dsimp only
  split
  · next hnew =>
    split
    · exact hbooked.trans (.of_eq rfl rfl rfl)
    · next t ht =>
      have hslot : opens (s.onOpen f.streamId (parseIdemKey f.payload)).2.1 := by
        rw [hcanonical hnew]
        exact hopens
      refine hbooked.trans ((reserveStreamSlot_changes hslot ht).trans ?_)
      split
      · have hmodify : StreamsChange admits opens t (t.modifyStream
            (s.onOpen f.streamId (parseIdemKey f.payload)).2.1 _) :=
          modifyStream_changes _ _ fun c _ => .cancelled
        exact ⟨hmodify.limits, hmodify.delivered, hmodify.kept, hmodify.fresh, hmodify.each⟩
      · exact .of_eq rfl rfl rfl
  · split
    · exact hbooked.trans (.of_eq rfl rfl rfl)
    · exact hbooked

theorem fedAs_refused {w w' : RecvWindow} {off : Nat} {p : Bytes}
    {r : Except GapOverflow SegmentAction} (h : w.FedAs off p gapCap gapByteCap (w', r))
    (hrefused : ∀ a, r = .ok a → ∃ e g, a = .overlapMismatch e g) :
    ∃ n, w' = { w with unverifiableDuplicates := n } := by
  cases h with
  | beyond _ => exact ⟨_, rfl⟩
  | tampered n _ _ => exact ⟨n, rfl⟩
  | repeated n _ _ _ => exact absurd (hrefused _ rfl) (by simp)
  | delivered n _ _ _ _ _ _ _ => exact absurd (hrefused _ rfl) (by simp)
  | held _ _ _ => exact absurd (hrefused _ rfl) (by simp)
  | taken _ _ _ _ => exact ⟨_, rfl⟩
  | overflow e _ _ _ => exact ⟨_, rfl⟩
  | buffered _ _ _ _ _ => exact absurd (hrefused _ rfl) (by simp)

def FrameChanges (admits : Nat → StreamCtx → Nat → Prop) (opens : Nat → Prop)
    (s : SessionShared) (f : Frame) (r : SessionShared × FrameStep) : Prop :=
  match r.2 with
  | .done _ => StreamsChange admits opens s r.1
  | .delivering d => Crosses s f d r.1

theorem handleData_changes (s : SessionShared) (f : Frame) :
    FrameChanges admits opens s f (s.handleData f) := by
  unfold handleData
  extract_lets sid reset sessionGapBytes
  split
  · exact .of_eq rfl rfl rfl
  next c hc =>
  split
  · exact .of_eq rfl rfl rfl
  next frameEnd hend =>
  obtain ⟨rfl, -⟩ := u64CheckedAdd_eq_some hend
  split
  · exact .of_eq rfl rfl rfl
  next hfinal =>
  have hfinal : ∀ final ∈ c.remoteFinal, f.byteOffset + f.payload.length ≤ final := by
    intro final hsome
    refine Nat.not_lt.mp fun hlt => hfinal ?_
    rw [mem_def.mp hsome]
    exact decide_eq_true hlt
  split
  · exact .of_change hc rfl rfl rfl (.refused c.recv.unverifiableDuplicates)
  dsimp only
  have hfed := c.recv.feedWithLimits_fedAs f.byteOffset f.payload gapCap gapByteCap
  generalize c.recv.feedWithLimits f.byteOffset f.payload gapCap gapByteCap = r at hfed ⊢
  obtain ⟨w, a⟩ := r
  dsimp only
  split
  · exact .intro c w hc hfinal hfed
  · refine .of_insert (.inl (mem_iff_isSome_getElem?.mpr (hc ▸ rfl))) rfl rfl rfl ?_
    rw [ctxOf_of_some hc]
    exact .tail (.single (.kept _ _ w .duplicate hfinal hfed (.inl rfl))) .noted
  · exact .of_change hc rfl rfl rfl (.kept _ _ w .buffered hfinal hfed (.inr rfl))
  · obtain ⟨n, rfl⟩ := fedAs_refused hfed fun a h => ⟨_, _, (Except.ok.inj h).symm⟩
    exact .of_change hc rfl rfl rfl (.refused n)
  · obtain ⟨n, rfl⟩ := fedAs_refused hfed nofun
    exact .of_change hc rfl rfl rfl (.refused n)

theorem beginFrame_changes (owner : Nat)
    (hadmits : f.frameType = .fin → ∀ c final, s.streams[s.resolveStream f.streamId]? = some c → c.remoteFinal = none → u64CheckedAdd f.byteOffset f.payload.length = some final → admits (s.resolveStream f.streamId) c final)
    (hopens : f.frameType = .open_ → opens f.streamId) :
    FrameChanges admits opens s f (s.beginFrame owner f) := by
  unfold beginFrame
  split
  · exact .of_eq rfl rfl rfl
  split
  · exact .refl s
  split
  · exact .of_eq rfl rfl rfl
  split
  · exact .of_eq rfl rfl rfl
  split
  · exact handleData_changes s f
  · exact handleAck_changes owner f
  · next hfin => exact handleFin_changes (hadmits hfin)
  · next hopen => exact handleOpen_changes (hopens hopen)
  · exact handleReset_changes f
  · exact .refl s

/-! ### Everything else -/

theorem markLocalAbort_changes (sid : Nat) :
    StreamsChange admits opens s (s.markLocalAbort sid) := by
  unfold markLocalAbort
  split
  · exact .refl s
  · next c hc => exact .of_change hc rfl rfl rfl .aborted

theorem advanceJournalFromSummary_changes (summaries : List StreamSummary) :
    StreamsChange admits opens s (s.advanceJournalFromSummary summaries) := by
  unfold advanceJournalFromSummary
  induction summaries generalizing s with
  | nil => exact .refl s
  | cons summary rest ih =>
    refine .trans ?_ ih
    unfold applySummary
    split
    · exact .refl s
    · next c hc =>
      split
      · exact .of_eq rfl rfl rfl
      · next hle => exact .of_change hc rfl rfl rfl (.acked _ (Nat.not_lt.mp hle))

theorem sendOpen_changes {key : String} {payload : Bytes} {written : Option Frame}
    (hopens : opens sid) (h : s.sendOpen sid key payload = .ok (written, s')) :
    StreamsChange admits opens s s' := by
  obtain ⟨t, ht, rfl, -⟩ := sendOpen_eq_ok h
  exact (reserveStreamSlot_changes hopens ht).trans (.of_eq rfl rfl rfl)

theorem openFailed_changes (sid : Nat) : StreamsChange admits opens s (s.openFailed sid) :=
  (markLocalAbort_changes sid).trans (.of_eq rfl rfl rfl)

theorem localOp_changes {op : LocalOp} (hread : op.isRead = false) :
    StreamsChange admits opens s (op.apply s) := by
  cases op with
  | recordSend sid payload =>
    rw [LocalOp.apply]
    split
    · next offset s' h =>
      obtain ⟨c, j, hc, hterm, -, -, -, hrecord, rfl⟩ := recordSend_eq_ok h
      exact .of_change hc rfl rfl rfl (.recorded payload offset j hterm hrecord)
    · exact .refl s
  | finish sid =>
    rw [LocalOp.apply]
    split
    · next f s' h =>
      obtain ⟨c, hc, hterm, -, -, rfl⟩ := finish_eq_ok h
      exact .of_change hc rfl rfl rfl (.finalSent hterm)
    · exact .refl s
  | retractFinal sid => exact modifyStream_changes sid _ fun _ _ => .retracted
  | markLocalAbort sid => exact markLocalAbort_changes sid
  | recvPop | recvCommit => cases hread
  | tryMarkStarted sid =>
    rw [LocalOp.apply, tryMarkStarted]
    split
    · exact .of_eq rfl rfl rfl
    · exact .refl s
  | markCompleted sid => exact .of_eq rfl rfl rfl
  | advanceJournal summaries => exact advanceJournalFromSummary_changes summaries
  | resumeControl control => exact .of_eq rfl rfl rfl
  | close => exact .of_eq rfl rfl rfl

end SessionShared

/-! ## Steps of the machine -/

/-- Which final offset a FIN may announce when `e` happens. -/
def SessionEvent.Admits (admits : Nat → StreamCtx → Nat → Prop) (s : SessionShared) :
    SessionEvent → Prop
  | .frame _ f => f.frameType = .fin →
      ∀ c final, s.streams[s.resolveStream f.streamId]? = some c → c.remoteFinal = none →
        u64CheckedAdd f.byteOffset f.payload.length = some final →
          admits (s.resolveStream f.streamId) c final
  | _ => True

/-- The event may open the stream: with an OPEN off the wire, or under an id of its own. -/
def SessionRun.Opens (r : SessionRun) (sid : Nat) : SessionEvent → Prop
  | .frame _ f => f.frameType = .open_ ∧ f.OnWire ∧ sid = f.streamId
  | .reserveStreamSlot sid' | .sendOpen sid' _ _ => sid = sid' ∧ sid ∈ r.allocated
  | _ => False

/-- What a step does, with the change of the session it stands for. -/
inductive StepAs (admits : Nat → StreamCtx → Nat → Prop) (r : SessionRun) :
    SessionEvent → SessionRun → Prop where
  | session (e : SessionEvent) (s : SessionShared)
      (h : r.session.StreamsChange admits (r.Opens · e) s) : StepAs admits r e (r.withSession s)
  | allocated : StepAs admits r .allocStream
      { r with
        nextStreamId := (r.nextStreamId + 2) % 2 ^ 64
        allocated := r.nextStreamId :: r.allocated }
  | crossed (owner : Nat) (f : Frame) (d : Delivery) (s : SessionShared)
      (h : r.session.Crosses f d s) : StepAs admits r (.frame owner f)
        { r with
          session := s
          frames := r.frames ++ [.delivering owner d]
          crossed := r.crossed ++ d.parcels }
  | enqueued (i owner : Nat) (d : Delivery) (hplace : r.frames[i]? = some (.delivering owner d))
      (hroom : r.session.queueHasRoom d) : StepAs admits r (.enqueue i)
        ((r.withSession (r.session.enqueueDelivered owner d).1).moveFrame i .done)
  | refused (i owner : Nat) (d : Delivery) (hplace : r.frames[i]? = some (.delivering owner d))
      (hfull : ¬r.session.queueHasRoom d) : StepAs admits r (.enqueue i)
        { r.moveFrame i (.refused d) with lost := r.lost ++ d.parcels }
  | shut (i : Nat) (d : Delivery) (s : SessionShared) (hplace : r.frames[i]? = some (.refused d))
      (hs : s.streams = r.session.streams.modify d.streamId fun ctx => ctx.terminate .protocolError)
      (h : r.session.StreamsChange admits (fun _ => False) s) :
      StepAs admits r (.shut i) ((r.withSession s).moveFrame i .done)
  | called (sid : Nat) : StepAs admits r (.recv sid) { r with recvs := r.recvs ++ [.popping sid] }
  | popped (i sid : Nat) (b : Bytes) (s : SessionShared)
      (hplace : r.recvs[i]? = some (.popping sid)) (hpop : r.session.recvPop sid = some (b, s)) :
      StepAs admits r (.recvPop i) ((r.withSession s).moveRecv i (.holding sid b))
  | consumed (i sid : Nat) (b : Bytes) (hplace : r.recvs[i]? = some (.holding sid b)) :
      StepAs admits r (.recvCommit i)
        { (r.withSession (r.session.recvCommit sid b.length).1).moveRecv i (.committed sid b) with
          consumed := r.consumed ++ [(sid, b)] }
  | returned (i sid : Nat) (b : Bytes) (hplace : r.recvs[i]? = some (.committed sid b)) :
      StepAs admits r (.recvReturn i)
        { r.moveRecv i (.returned sid b) with returned := r.returned ++ [(sid, b)] }
  /-- The reader goes on with nothing in its hands; it looks at the queue again only after it
  has seen the stream over. -/
  | moved (e : SessionEvent) (i : Nat) (place place' : RecvPlace)
      (hplace : r.recvs[i]? = some place) (hfrom : place.dropping = ([], []))
      (hto : place'.dropping = ([], []))
      (hended : ∀ sid term, place' = .rechecking sid term → e = .recvCheck i
        ∧ place = .checking sid ∧ r.session.recvEnded sid = (true, term)) :
      StepAs admits r e (r.moveRecv i place')
  | dropped (i : Nat) (place : RecvPlace) (hplace : r.recvs[i]? = some place) :
      StepAs admits r (.recvDrop i)
        { r.moveRecv i .dropped with
          lost := r.lost ++ place.dropping.1
          unreturned := r.unreturned ++ place.dropping.2 }

/-- **Every step is one of these.** -/
theorem step_as {admits : Nat → StreamCtx → Nat → Prop} {r r' : SessionRun} {e : SessionEvent}
    (hadmits : e.Admits admits r.session) (h : sessionStep r e = some r') :
    StepAs admits r e r' := by
  cases e with
  | frame owner f =>
    simp only [sessionStep] at h
    split at h
    · next hwire =>
      have hchanges : SessionShared.FrameChanges admits (r.Opens · (.frame owner f)) r.session f
          (r.session.beginFrame owner f) :=
        SessionShared.beginFrame_changes owner hadmits fun hopen => ⟨hopen, hwire, rfl⟩
      split at h
      · next s o hbegin =>
        rw [hbegin] at hchanges
        obtain rfl := some.inj h
        exact .session _ s hchanges
      · next s d hbegin =>
        rw [hbegin] at hchanges
        obtain rfl := some.inj h
        exact .crossed owner f d s hchanges
    · cases h
  | enqueue i =>
    simp only [sessionStep] at h
    split at h
    · next owner d hplace =>
      unfold SessionShared.enqueue at h
      by_cases hroom : r.session.queueHasRoom d
      · rw [if_pos hroom] at h
        obtain rfl := some.inj h
        exact .enqueued i owner d hplace hroom
      · rw [if_neg hroom] at h
        obtain rfl := some.inj h
        exact .refused i owner d hplace hroom
    · cases h
  | shut i =>
    simp only [sessionStep] at h
    split at h
    · next d hplace =>
      obtain rfl := some.inj h
      refine .shut i d _ hplace rfl ?_
      refine .trans (SessionShared.modifyStream_changes d.streamId _ fun c _ => ?_)
        (.of_eq rfl rfl rfl)
      exact .refused c.recv.unverifiableDuplicates
    · cases h
  | allocStream =>
    obtain rfl := some.inj h
    exact .allocated
  | reserveStreamSlot sid =>
    simp only [sessionStep] at h
    split at h
    · next hid =>
      split at h
      · next s hs =>
        obtain rfl := some.inj h
        exact .session _ s (SessionShared.reserveStreamSlot_changes ⟨rfl, hid⟩ hs)
      · obtain rfl := some.inj h
        exact .session _ _ (.refl r.session)
    · cases h
  | sendOpen sid key payload =>
    simp only [sessionStep] at h
    split at h
    · next hid =>
      split at h
      · next s hs =>
        obtain rfl := some.inj h
        exact .session _ s (SessionShared.sendOpen_changes ⟨rfl, hid⟩ hs)
      · obtain rfl := some.inj h
        exact .session _ _ (.refl r.session)
    · cases h
  | openFailed sid =>
    obtain rfl := some.inj h
    exact .session _ _ (SessionShared.openFailed_changes sid)
  | localOp op =>
    simp only [sessionStep] at h
    split at h
    · cases h
    · next hread =>
      obtain rfl := some.inj h
      exact .session _ _ (SessionShared.localOp_changes (Bool.eq_false_of_not_eq_true hread))
  | recv sid =>
    obtain rfl := some.inj h
    exact .called sid
  | recvPop i =>
    simp only [sessionStep] at h
    split at h
    · next sid hplace =>
      split at h
      · next b s hpop =>
        obtain rfl := some.inj h
        exact .popped i sid b s hplace hpop
      · obtain rfl := some.inj h
        exact .moved _ i _ _ hplace rfl rfl nofun
    · cases h
  | recvCommit i =>
    simp only [sessionStep] at h
    split at h
    · next sid b hplace =>
      obtain rfl := some.inj h
      exact .consumed i sid b hplace
    · cases h
  | recvReturn i =>
    simp only [sessionStep] at h
    split at h
    · next sid b hplace =>
      obtain rfl := some.inj h
      exact .returned i sid b hplace
    · cases h
  | recvCheck i =>
    simp only [sessionStep] at h
    split at h
    · next sid hplace =>
      split at h
      · next term hended =>
        obtain rfl := some.inj h
        refine .moved _ i _ _ hplace rfl rfl fun _ _ heq => ?_
        obtain ⟨rfl, rfl⟩ := RecvPlace.rechecking.inj heq
        exact ⟨rfl, rfl, hended⟩
      · obtain rfl := some.inj h
        exact .moved _ i _ _ hplace rfl rfl nofun
    · cases h
  | recvRecheck i =>
    simp only [sessionStep] at h
    split at h
    · next sid term hplace =>
      split at h
      all_goals
        obtain rfl := some.inj h
        exact .moved _ i _ _ hplace rfl rfl nofun
    · cases h
  | recvPhase i =>
    simp only [sessionStep] at h
    split at h
    · next sid hplace =>
      split at h
      all_goals
        obtain rfl := some.inj h
        exact .moved _ i _ _ hplace rfl rfl nofun
    · cases h
  | recvDrop i =>
    simp only [sessionStep] at h
    split at h
    · next place hplace =>
      split at h
      · obtain rfl := some.inj h
        exact .dropped i place hplace
      · cases h
    · cases h

theorem StepAs.fresh {admits : Nat → StreamCtx → Nat → Prop} {r r' : SessionRun} {e : SessionEvent}
    (h : StepAs admits r e r') :
    ∀ sid ∈ r'.session.streams, sid ∈ r.session.streams ∨ r.Opens sid e := by
  have hone : ∀ (sid : Nat) (c c' : StreamCtx), r.session.streams[sid]? = some c →
      ∀ sid' ∈ r.session.streams.insert sid c', sid' ∈ r.session.streams := by
    intro sid c c' hc sid' hmem
    rcases ExtTreeMap.mem_insert.mp hmem with heq | hold
    · rw [← compare_eq_iff_eq.mp heq]
      exact mem_iff_isSome_getElem?.mpr (hc ▸ rfl)
    · exact hold
  cases h with
  | session e s hs => exact hs.fresh
  | shut i d s hplace hstreams hs => exact fun sid h => (hs.fresh sid h).imp_right False.elim
  | crossed owner f d s hs =>
    obtain ⟨c, w, hc, -, -⟩ := hs
    exact fun sid h => .inl (hone _ c _ hc sid h)
  | enqueued i owner d hplace hroom =>
    have hstreams : (r.session.enqueueDelivered owner d).1.streams = r.session.streams := by
      unfold SessionShared.enqueueDelivered
      rw [if_pos hroom]
    exact fun sid h => .inl (hstreams ▸ h)
  | popped i sid b s hplace hpop =>
    obtain ⟨q, rest, -, -, rfl⟩ := SessionShared.recvPop_eq_some hpop
    exact fun sid h => .inl h
  | consumed i sid b hplace =>
    intro sid' hmem
    change sid' ∈ (r.session.recvCommit sid b.length).1.streams at hmem
    unfold SessionShared.recvCommit at hmem
    split at hmem
    · exact .inl hmem
    · next c hc => exact .inl (hone _ c _ hc sid' hmem)
  | allocated | refused | called | returned | moved | dropped => exact fun sid h => .inl h

/-! ## Invariants of single streams -/

section Invariants

variable {admits : Nat → StreamCtx → Nat → Prop}

variable {sid : Nat}

theorem keeps_of_changes {I : StreamCtx → Prop} {c c' : StreamCtx}
    (hchange : ∀ c c', I c → StreamChange (admits sid) c c' → I c') (hc : I c)
    (h : ReflTransGen (StreamChange (admits sid)) c c') : I c' := by
  induction h with
  | refl => exact hc
  | tail _ hlast ih => exact hchange _ _ ih hlast

theorem SessionShared.StreamsChange.keeps {opens : Nat → Prop} {s s' : SessionShared}
    {I : StreamCtx → Prop} (h : s.StreamsChange admits opens s')
    (hchange : ∀ c c', I c → StreamChange (admits sid) c c' → I c')
    (hs : ∃ c, s.streams[sid]? = some c ∧ I c) : ∃ c, s'.streams[sid]? = some c ∧ I c := by
  obtain ⟨c, hc, hI⟩ := hs
  have hmem := h.kept sid (mem_iff_isSome_getElem?.mpr (hc ▸ rfl))
  rw [mem_iff_isSome_getElem?] at hmem
  obtain ⟨c', hc'⟩ := isSome_iff_exists.mp hmem
  have hchain := h.each sid c' hc'
  rw [SessionShared.ctxOf_of_some hc] at hchain
  exact ⟨c', hc', keeps_of_changes hchange hI hchain⟩

theorem insert_keeps {I : StreamCtx → Prop} {streams : ExtTreeMap Nat StreamCtx} {sid' : Nat}
    {c' : StreamCtx} (hc' : ∀ c, sid = sid' → streams[sid']? = some c → I c → I c')
    (h : ∃ c, streams[sid']? = some c ∧ I c) :
    ∃ c, (streams.insert sid c')[sid']? = some c ∧ I c := by
  obtain ⟨c, hc, hI⟩ := h
  rw [getElem?_insert]
  by_cases heq : sid = sid'
  · rw [if_pos (compare_eq_iff_eq.mpr heq)]
    exact ⟨c', rfl, hc' c heq hc hI⟩
  · rw [if_neg fun hcmp => heq (compare_eq_iff_eq.mp hcmp)]
    exact ⟨c, hc, hI⟩

/-- **A step keeps of one stream** what changes, crossing bytes and readers keep of it. -/
theorem StepAs.keeps {I : StreamCtx → Prop} {r r' : SessionRun} {e : SessionEvent}
    (h : StepAs admits r e r') (hchange : ∀ c c', I c → StreamChange (admits sid) c c' → I c')
    (hcross : ∀ c w off p segments, r.session.streams[sid]? = some c → I c → (∀ final ∈ c.remoteFinal, off + p.length ≤ final) → c.recv.FedAs off p gapCap gapByteCap (w, .ok (.deliver segments)) → I { c with recv := w })
    (hconsume : ∀ c n, I c → I { c with committedOffset := c.committedOffset + n })
    (hs : ∃ c, r.session.streams[sid]? = some c ∧ I c) :
    ∃ c, r'.session.streams[sid]? = some c ∧ I c := by
  cases h with
  | session e s hs' => exact hs'.keeps hchange hs
  | shut i d s hplace hstreams hs' => exact hs'.keeps hchange hs
  | crossed owner f d s hs' =>
    obtain ⟨c₀, w, hc₀, hfinal, hfed⟩ := hs'
    refine insert_keeps (fun c heq hc hI => ?_) hs
    obtain rfl := some.inj ((heq ▸ hc₀).symm.trans hc)
    exact hchange _ _ (hcross c₀ w _ _ _ hc hI hfinal hfed) .noted
  | enqueued i owner d hplace hroom =>
    have hstreams : (r.session.enqueueDelivered owner d).1.streams = r.session.streams := by
      unfold SessionShared.enqueueDelivered
      rw [if_pos hroom]
    show ∃ c, (r.session.enqueueDelivered owner d).1.streams[sid]? = some c ∧ I c
    rw [hstreams]
    exact hs
  | popped i sid' b s hplace hpop =>
    obtain ⟨q, rest, -, -, rfl⟩ := SessionShared.recvPop_eq_some hpop
    exact hs
  | consumed i sid' b hplace =>
    show ∃ c, (r.session.recvCommit sid' b.length).1.streams[sid]? = some c ∧ I c
    unfold SessionShared.recvCommit
    split
    · exact hs
    · next c₀ hc₀ =>
      refine insert_keeps (fun c heq hc hI => ?_) hs
      obtain rfl := some.inj ((heq ▸ hc₀).symm.trans hc)
      exact hchange _ _ (hconsume c₀ b.length hI) .noted
  | allocated | refused | called | returned | moved | dropped => exact hs

/-- **A property of single streams** that holds of a new stream, and that no change, no segment
crossing the window and no reader takes away, holds of every stream in every run whose FINs
are admitted. -/
theorem streams_invariant {G : SessionRun → SessionEvent → Prop} {I : StreamCtx → Prop}
    (hnew : ∀ sid limits, I (.new sid limits))
    (hadmits : ∀ r e, G r e → e.Admits admits r.session)
    (hchange : ∀ sid c c', I c → StreamChange (admits sid) c c' → I c')
    (hcross : ∀ c w off p segments, I c →
      (∀ final ∈ c.remoteFinal, off + p.length ≤ final) →
      c.recv.FedAs off p gapCap gapByteCap (w, .ok (.deliver segments)) →
        I { c with recv := w })
    (hconsume : ∀ c n, I c → I { c with committedOffset := c.committedOffset + n })
    {r : SessionRun} (h : sessionMachine.ReachableUnder G r) :
    ∀ (sid : Nat) (c : StreamCtx), r.session.streams[sid]? = some c → I c := by
  refine h.invariant (I := fun r : SessionRun =>
    ∀ (sid : Nat) (c : StreamCtx), r.session.streams[sid]? = some c → I c) ?_ ?_
  · rintro _ ⟨sessionId, token, isClient, limits, rfl⟩ sid c hc
    simp [SessionRun.init, SessionShared.new] at hc
  intro r e r' hI hguard hstep
  have hsession : ∀ opens s, r.session.StreamsChange admits opens s →
      ∀ (sid : Nat) (c : StreamCtx), s.streams[sid]? = some c → I c := by
    intro opens s hs sid c hc
    refine keeps_of_changes (hchange sid) ?_ (hs.each sid c hc)
    cases hold : r.session.streams[sid]? with
    | some c =>
      rw [SessionShared.ctxOf_of_some hold]
      exact hI sid c hold
    | none =>
      rw [SessionShared.ctxOf, hold]
      exact hnew _ _
  have hone : ∀ (sid : Nat) (c : StreamCtx), I c → ∀ (sid' : Nat) (c' : StreamCtx),
      (r.session.streams.insert sid c)[sid']? = some c' → I c' := by
    intro sid c hc sid' c' hc'
    rcases getElem?_insert_cases hc' with ⟨-, rfl⟩ | ⟨-, hc'⟩
    · exact hc
    · exact hI sid' c' hc'
  cases step_as (hadmits r e hguard) hstep with
  | session e s hs => exact hsession _ s hs
  | shut i d s hplace hstreams hs => exact hsession _ s hs
  | crossed owner f d s hs =>
    obtain ⟨c, w, hc, hfinal, hfed⟩ := hs
    exact hone _ _ (hchange d.streamId _ _ (hcross c w _ _ _ (hI _ _ hc) hfinal hfed) .noted)
  | enqueued i owner d hplace hroom =>
    have hstreams : (r.session.enqueueDelivered owner d).1.streams = r.session.streams := by
      unfold SessionShared.enqueueDelivered
      rw [if_pos hroom]
    exact fun sid c hc => hI sid c (hstreams ▸ hc)
  | popped i sid b s hplace hpop =>
    obtain ⟨q, rest, -, -, rfl⟩ := SessionShared.recvPop_eq_some hpop
    exact hI
  | consumed i sid b hplace =>
    intro sid' c' hc'
    change (r.session.recvCommit sid b.length).1.streams[sid']? = some c' at hc'
    unfold SessionShared.recvCommit at hc'
    split at hc'
    · exact hI sid' c' hc'
    · next c hc =>
      exact hone _ _ (hchange sid _ _ (hconsume c b.length (hI sid c hc)) .noted) sid' c' hc'
  | allocated | refused | called | returned | moved | dropped => exact hI

end Invariants

end Dweb
