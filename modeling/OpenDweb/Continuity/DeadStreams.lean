import OpenDweb.Continuity.CleanEof

/-!
# OpenDweb — what a stream that ended in error still holds

The gap buffers, the delivery queues, the journals and the active streams have budgets of the
whole session. A stream that ends in error leaves its journal and its slot; what it had in its
gap buffer and in its delivery queue stays, and late frames may still add to both.

* **`SessionShared.living`** — the session without the streams that ended in error;
  **`BudgetsLive`**: every budget, and every answer to DATA, is as there.
* **`EndsBare`** — the condition: what ends in error holds nothing, and gets nothing later.
* **`budgets_live`** — under it, the budgets are those of the living streams in every run.
-/

namespace Dweb

open Std (ExtTreeMap)
open Option Std.ExtTreeMap Bool

/-! ## The living part of a session -/

namespace SessionShared

/-- The session, had the streams that ended in error left nothing behind. -/
def living (s : SessionShared) : SessionShared :=
  { s with
    streams := s.streams.filter fun _ c => !isErrorTerm c.term
    delivered := s.delivered.filter fun sid _ =>
      s.streams[sid]?.any fun c => !isErrorTerm c.term }

/-- The budgets of the session are used by living streams alone, and DATA for one of them is
answered as if there were no others. -/
structure BudgetsLive (s : SessionShared) : Prop where
  gapBytes : (mapSum s.streams fun c => c.recv.gapBytes)
    = mapSum s.living.streams fun c => c.recv.gapBytes
  queuedBytes : mapSum s.delivered DeliverQueue.bytes = mapSum s.living.delivered DeliverQueue.bytes
  journalBytes : (mapSum s.streams fun c => c.journal.heldBytes)
    = mapSum s.living.streams fun c => c.journal.heldBytes
  journalSegments : (mapSum s.streams fun c => c.journal.segmentsLen)
    = mapSum s.living.streams fun c => c.journal.segmentsLen
  active : (mapSum s.streams fun c => if c.quotaReapable then 0 else 1)
    = mapSum s.living.streams fun c => if c.quotaReapable then 0 else 1
  answered : ∀ (owner : Nat) (f : Frame), f.frameType = .data →
    ¬s.StreamFailed (s.resolveStream f.streamId) →
      (s.handleFrame owner f).2 = (s.living.handleFrame owner f).2

end SessionShared

/-! ## The condition -/

def StreamJournal.Clears (j : StreamJournal) : Prop :=
  j.segments.isEmpty = true ∨ (j.ackedOffset < j.nextSendOffset
    ∧ ∀ p ∈ j.segments.toList, p.1 + p.2.length ≤ j.nextSendOffset)

instance (j : StreamJournal) : Decidable j.Clears := by
  unfold StreamJournal.Clears
  infer_instance

namespace SessionShared

def queuedBytes (s : SessionShared) (sid : Nat) : Nat :=
  contribution s.delivered DeliverQueue.bytes sid

/-- The stream has ended in error, or may do so and leave nothing behind. -/
def MayEnd (s : SessionShared) (sid : Nat) : Prop :=
  ∀ c ∈ s.streams[sid]?, isErrorTerm c.term = true
    ∨ (c.recv.gapBytes = 0 ∧ s.queuedBytes sid = 0 ∧ c.journal.Clears)

def passes (s : SessionShared) (f : Frame) : Bool :=
  f.sessionId = s.sessionId && !s.peerStateExhausted && s.directionOk f && s.parityOk f

/-- DATA that would take the gap buffers of the session beyond their budget. -/
def overGapBudget (s : SessionShared) (f : Frame) (c : StreamCtx) : Prop :=
  gapSessionByteCap < (mapSum s.streams fun ctx => ctx.recv.gapBytes)
    + c.recv.incomingGapBytes f.byteOffset f.payload

instance (s : SessionShared) (f : Frame) (c : StreamCtx) : Decidable (s.overGapBudget f c) := by
  unfold overGapBudget
  infer_instance

end SessionShared

def StreamCtx.feed (c : StreamCtx) (f : Frame) : Except GapOverflow SegmentAction :=
  (c.recv.feedWithLimits f.byteOffset f.payload gapCap gapByteCap).2

/-- The window takes nothing: the bytes disagree, or there is no room for them. -/
def refusesSegment : Except GapOverflow SegmentAction → Bool
  | .ok (.overlapMismatch _ _) | .error _ => true
  | .ok (.deliver _) | .ok .duplicate | .ok .buffered => false

namespace SessionShared

def inRange (f : Frame) (c : StreamCtx) : Prop :=
  f.byteOffset + f.payload.length < 2 ^ 64
    ∧ ∀ final ∈ c.remoteFinal, f.byteOffset + f.payload.length ≤ final

instance (f : Frame) (c : StreamCtx) : Decidable (inRange f c) := by
  unfold inRange
  infer_instance

/-- DATA that its stream is ended for finds nothing of the stream, and DATA that is kept for
later has a stream that has not ended in error. -/
def DataEndsBare (s : SessionShared) (f : Frame) : Prop :=
  ∀ c ∈ s.streams[s.resolveStream f.streamId]?, inRange f c →
    (s.overGapBudget f c ∨ refusesSegment (c.feed f) = true →
      s.MayEnd (s.resolveStream f.streamId))
    ∧ (¬s.overGapBudget f c → isErrorTerm c.term = true → c.feed f = .ok .buffered →
      f.payload = [])

def OpenEndsBare (s : SessionShared) (f : Frame) : Prop :=
  f.streamId ∈ s.resetTombstones → ∀ c ∈ s.streams[f.streamId]?, isErrorTerm c.term = true
    ∨ (c.recv.gapBytes = 0 ∧ s.queuedBytes f.streamId = 0 ∧ c.journal.segments.isEmpty = true)

/-- What a frame may do to the streams that end in error. -/
def FrameEndsBare (s : SessionShared) (f : Frame) : Prop :=
  match f.frameType with
  | .data => s.DataEndsBare f
  | .open_ => s.OpenEndsBare f
  | .reset => s.MayEnd (s.resolveStream f.streamId)
  | _ => True

end SessionShared

/-- **The condition on a step**: a stream that it ends in error holds nothing, and a stream that
has ended so gets nothing. -/
def EndsBare (r : SessionRun) : SessionEvent → Prop
  | .frame _ f => r.session.passes f = true → r.session.FrameEndsBare f
  | .enqueue i =>
    match r.frames[i]? with
    | some (.delivering _ d) => r.session.queueHasRoom d →
      (∀ c ∈ r.session.streams[d.streamId]?, isErrorTerm c.term = false)
        ∨ (d.segments.map List.length).sum = 0
    | _ => True
  | .shut i =>
    match r.frames[i]? with
    | some (.refused d) => r.session.MayEnd d.streamId
    | _ => True
  | .openFailed sid | .localOp (.markLocalAbort sid) => r.session.MayEnd sid
  | _ => True

namespace SessionShared

instance (s : SessionShared) (sid : Nat) : Decidable (s.MayEnd sid) := by
  unfold MayEnd
  infer_instance

instance (s : SessionShared) (f : Frame) : Decidable (s.FrameEndsBare f) := by
  unfold FrameEndsBare DataEndsBare OpenEndsBare
  split
  all_goals infer_instance

end SessionShared

instance (r : SessionRun) : (e : SessionEvent) → Decidable (EndsBare r e)
  | .frame .. | .openFailed _ | .localOp (.markLocalAbort _) => by
    unfold EndsBare
    infer_instance
  | .enqueue i | .shut i => by
    unfold EndsBare
    dsimp only
    match r.frames[i]? with
    | none | some (.delivering ..) | some (.refused _) | some .done =>
      dsimp only
      infer_instance
  | .localOp (.recordSend ..) | .localOp (.finish _) | .localOp (.retractFinal _)
  | .localOp (.recvPop _) | .localOp (.recvCommit ..) | .localOp (.tryMarkStarted _)
  | .localOp (.markCompleted _) | .localOp (.advanceJournal _) | .localOp (.resumeControl _)
  | .localOp .close | .allocStream | .reserveStreamSlot _ | .sendOpen .. | .recv _ | .recvPop _
  | .recvCommit _ | .recvReturn _ | .recvCheck _ | .recvRecheck _ | .recvPhase _ | .recvDrop _ =>
    .isTrue trivial

/-! ## What ended in error holds nothing -/

namespace SessionShared

/-- The streams that ended in error hold nothing, and only living ones have bytes queued. -/
structure DeadBare (s : SessionShared) : Prop where
  streams : ∀ (sid : Nat) (c : StreamCtx), s.streams[sid]? = some c →
    isErrorTerm c.term = true → c.recv.gapBytes = 0 ∧ c.journal.segments.isEmpty = true
  queues : ∀ sid, 0 < s.queuedBytes sid →
    ∃ c, s.streams[sid]? = some c ∧ isErrorTerm c.term = false

variable {s s' : SessionShared}

variable {sid : Nat} {f : Frame}

theorem DeadBare.bare (h : s.DeadBare) {c : StreamCtx} (hc : s.streams[sid]? = some c)
    (hterm : isErrorTerm c.term = true) :
    c.recv.gapBytes = 0 ∧ c.journal.segments.isEmpty = true ∧ s.queuedBytes sid = 0 := by
  obtain ⟨hgap, hjournal⟩ := h.streams sid c hc hterm
  refine ⟨hgap, hjournal, Nat.eq_zero_of_not_pos fun hpos => ?_⟩
  obtain ⟨c', hc', hlive⟩ := h.queues sid hpos
  obtain rfl := some.inj (hc.symm.trans hc')
  rw [hterm] at hlive
  cases hlive

theorem DeadBare.of_eq (h : s.DeadBare) (hstreams : s'.streams = s.streams)
    (hdelivered : s'.delivered = s.delivered) : s'.DeadBare where
  streams sid c hc := h.streams sid c (hstreams ▸ hc)
  queues sid hpos := by
    unfold queuedBytes at hpos
    rw [hdelivered] at hpos
    rw [hstreams]
    exact h.queues sid hpos

theorem DeadBare.of_insert (h : s.DeadBare) {c' : StreamCtx}
    (hstreams : s'.streams = s.streams.insert sid c') (hdelivered : s'.delivered = s.delivered)
    (hc' : isErrorTerm c'.term = true → c'.recv.gapBytes = 0 ∧ c'.journal.segments.isEmpty = true ∧ s.queuedBytes sid = 0) :
    s'.DeadBare where
  streams sid' c hc hterm := by
    rw [hstreams] at hc
    rcases getElem?_insert_cases hc with ⟨-, rfl⟩ | ⟨-, hc⟩
    · exact ⟨(hc' hterm).1, (hc' hterm).2.1⟩
    · exact h.streams sid' c hc hterm
  queues sid' hpos := by
    unfold queuedBytes at hpos
    rw [hdelivered] at hpos
    rw [hstreams, getElem?_insert]
    split
    · next heq =>
      obtain rfl := compare_eq_iff_eq.mp heq
      refine ⟨c', rfl, eq_false_of_not_eq_true fun hterm => ?_⟩
      have hempty : contribution s.delivered DeliverQueue.bytes sid = 0 := (hc' hterm).2.2
      omega
    · exact h.queues sid' hpos

/-! ### The sums -/

theorem getElem?_living (h : ¬s.StreamFailed sid) : s.living.streams[sid]? = s.streams[sid]? := by
  show (s.streams.filter fun _ c => !isErrorTerm c.term)[sid]? = _
  rw [getElem?_filter']
  cases hc : s.streams[sid]? with
  | none => rfl
  | some c =>
    have hlive : isErrorTerm c.term = false :=
      eq_false_of_not_eq_true fun hterm => h ⟨c, hc, hterm⟩
    simp [Option.filter, hlive]

theorem DeadBare.contribution_living (h : s.DeadBare) (sid : Nat) :
    contribution s.living.delivered DeliverQueue.bytes sid = s.queuedBytes sid := by
  show contribution (s.delivered.filter _) DeliverQueue.bytes sid = _
  have hbytes := h.queues sid
  unfold queuedBytes contribution at hbytes ⊢
  rw [getElem?_filter']
  cases hq : s.delivered[sid]? with
  | none => rfl
  | some q =>
    rw [hq] at hbytes
    by_cases hpos : 0 < q.bytes
    · obtain ⟨c, hc, hlive⟩ := hbytes hpos
      simp [Option.filter, hc, hlive]
    · have hzero : q.bytes = 0 := Nat.eq_zero_of_not_pos hpos
      by_cases hkeep : s.streams[sid]?.any (fun c => !isErrorTerm c.term) = true
      · simp [Option.filter, hkeep]
      · simp [Option.filter, hkeep, hzero]

theorem DeadBare.mapSum_delivered (h : s.DeadBare) :
    mapSum s.delivered DeliverQueue.bytes = mapSum s.living.delivered DeliverQueue.bytes :=
  Nat.le_antisymm (mapSum_le_mapSum fun sid => Nat.le_of_eq (h.contribution_living sid).symm)
    (mapSum_le_mapSum fun sid => Nat.le_of_eq (h.contribution_living sid))

theorem mapSum_living {g : StreamCtx → Nat}
    (hg : ∀ (sid : Nat) (c : StreamCtx), s.streams[sid]? = some c → isErrorTerm c.term = true →
      g c = 0) : mapSum s.streams g = mapSum s.living.streams g :=
  mapSum_filter fun sid c hc hkeep => hg sid c hc (by simpa using hkeep)

theorem DeadBare.queueHasRoom_iff (h : s.DeadBare) (d : Delivery) :
    s.queueHasRoom d ↔ s.living.queueHasRoom d := by
  have hown := h.contribution_living d.streamId
  have hall := h.mapSum_delivered
  unfold queuedBytes contribution at hown
  unfold queueHasRoom
  rw [hown, hall]

/-! ### Answers -/

theorem enqueueDelivered_outcome (s : SessionShared) (owner : Nat) (d : Delivery) :
    (s.enqueueDelivered owner d).2
      = .ofReply (if s.queueHasRoom d then d.ack else s.resetFrame d.streamId) := by
  unfold enqueueDelivered
  split <;> rfl

theorem handleData_rest (s : SessionShared) (f : Frame) :
    (s.handleData f).1.delivered = s.delivered ∧ (s.handleData f).1.sessionId = s.sessionId
      ∧ (s.handleData f).1.isClient = s.isClient := by
  unfold handleData
  extract_lets sid reset sessionGapBytes
  dsimp only
  repeat' split
  all_goals exact ⟨rfl, rfl, rfl⟩

theorem handleData_congr {t : SessionShared} (haliases : t.aliases = s.aliases)
    (hid : t.sessionId = s.sessionId) (hclient : t.isClient = s.isClient)
    (hsum : (mapSum t.streams fun c => c.recv.gapBytes) = mapSum s.streams fun c => c.recv.gapBytes)
    (hstream : t.streams[s.resolveStream f.streamId]? = s.streams[s.resolveStream f.streamId]?) :
    (t.handleData f).2 = (s.handleData f).2 := by
  have hresolve : t.resolveStream f.streamId = s.resolveStream f.streamId := by
    unfold resolveStream
    rw [haliases]
  have hreset : ∀ sid, t.resetFrame sid = s.resetFrame sid := fun sid => by
    unfold resetFrame sendDirection
    rw [hid, hclient]
  have hack : ∀ sid dir off, t.ackFrame sid dir off = s.ackFrame sid dir off := by
    intro sid dir off
    unfold ackFrame
    rw [hid]
  unfold handleData
  dsimp only
  rw [hresolve, hstream, hsum, hreset]
  cases s.streams[s.resolveStream f.streamId]? with
  | none => rfl
  | some c =>
    dsimp only
    cases u64CheckedAdd f.byteOffset f.payload.length with
    | none => rfl
    | some frameEnd =>
      dsimp only
      rw [hack]
      repeat' split
      all_goals rfl

theorem beginFrame_rejected (owner : Nat) (h : s.passes f = false) :
    ∃ t, s.beginFrame owner f = (t, .done .drop) ∧ t.streams = s.streams
      ∧ t.delivered = s.delivered := by
  unfold beginFrame
  split
  · exact ⟨_, rfl, rfl, rfl⟩
  · next hid =>
    split
    · exact ⟨_, rfl, rfl, rfl⟩
    · next hexhausted =>
      split
      · exact ⟨_, rfl, rfl, rfl⟩
      · next hdirection =>
        split
        · exact ⟨_, rfl, rfl, rfl⟩
        · next hparity =>
          have hpasses : s.passes f = true := by
            simp only [passes, and_eq_true, decide_eq_true_eq, not_eq_true']
            exact ⟨⟨⟨not_not.mp hid, eq_false_of_not_eq_true hexhausted⟩,
              not_not.mp hdirection⟩, not_not.mp hparity⟩
          rw [h] at hpasses
          cases hpasses

theorem beginFrame_passed (owner : Nat) (h : s.passes f = true) :
    s.beginFrame owner f = match f.frameType with
      | .data => s.handleData f
      | .ack => ((s.handleAck owner f).1, .done (s.handleAck owner f).2)
      | .fin => ((s.handleFin f).1, .done (s.handleFin f).2)
      | .open_ => ((s.handleOpen f).1, .done (s.handleOpen f).2)
      | .reset => ((s.handleReset f).1, .done (s.handleReset f).2)
      | _ => (s, .done .drop) := by
  simp only [passes, and_eq_true, decide_eq_true_eq, not_eq_true'] at h
  obtain ⟨⟨⟨hid, hexhausted⟩, hdirection⟩, hparity⟩ := h
  have hopen : ¬s.peerStateExhausted = true := by rw [hexhausted]; exact Bool.false_ne_true
  unfold beginFrame
  refine (if_neg (not_not.mpr hid)).trans ((if_neg hopen).trans
    ((if_neg (not_not.mpr hdirection)).trans ((if_neg (not_not.mpr hparity)).trans ?_)))
  cases f.frameType <;> rfl

theorem handleFrame_data {owner : Nat} (hdata : f.frameType = .data) (h : s.passes f = true) :
    (s.handleFrame owner f).2 = match (s.handleData f).2 with
      | .done outcome => outcome
      | .delivering d => ((s.handleData f).1.enqueueDelivered owner d).2 := by
  have hbegin := beginFrame_passed owner h
  rw [hdata] at hbegin
  unfold handleFrame
  rw [hbegin]
  obtain ⟨t, step⟩ := s.handleData f
  cases step with
  | done outcome => rfl
  | delivering d => rfl

/-- **The budgets live** where the ended streams hold nothing. -/
theorem DeadBare.budgetsLive (h : s.DeadBare) : s.BudgetsLive where
  gapBytes := mapSum_living fun sid c hc hterm => (h.streams sid c hc hterm).1
  queuedBytes := h.mapSum_delivered
  journalBytes := mapSum_living fun sid c hc hterm => by
    have hempty := ExtTreeMap.isEmpty_iff.mp (h.streams sid c hc hterm).2
    unfold StreamJournal.heldBytes
    rw [hempty, mapSum_empty]
  journalSegments := mapSum_living fun sid c hc hterm => by
    have hempty := ExtTreeMap.isEmpty_iff.mp (h.streams sid c hc hterm).2
    unfold StreamJournal.segmentsLen
    rw [hempty]
    rfl
  active := mapSum_living fun sid c hc hterm => by
    have hreapable : c.quotaReapable = true := by
      unfold StreamCtx.quotaReapable
      rw [hterm, Bool.true_or]
    rw [if_pos hreapable]
  answered owner f hdata hlive := by
    have hgap : (mapSum s.living.streams fun c => c.recv.gapBytes)
        = mapSum s.streams fun c => c.recv.gapBytes :=
      (mapSum_living fun sid c hc hterm => (h.streams sid c hc hterm).1).symm
    have hstep : (s.living.handleData f).2 = (s.handleData f).2 :=
      handleData_congr rfl rfl rfl hgap (getElem?_living hlive)
    by_cases hpasses : s.passes f = true
    · rw [handleFrame_data hdata hpasses, handleFrame_data hdata (s := s.living) hpasses, hstep]
      split
      · rfl
      · next d hd =>
        obtain ⟨hdelivered, hid, hclient⟩ := handleData_rest s f
        obtain ⟨hdelivered', hid', hclient'⟩ := handleData_rest s.living f
        have hreset : (s.living.handleData f).1.resetFrame d.streamId
            = (s.handleData f).1.resetFrame d.streamId := by
          unfold resetFrame sendDirection
          rw [hid, hid', hclient, hclient']
          rfl
        have hroom : (s.handleData f).1.queueHasRoom d
            ↔ (s.living.handleData f).1.queueHasRoom d := by
          have hiff := h.queueHasRoom_iff d
          unfold queueHasRoom at hiff ⊢
          rw [hdelivered, hdelivered']
          exact hiff
        rw [enqueueDelivered_outcome, enqueueDelivered_outcome, hreset]
        simp only [hroom]
    · obtain ⟨t, ht, -, -⟩ := beginFrame_rejected owner (eq_false_of_not_eq_true hpasses)
      obtain ⟨t', ht', -, -⟩ := beginFrame_rejected owner (s := s.living)
        (eq_false_of_not_eq_true hpasses)
      unfold handleFrame
      rw [ht, ht']

end SessionShared

/-! ## Each step keeps it -/

namespace StreamJournal

theorem isEmpty_advanceAck {j : StreamJournal} {x : Nat} (h : j.segments.isEmpty = true) :
    (j.advanceAck x).segments.isEmpty = true := by
  rw [ExtTreeMap.isEmpty_iff] at h ⊢
  refine ext_getElem? fun off => ?_
  cases hp : (j.advanceAck x).segments[off]? with
  | none => simp
  | some p =>
    have hold := getElem?_of_advanceAck hp
    simp [h] at hold

theorem Clears.isEmpty {j : StreamJournal} (h : j.Clears) :
    (j.advanceAck j.nextOffset).segments.isEmpty = true := by
  rcases h with hempty | ⟨hacked, hends⟩
  · exact isEmpty_advanceAck hempty
  · rw [ExtTreeMap.isEmpty_iff]
    refine ext_getElem? fun off => ?_
    unfold advanceAck nextOffset
    rw [if_neg (by omega)]
    show (freeBelow j.segments (min j.nextSendOffset j.nextSendOffset))[off]? = _
    rw [getElem?_freeBelow, getElem?_empty]
    cases hp : j.segments[off]? with
    | none => rfl
    | some p =>
      have hend : off + p.length ≤ j.nextSendOffset :=
        hends (off, p) (mem_toList_iff_getElem?_eq_some.mpr hp)
      exact if_pos (by omega)

end StreamJournal

namespace SessionShared

variable {s s' : SessionShared} {sid : Nat} {c : StreamCtx} {f : Frame}

theorem DeadBare.ended (h : s.DeadBare) (hmay : s.MayEnd sid) (hc : s.streams[sid]? = some c) :
    c.recv.gapBytes = 0
      ∧ (c.journal.advanceAck c.journal.nextOffset).segments.isEmpty = true
      ∧ s.queuedBytes sid = 0 := by
  rcases hmay c hc with hterm | ⟨hgap, hqueued, hclears⟩
  · obtain ⟨hgap, hempty, hqueued⟩ := h.bare hc hterm
    exact ⟨hgap, StreamJournal.isEmpty_advanceAck hempty, hqueued⟩
  · exact ⟨hgap, hclears.isEmpty, hqueued⟩

theorem DeadBare.terminated (h : s.DeadBare) {c' : StreamCtx} {t : StreamTerm}
    (hstreams : s'.streams = s.streams.insert sid (c'.terminate t))
    (hdelivered : s'.delivered = s.delivered) (hmay : s.MayEnd sid)
    (hc : s.streams[sid]? = some c) (hgap : c'.recv.gapBytes = c.recv.gapBytes)
    (hjournal : c'.journal = c.journal) : s'.DeadBare := by
  refine h.of_insert hstreams hdelivered fun _ => ?_
  rw [terminate_recv, terminate_journal, hgap, hjournal]
  exact h.ended hmay hc

theorem DeadBare.handleData (h : s.DeadBare) (hguard : s.DataEndsBare f) :
    (s.handleData f).1.DeadBare := by
  unfold SessionShared.handleData
  extract_lets sid reset sessionGapBytes
  split
  · exact h.of_eq rfl rfl
  next c hc =>
  split
  · exact h.of_eq rfl rfl
  next frameEnd hend =>
  obtain ⟨rfl, hfits⟩ := u64CheckedAdd_eq_some hend
  split
  · exact h.of_eq rfl rfl
  next hfinal =>
  have hrange : inRange f c := by
    refine ⟨hfits, fun final hsome => Nat.not_lt.mp fun hlt => hfinal ?_⟩
    rw [mem_def.mp hsome]
    exact decide_eq_true hlt
  obtain ⟨hends, hkept⟩ := hguard c hc hrange
  split
  · next hover => exact h.terminated rfl rfl (hends (.inl hover)) hc rfl rfl
  next hunder =>
  have hfed := c.recv.feedWithLimits_fedAs f.byteOffset f.payload gapCap gapByteCap
  have hanswer : (c.recv.feedWithLimits f.byteOffset f.payload gapCap gapByteCap).2
      = c.feed f := rfl
  generalize c.recv.feedWithLimits f.byteOffset f.payload gapCap gapByteCap = r at hfed hanswer ⊢
  obtain ⟨w, a⟩ := r
  dsimp only at hanswer ⊢
  rw [← hanswer] at hends hkept
  have hgap := gapBytes_fedAs hfed
  -- a stream that ended in error takes nothing into its window
  have hwindow : isErrorTerm c.term = true → a = .ok .buffered ∨ w.gapBytes ≤ c.recv.gapBytes →
      w.gapBytes = 0 ∧ c.journal.segments.isEmpty = true ∧ s.queuedBytes sid = 0 := by
    intro hterm haction
    obtain ⟨hzero, hempty, hqueued⟩ := h.bare hc hterm
    refine ⟨?_, hempty, hqueued⟩
    rcases haction with rfl | hle
    · rw [hkept hunder hterm rfl, List.length_nil] at hgap
      omega
    · omega
  split
  · refine h.of_insert rfl rfl fun hterm => ?_
    rw [noteAck_term] at hterm
    rw [noteAck_recv, noteAck_journal]
    exact hwindow hterm (.inr (hgap.resolve_right fun hbuffered => by cases hbuffered.1))
  · refine h.of_insert rfl rfl fun hterm => ?_
    rw [noteAck_term] at hterm
    rw [noteAck_recv, noteAck_journal]
    exact hwindow hterm (.inr (hgap.resolve_right fun hbuffered => by cases hbuffered.1))
  · exact h.of_insert rfl rfl fun hterm => hwindow hterm (.inl rfl)
  · obtain ⟨n, rfl⟩ := fedAs_refused hfed fun a h => ⟨_, _, (Except.ok.inj h).symm⟩
    exact h.terminated rfl rfl (hends (.inr rfl)) hc rfl rfl
  · obtain ⟨n, rfl⟩ := fedAs_refused hfed nofun
    exact h.terminated rfl rfl (hends (.inr rfl)) hc rfl rfl

theorem DeadBare.kept (h : s.DeadBare) {c' : StreamCtx}
    (hstreams : s'.streams = s.streams.insert sid c') (hdelivered : s'.delivered = s.delivered)
    (hc : s.streams[sid]? = some c)
    (hterm : isErrorTerm c'.term = true → isErrorTerm c.term = true)
    (hgap : c'.recv.gapBytes = c.recv.gapBytes)
    (hjournal : c.journal.segments.isEmpty = true → c'.journal.segments.isEmpty = true) :
    s'.DeadBare := by
  refine h.of_insert hstreams hdelivered fun herror => ?_
  obtain ⟨hzero, hempty, hqueued⟩ := h.bare hc (hterm herror)
  exact ⟨hgap.trans hzero, hjournal hempty, hqueued⟩

theorem DeadBare.handleAck (h : s.DeadBare) (owner : Nat) : (s.handleAck owner f).1.DeadBare := by
  unfold SessionShared.handleAck
  extract_lets sid
  split
  · exact h.of_eq rfl rfl
  · next c hc =>
    split
    · exact h.of_eq rfl rfl
    · exact h.kept rfl rfl hc id rfl StreamJournal.isEmpty_advanceAck

theorem DeadBare.handleFin (h : s.DeadBare) : (s.handleFin f).1.DeadBare := by
  unfold SessionShared.handleFin
  extract_lets sid
  split
  · exact h.of_eq rfl rfl
  · next c hc =>
    split
    · exact h.of_eq rfl rfl
    · next final hfinal =>
      split
      · dsimp only
        split <;> exact h.of_eq rfl rfl
      · refine h.kept rfl rfl hc (fun herror => ?_) ?_ ?_
        · -- `fin` is no error
          by_contra hlive
          unfold StreamCtx.setTerm at herror
          rw [if_neg hlive] at herror
          cases herror
        · rw [setTerm_recv]
        · rw [setTerm_journal]
          exact id

theorem DeadBare.handleReset (h : s.DeadBare) (hguard : s.MayEnd (s.resolveStream f.streamId)) :
    (s.handleReset f).1.DeadBare := by
  unfold SessionShared.handleReset
  extract_lets sid
  split
  · next c hc => exact h.terminated rfl rfl hguard hc rfl rfl
  · repeat' split
    all_goals exact h.of_eq rfl rfl

theorem DeadBare.reserveStreamSlot (h : s.DeadBare) (hs : s.reserveStreamSlot sid = .ok s') :
    s'.DeadBare := by
  obtain ⟨-, ⟨-, rfl⟩ | ⟨hnew, rfl⟩⟩ := reserveStreamSlot_eq_ok hs
  · exact h
  · exact h.of_insert rfl rfl nofun

theorem DeadBare.reserved (h : s.DeadBare) (hs : s.reserveStreamSlot sid = .ok s')
    (hc : s'.streams[sid]? = some c)
    (hold : ∀ c ∈ s.streams[sid]?, isErrorTerm c.term = true
      ∨ (c.recv.gapBytes = 0 ∧ s.queuedBytes sid = 0 ∧ c.journal.segments.isEmpty = true)) :
    c.recv.gapBytes = 0 ∧ c.journal.segments.isEmpty = true ∧ s'.queuedBytes sid = 0 := by
  obtain ⟨-, ⟨-, rfl⟩ | ⟨hnew, rfl⟩⟩ := reserveStreamSlot_eq_ok hs
  · rcases hold c hc with hterm | ⟨hgap, hqueued, hempty⟩
    · exact h.bare hc hterm
    · exact ⟨hgap, hempty, hqueued⟩
  · obtain rfl := some.inj (getElem?_insert_self.symm.trans hc)
    -- nothing of a new stream is queued
    refine ⟨rfl, rfl, Nat.eq_zero_of_not_pos fun hpos => hnew ?_⟩
    obtain ⟨c, hc, -⟩ := h.queues sid hpos
    exact mem_iff_isSome_getElem?.mpr (hc ▸ rfl)

theorem DeadBare.handleOpen (h : s.DeadBare) (hguard : s.OpenEndsBare f) :
    (s.handleOpen f).1.DeadBare := by
  have hcanonical : (s.onOpen f.streamId (parseIdemKey f.payload)).2.2 = true →
      (s.onOpen f.streamId (parseIdemKey f.payload)).2.1 = f.streamId := by
    unfold onOpen
    split
    · exact nofun
    · exact fun _ => rfl
  obtain ⟨hstreams, hdelivered, htombstones⟩ :
      (s.onOpen f.streamId (parseIdemKey f.payload)).1.streams = s.streams
      ∧ (s.onOpen f.streamId (parseIdemKey f.payload)).1.delivered = s.delivered
      ∧ (s.onOpen f.streamId (parseIdemKey f.payload)).1.resetTombstones = s.resetTombstones := by
    unfold onOpen
    split <;> exact ⟨rfl, rfl, rfl⟩
  have hbooked := h.of_eq hstreams hdelivered
  unfold SessionShared.handleOpen
  dsimp only
  split
  · next hnew =>
    rw [hcanonical hnew]
    split
    · exact hbooked.of_eq rfl rfl
    · next t ht =>
      have hreserved := hbooked.reserveStreamSlot ht
      split
      · next htombstone =>
        cases hc : t.streams[f.streamId]? with
        | none => exact hreserved.of_eq (modify_of_none hc) rfl
        | some c =>
          refine hreserved.of_insert (modify_eq_insert hc) rfl fun _ => ?_
          rw [setTerm_recv, setTerm_journal]
          have hbare := hbooked.reserved ht hc fun c' hc' => ?_
          · exact hbare
          · rw [hstreams] at hc'
            have hlocked : f.streamId ∈ s.resetTombstones := by
              obtain ⟨-, ⟨-, rfl⟩ | ⟨-, rfl⟩⟩ := reserveStreamSlot_eq_ok ht
              all_goals exact htombstones ▸ htombstone
            have hguarded := hguard hlocked c' hc'
            unfold queuedBytes at hguarded ⊢
            rw [hdelivered]
            exact hguarded
      · exact hreserved.of_eq rfl rfl
  · split
    · exact hbooked.of_eq rfl rfl
    · exact hbooked

theorem DeadBare.markLocalAbort (h : s.DeadBare) (hmay : s.MayEnd sid) :
    (s.markLocalAbort sid).DeadBare := by
  unfold SessionShared.markLocalAbort
  split
  · exact h
  · next c hc =>
    refine h.of_insert rfl rfl fun _ => ?_
    have hrecv : c.abort.recv = c.recv := setTerm_recv c .localAbort
    show c.abort.recv.gapBytes = 0 ∧ c.abort.journal.segments.isEmpty = true ∧ _
    rw [hrecv, abort_journal]
    exact h.ended hmay hc

theorem DeadBare.advanceJournalFromSummary (h : s.DeadBare) (summaries : List StreamSummary) :
    (s.advanceJournalFromSummary summaries).DeadBare := by
  unfold SessionShared.advanceJournalFromSummary
  induction summaries generalizing s with
  | nil => exact h
  | cons summary rest ih =>
    refine ih ?_
    unfold applySummary
    split
    · exact h
    · next c hc =>
      split
      · exact h.of_eq rfl rfl
      · exact h.kept rfl rfl hc id rfl StreamJournal.isEmpty_advanceAck

theorem DeadBare.sendOpen (h : s.DeadBare) {key : String} {payload : Bytes}
    {written : Option Frame} (hs : s.sendOpen sid key payload = .ok (written, s')) :
    s'.DeadBare := by
  obtain ⟨t, ht, rfl, -⟩ := sendOpen_eq_ok hs
  exact (h.reserveStreamSlot ht).of_eq rfl rfl

theorem DeadBare.localOp (h : s.DeadBare) {op : LocalOp} (hread : op.isRead = false)
    (hguard : ∀ sid, op = .markLocalAbort sid → s.MayEnd sid) : (op.apply s).DeadBare := by
  cases op with
  | recordSend sid payload =>
    rw [LocalOp.apply]
    split
    · next offset s' hs =>
      obtain ⟨c, j, hc, hterm, -, -, -, hrecord, rfl⟩ := recordSend_eq_ok hs
      exact h.of_insert rfl rfl fun herror => by rw [hterm] at herror; cases herror
    · exact h
  | finish sid =>
    rw [LocalOp.apply]
    split
    · next f s' hs =>
      obtain ⟨c, hc, hterm, -, -, rfl⟩ := finish_eq_ok hs
      exact h.of_insert rfl rfl fun herror => by rw [hterm] at herror; cases herror
    · exact h
  | retractFinal sid =>
    rw [LocalOp.apply, retractFinal]
    cases hc : s.streams[sid]? with
    | some c => exact h.kept (modify_eq_insert hc) rfl hc id rfl id
    | none => exact h.of_eq (modify_of_none hc) rfl
  | markLocalAbort sid => exact h.markLocalAbort (hguard sid rfl)
  | recvPop | recvCommit => cases hread
  | tryMarkStarted sid =>
    rw [LocalOp.apply, tryMarkStarted]
    split
    · exact h.of_eq rfl rfl
    · exact h
  | markCompleted sid => exact h.of_eq rfl rfl
  | advanceJournal summaries => exact h.advanceJournalFromSummary summaries
  | resumeControl control => exact h.of_eq rfl rfl
  | close => exact h.of_eq rfl rfl

theorem DeadBare.beginFrame (h : s.DeadBare) (owner : Nat)
    (hguard : s.passes f = true → s.FrameEndsBare f) : (s.beginFrame owner f).1.DeadBare := by
  by_cases hpasses : s.passes f = true
  · have hframe := hguard hpasses
    unfold FrameEndsBare at hframe
    rw [beginFrame_passed owner hpasses]
    split at hframe
    · next htype =>
      rw [htype]
      exact h.handleData hframe
    · next htype =>
      rw [htype]
      exact h.handleOpen hframe
    · next htype =>
      rw [htype]
      exact h.handleReset hframe
    · split
      · contradiction
      · exact h.handleAck owner
      · exact h.handleFin
      · contradiction
      · contradiction
      · exact h
  · obtain ⟨t, ht, hstreams, hdelivered⟩ :=
      beginFrame_rejected owner (eq_false_of_not_eq_true hpasses)
    rw [ht]
    exact h.of_eq hstreams hdelivered

theorem DeadBare.of_queues (h : s.DeadBare) (hstreams : s'.streams = s.streams)
    (hqueues : ∀ sid, 0 < s'.queuedBytes sid → 0 < s.queuedBytes sid
      ∨ ∃ c, s.streams[sid]? = some c ∧ isErrorTerm c.term = false) : s'.DeadBare where
  streams sid c hc := h.streams sid c (hstreams ▸ hc)
  queues sid hpos := by
    rw [hstreams]
    exact (hqueues sid hpos).elim (h.queues sid) id

theorem DeadBare.recvPop (h : s.DeadBare) {b : Bytes} (hpop : s.recvPop sid = some (b, s')) :
    s'.DeadBare := by
  obtain ⟨q, rest, hq, -, rfl⟩ := recvPop_eq_some hpop
  refine h.of_queues rfl fun sid' hpos => .inl ?_
  unfold queuedBytes at hpos ⊢
  rw [contribution_insert] at hpos
  split at hpos
  · next heq =>
    subst heq
    rw [contribution_of_some hq]
    exact Nat.lt_of_lt_of_le hpos (Nat.sub_le _ _)
  · exact hpos

theorem DeadBare.recvCommit (h : s.DeadBare) (sid len : Nat) :
    (s.recvCommit sid len).1.DeadBare := by
  unfold SessionShared.recvCommit
  split
  · exact h
  · next c hc =>
    refine h.kept rfl rfl hc (fun herror => ?_) ?_ ?_
    · rw [noteAck_term] at herror
      exact herror
    · rw [noteAck_recv]
    · rw [noteAck_journal]
      exact id

theorem DeadBare.enqueueDelivered (h : s.DeadBare) {d : Delivery} (owner : Nat)
    (hroom : s.queueHasRoom d) (hlive : (d.segments.map List.length).sum = 0
      ∨ ∃ c, s.streams[d.streamId]? = some c ∧ isErrorTerm c.term = false) :
    (s.enqueueDelivered owner d).1.DeadBare := by
  unfold SessionShared.enqueueDelivered
  rw [if_pos hroom]
  refine h.of_queues rfl fun sid hpos => ?_
  unfold queuedBytes at hpos ⊢
  rw [contribution_insert] at hpos
  split at hpos
  · next heq =>
    subst heq
    refine hlive.imp_left fun hzero => ?_
    rw [hzero] at hpos
    unfold contribution
    cases hq : s.delivered[d.streamId]? with
    | none =>
      rw [hq] at hpos
      cases hpos
    | some q =>
      rw [hq] at hpos
      exact hpos
  · exact .inl hpos

end SessionShared

section Steps

variable {r r' : SessionRun} {e : SessionEvent}

theorem Accounts.known_of_delivering (h : Accounts r) {i owner : Nat} {d : Delivery}
    (hplace : r.frames[i]? = some (.delivering owner d))
    (hbytes : (d.segments.map List.length).sum ≠ 0) :
    ∃ c, r.session.streams[d.streamId]? = some c := by
  have hset := weighPlaces_set List.length d.streamId FramePlace.parcels hplace .done
  have hbalance := h.balance List.length d.streamId
  have hparcels : weigh List.length d.streamId (FramePlace.parcels (.delivering owner d))
      = (d.segments.map List.length).sum := by
    show ((ofStream d.streamId d.parcels).map List.length).sum = _
    rw [ofStream_parcels, if_pos rfl]
  have hdone : weigh List.length d.streamId (FramePlace.parcels .done) = 0 := rfl
  exact h.known_of_weigh (g := List.length) (by omega)

/-- **Every such step** leaves the ended streams with nothing. -/
theorem SessionShared.DeadBare.step (haccounts : Accounts r) (h : r.session.DeadBare)
    (hguard : EndsBare r e) (hstep : sessionStep r e = some r') : r'.session.DeadBare := by
  cases e with
  | frame owner f =>
    have hframe := h.beginFrame owner hguard
    simp only [sessionStep] at hstep
    split at hstep
    · split at hstep
      all_goals
        next hbegin =>
        rw [hbegin] at hframe
        obtain rfl := some.inj hstep
        exact hframe
    · cases hstep
  | enqueue i =>
    simp only [sessionStep] at hstep
    split at hstep
    · next owner d hplace =>
      simp only [EndsBare, hplace] at hguard
      unfold SessionShared.enqueue at hstep
      by_cases hroom : r.session.queueHasRoom d
      · rw [if_pos hroom] at hstep
        obtain rfl := some.inj hstep
        refine h.enqueueDelivered owner hroom ?_
        by_cases hbytes : (d.segments.map List.length).sum = 0
        · exact .inl hbytes
        · obtain ⟨c, hc⟩ := haccounts.known_of_delivering hplace hbytes
          exact .inr ⟨c, hc, (hguard hroom).resolve_right hbytes c hc⟩
      · rw [if_neg hroom] at hstep
        obtain rfl := some.inj hstep
        exact h
    · cases hstep
  | shut i =>
    simp only [sessionStep] at hstep
    split at hstep
    · next d hplace =>
      simp only [EndsBare, hplace] at hguard
      obtain rfl := some.inj hstep
      cases hc : r.session.streams[d.streamId]? with
      | some c => exact h.terminated (modify_eq_insert hc) rfl hguard hc rfl rfl
      | none => exact h.of_eq (modify_of_none hc) rfl
    · cases hstep
  | allocStream =>
    obtain rfl := some.inj hstep
    exact h
  | reserveStreamSlot sid =>
    simp only [sessionStep] at hstep
    split at hstep
    · split at hstep
      · next s hs =>
        obtain rfl := some.inj hstep
        exact h.reserveStreamSlot hs
      · obtain rfl := some.inj hstep
        exact h
    · cases hstep
  | sendOpen sid key payload =>
    simp only [sessionStep] at hstep
    split at hstep
    · split at hstep
      · next s hs =>
        obtain rfl := some.inj hstep
        exact h.sendOpen hs
      · obtain rfl := some.inj hstep
        exact h
    · cases hstep
  | openFailed sid =>
    obtain rfl := some.inj hstep
    exact (h.markLocalAbort hguard).of_eq rfl rfl
  | localOp op =>
    simp only [sessionStep] at hstep
    split at hstep
    · cases hstep
    · next hread =>
      obtain rfl := some.inj hstep
      refine h.localOp (eq_false_of_not_eq_true hread) fun sid heq => ?_
      subst heq
      exact hguard
  | recvPop i =>
    simp only [sessionStep] at hstep
    split at hstep
    · split at hstep
      · next b s hpop =>
        obtain rfl := some.inj hstep
        exact h.recvPop hpop
      · obtain rfl := some.inj hstep
        exact h
    · cases hstep
  | recvCommit i =>
    simp only [sessionStep] at hstep
    split at hstep
    · next sid b hplace =>
      obtain rfl := some.inj hstep
      exact h.recvCommit sid b.length
    · cases hstep
  | recv sid =>
    obtain rfl := some.inj hstep
    exact h
  | recvReturn i | recvCheck i | recvRecheck i | recvPhase i | recvDrop i =>
    -- these only move a reader
    simp only [sessionStep] at hstep
    repeat' split at hstep
    all_goals cases hstep
    all_goals exact h

end Steps

/-! ## The budgets over a run -/

theorem SessionShared.DeadBare.new (sessionId : BytesN 16) (token : Token) (isClient : Bool)
    (limits : JournalLimits) : (SessionShared.new sessionId token isClient limits).DeadBare where
  streams sid c hc := by simp [SessionShared.new] at hc
  queues sid hpos := by simp [SessionShared.queuedBytes, contribution, SessionShared.new] at hpos

/-- **The session's budgets are those of its living streams**, in every run in which a stream
holds nothing when it ends in error and gets nothing afterwards; and DATA for a living stream is
answered as if the others had never been. -/
theorem budgets_live {r : SessionRun} (h : sessionMachine.ReachableUnder EndsBare r) :
    r.session.BudgetsLive := by
  refine SessionShared.DeadBare.budgetsLive ?_
  refine h.invariant_of (I := fun r : SessionRun => r.session.DeadBare) Accounts
    (fun _ hreach => accounts hreach) ?_ ?_
  · rintro _ ⟨sessionId, token, isClient, limits, rfl⟩ -
    exact .new sessionId token isClient limits
  · exact fun r e r' haccounts _ hI hguard hstep => hI.step haccounts hguard hstep

namespace SampleBudget

open SampleFinal (client client_init fromProvider)

def readAndReset : List SessionEvent :=
  [.allocStream, .reserveStreamSlot 1, .frame 0 (fromProvider .data 0 [1, 2, 3]), .enqueue 0,
    .recv 1, .recvPop 0, .recvCommit 0, .recvReturn 0, .frame 0 (fromProvider .reset 0 [])]

def resetWhileHeld : List SessionEvent :=
  [.allocStream, .reserveStreamSlot 1, .frame 0 (fromProvider .data 0 [1]), .enqueue 0,
    .frame 0 (fromProvider .data 5 [6, 7, 8]), .frame 0 (fromProvider .reset 0 [])]

theorem reset_leaves_nothing :
    ∃ r, sessionMachine.ReachableUnder EndsBare r ∧ r.session.StreamFailed 1
      ∧ r.session.BudgetsLive := by
  have hrun : (sessionMachine.runUnder EndsBare (.init client) readAndReset).any
      (fun r => r.session.streams[1]?.any fun c => isErrorTerm c.term) = true := by decide +kernel
  obtain ⟨r, hreach, hstate⟩ := Machine.exists_reachableUnder client_init hrun
  rw [any_eq_true] at hstate
  exact ⟨r, hreach, hstate, budgets_live hreach⟩

/-- **A cancelled stream keeps its share**: the only stream was reset, and four bytes of it count
against the budgets of the session. -/
theorem reset_leaves_bytes :
    ∃ r, sessionMachine.Reachable r ∧ r.session.living.streams.isEmpty = true
      ∧ (mapSum r.session.streams fun c => c.recv.gapBytes) = 3
      ∧ mapSum r.session.delivered DeliverQueue.bytes = 1 ∧ ¬r.session.BudgetsLive := by
  have hrun : (sessionMachine.runUnder (fun _ _ => True) (.init client) resetWhileHeld).any
      (fun r => r.session.living.streams.isEmpty
        && (mapSum r.session.streams fun c => c.recv.gapBytes) = 3
        && mapSum r.session.delivered DeliverQueue.bytes = 1) = true := by decide +kernel
  obtain ⟨r, hreach, hstate⟩ := Machine.exists_reachableUnder client_init hrun
  simp only [and_eq_true, decide_eq_true_eq] at hstate
  obtain ⟨⟨hnone, hgap⟩, hqueued⟩ := hstate
  refine ⟨r, hreach, hnone, hgap, hqueued, fun hlive => ?_⟩
  have hsum := hlive.gapBytes
  rw [ExtTreeMap.isEmpty_iff.mp hnone, mapSum_empty, hgap] at hsum
  cases hsum

end SampleBudget

end Dweb
