import OpenDweb.Continuity.ExchangeRuns

/-!
# OpenDweb — when an honest peer's stream is ended for a protocol error

The sender's journal bounds what the receiver has to hold: what is unread of a stream is at
most its journal's budget, and over all streams the session's. The gap buffer of a stream and
its delivery queue have that many bytes, so have the session's. What the journal does not bound
is the *number* of segments ahead of the window, nor what waits once a stream ended in error
and its journal was given up; and an empty segment ahead of the window takes the place of the
segment that follows it.

* **`Exchange.Orderly`** — the steps that stay clear of these.
* **`no_protocol_error`** — in runs of such steps nobody answers a frame with RESET and no stream
  ends with a protocol error.
-/

namespace Dweb

open Std (ExtTreeMap)
open List Option

/-! ## Budgets -/

def Endpoint.aborted (e : Endpoint) : Bool :=
  e.shared.streams.toList.any fun p => isErrorTerm p.2.term

section Budgets

variable {L : JournalLimits} {e peer : Endpoint} {sid : Nat}

theorem isErrorTerm_of_not_aborted (h : e.aborted = false) (sid : Nat) :
    isErrorTerm (e.ctx sid).term = false := by
  unfold Endpoint.ctx
  cases hc : e.shared.streams[sid]? with
  | none => rfl
  | some c =>
    have hmem := ExtTreeMap.mem_toList_iff_getElem?_eq_some.mpr hc
    exact Bool.not_eq_true _ ▸ List.any_eq_false.mp h _ hmem

theorem contribution_heldBytes (e : Endpoint) (sid : Nat) :
    contribution e.shared.streams (fun c => c.journal.heldBytes) sid
      = (e.ctx sid).journal.heldBytes := by
  unfold Endpoint.ctx
  cases hc : e.shared.streams[sid]? with
  | none =>
    rw [contribution_of_none hc]
    exact (mapSum_empty _).symm
  | some c =>
    rw [contribution_of_some hc]
    rfl

theorem EndInv.unread_le_held (hp : EndInv L peer e) (hcalm : peer.aborted = false) (sid : Nat) :
    (peer.sent sid).flatten.length - (e.received sid).length
      ≤ contribution peer.shared.streams (fun c => c.journal.heldBytes) sid := by
  rw [contribution_heldBytes]
  exact (hp.streams sid).send.unread_le_held (isErrorTerm_of_not_aborted hcalm sid)

theorem EndInv.unread_le (hp : EndInv L peer e) (sid : Nat) :
    (peer.sent sid).flatten.length - (e.received sid).length ≤ L.maxStreamBytes :=
  Nat.sub_le_of_le_add (Nat.add_comm _ _ ▸ (hp.streams sid).send.room)

theorem EndInv.waiting_le_unread (he : EndInv L e peer) (sid : Nat) :
    (e.view sid).queue.bytes + (e.view sid).pending.flatten.length
      ≤ (peer.sent sid).flatten.length - (e.received sid).length := by
  have hstream := he.streams sid
  have hle : ((e.received sid) ++ (e.view sid).waiting).length ≤ (peer.sent sid).flatten.length :=
    hstream.recv.inOrder.length_le
  rw [StreamView.waiting, length_append, length_append, ← hstream.queueBytes] at hle
  omega

theorem contribution_delivered (e : Endpoint) (sid : Nat) :
    contribution e.shared.delivered DeliverQueue.bytes sid = (e.view sid).queue.bytes := by
  show _ = (e.shared.delivered[sid]?.getD .empty).bytes
  cases hq : e.shared.delivered[sid]? with
  | none => exact contribution_of_none hq
  | some q => exact contribution_of_some hq

end Budgets

/-! ## The steps that stay clear -/

/-- A chunk ahead of the window finds itself or a free place in the gap buffer. -/
def GapFree (c : StreamCtx) (off : Nat) (p : Bytes) : Prop :=
  c.recv.expectedOffset < off →
    c.recv.gaps[off]? = some p ∨ (c.recv.gaps[off]? = none ∧ c.recv.gaps.size < gapCap)

instance (c : StreamCtx) (off : Nat) (p : Bytes) : Decidable (GapFree c off p) := by
  unfold GapFree
  infer_instance

def GapRoom (s : SessionShared) (c : StreamCtx) (off : Nat) (p : Bytes) : Prop :=
  (mapSum s.streams fun c => c.recv.gapBytes) + c.recv.incomingGapBytes off p ≤ gapSessionByteCap

instance (s : SessionShared) (c : StreamCtx) (off : Nat) (p : Bytes) :
    Decidable (GapRoom s c off p) := inferInstanceAs (Decidable (_ ≤ _))

def QueueRoom (s : SessionShared) (d : Delivery) : Prop :=
  mapSum s.delivered DeliverQueue.bytes + (d.segments.map List.length).sum
    ≤ deliverQueueSessionCap

instance (s : SessionShared) (d : Delivery) : Decidable (QueueRoom s d) :=
  inferInstanceAs (Decidable (_ ≤ _))

/-- A chunk that is fed to its window: the session still looks at frames, and the chunk does
not go beyond the stream's end. -/
def Taken (s : SessionShared) (c : StreamCtx) (f : Frame) : Prop :=
  s.peerStateExhausted = false
    ∧ ∀ final ∈ c.remoteFinal, f.byteOffset + f.payload.length ≤ final

instance (s : SessionShared) (c : StreamCtx) (f : Frame) : Decidable (Taken s c f) := by
  unfold Taken
  infer_instance

/-- A DATA frame that arrives ahead finds itself or a free place in the gap buffer; once a
stream of the sender ended in error, the receiver's session budgets still have room. -/
def Exchange.Orderly (s : Exchange) : ExchangeLabel → Prop
  | .deliver x i =>
    ∀ l ∈ s.channels[i]?, ∀ f ∈ (l.inFlight x).head?, f.frameType = .data →
      ∀ c ∈ (s.ends x.peer).shared.streams[f.streamId]?, Taken (s.ends x.peer).shared c f →
        GapFree c f.byteOffset f.payload
          ∧ ((s.ends x).aborted = true →
              GapRoom (s.ends x.peer).shared c f.byteOffset f.payload)
  | .act x _ .enqueue =>
    (s.ends x.peer).aborted = true →
      ∀ d ∈ (s.ends x).delivering, QueueRoom (s.ends x).shared d.2
  | .act x _ a => (s.ends x).Fits a
  | _ => True

instance (s : Exchange) : (l : ExchangeLabel) → Decidable (s.Orderly l)
  | .deliver x i => by
    unfold Exchange.Orderly
    infer_instance
  | .act x _ .enqueue => by
    unfold Exchange.Orderly
    infer_instance
  | .act x _ (.openStream ..) | .act x _ (.sendData ..) | .act x _ (.prepareSend ..)
  | .act x _ (.sendDataAt ..) | .act x _ (.finish ..) | .act x _ (.recvPop ..)
  | .act x _ (.recvCommit ..) | .act x _ (.recvCheck ..) | .act x _ (.recvEnd ..)
  | .act x _ (.writeControl ..) | .act x _ (.dropControl ..) | .act x _ .install
  | .act x _ (.startReplay ..) | .act x _ (.replayNext ..) | .act x _ (.replayFails ..) => by
    unfold Exchange.Orderly
    infer_instance
  | .drop x i | .attempt | .trim i | .die i => inferInstanceAs (Decidable True)

variable {s : Exchange}

theorem Exchange.Orderly.fits {l : ExchangeLabel} (h : s.Orderly l) : s.Fits l := by
  cases l with
  | act x i a =>
    cases a with
    | enqueue => trivial
    | _ => exact h
  | _ => trivial

/-! ## Room -/

section Room

variable {e peer : Endpoint} {f : Frame}

theorem queueHasRoom_of_endInv (he : EndInv .default e peer) (hp : EndInv .default peer e)
    {owner : Nat} {d : Delivery} (hd : e.delivering = some (owner, d))
    (hroom : peer.aborted = true → QueueRoom e.shared d) : e.shared.queueHasRoom d := by
  have hlen : (d.segments.map List.length).sum = (e.view d.streamId).pending.flatten.length := by
    show _ = (e.pending d.streamId).flatten.length
    rw [pending_eq hd, length_flatten]
  have hqueue : (e.shared.delivered[d.streamId]?.map DeliverQueue.bytes).getD 0
      = (e.view d.streamId).queue.bytes := contribution_delivered e d.streamId
  have hwaiting := he.waiting_le_unread d.streamId
  refine ⟨?_, ?_⟩
  · have hunread := hp.unread_le d.streamId
    rw [hqueue, hlen]
    exact Nat.le_trans hwaiting hunread
  · cases haborted : peer.aborted with
    | true => exact hroom haborted
    | false =>
      -- stream by stream, what is queued is in the sender's journal
      refine Nat.le_trans (mapSum_add_le (k := d.streamId) (fun sid => ?_) ?_) hp.held
      · have hheld := hp.unread_le_held haborted sid
        have hwaiting' := he.waiting_le_unread sid
        rw [contribution_delivered]
        omega
      · have hheld := hp.unread_le_held haborted d.streamId
        rw [contribution_delivered, hlen]
        omega

variable {c : StreamCtx}

theorem EndInv.gap_le_unread (he : EndInv .default e peer)
    (hc : e.shared.streams[f.streamId]? = some c)
    (hchunk : IsChunk (peer.sent f.streamId) f.byteOffset f.payload) :
    c.recv.gapBytes + c.recv.incomingGapBytes f.byteOffset f.payload
      ≤ (peer.sent f.streamId).flatten.length - (e.received f.streamId).length := by
  have hctx : (e.view f.streamId).ctx = c := ctx_eq hc
  have hrecv := (hctx ▸ (he.streams f.streamId).recv : RecvInv _ _ _ _ _ c)
  have harrived := hrecv.arrived
  rw [length_append] at harrived
  change (e.received f.streamId).length + _ ≤ _ at harrived
  have hle : c.recv.gapBytes + c.recv.incomingGapBytes f.byteOffset f.payload
      ≤ (peer.sent f.streamId).flatten.length - c.recv.expectedOffset := by
    unfold RecvWindow.incomingGapBytes
    split
    · next hnew =>
      refine hrecv.window.gapBytes_add_le hchunk hnew.1 ?_
      exact ExtTreeMap.getElem?_eq_none hnew.2
    · exact hrecv.window.gapBytes_le
  omega

theorem EndInv.gapBytes_le_unread (he : EndInv .default e peer) (sid : Nat) :
    contribution e.shared.streams (fun c => c.recv.gapBytes) sid
      ≤ (peer.sent sid).flatten.length - (e.received sid).length := by
  cases hc : e.shared.streams[sid]? with
  | none =>
    rw [contribution_of_none hc]
    exact Nat.zero_le _
  | some c =>
    have hctx : (e.view sid).ctx = c := ctx_eq hc
    have hrecv := (hctx ▸ (he.streams sid).recv : RecvInv _ _ _ _ _ c)
    have harrived := hrecv.arrived
    have hgaps : c.recv.gapBytes ≤ (peer.sent sid).flatten.length - c.recv.expectedOffset :=
      hrecv.window.gapBytes_le
    rw [length_append] at harrived
    change (e.received sid).length + _ ≤ _ at harrived
    rw [contribution_of_some hc]
    omega

theorem gapRoom_of_endInv (he : EndInv .default e peer) (hp : EndInv .default peer e)
    (hc : e.shared.streams[f.streamId]? = some c)
    (hchunk : IsChunk (peer.sent f.streamId) f.byteOffset f.payload) (hcalm : peer.aborted = false) :
    GapRoom e.shared c f.byteOffset f.payload := by
  refine Nat.le_trans (mapSum_add_le (k := f.streamId) (fun sid => ?_) ?_) hp.held
  · exact Nat.le_trans (he.gapBytes_le_unread sid) (hp.unread_le_held hcalm sid)
  · rw [contribution_of_some hc]
    exact Nat.le_trans (he.gap_le_unread hc hchunk) (hp.unread_le_held hcalm f.streamId)

theorem not_refused (he : EndInv .default e peer) (hp : EndInv .default peer e)
    (hc : e.shared.streams[f.streamId]? = some c)
    (hchunk : IsChunk (peer.sent f.streamId) f.byteOffset f.payload)
    (hfree : GapFree c f.byteOffset f.payload)
    (hroom : peer.aborted = true → GapRoom e.shared c f.byteOffset f.payload) :
    ¬Refused e.shared c f.byteOffset f.payload := by
  have hsession : GapRoom e.shared c f.byteOffset f.payload := by
    cases haborted : peer.aborted with
    | true => exact hroom haborted
    | false => exact gapRoom_of_endInv he hp hc hchunk haborted
  rintro (hover | ⟨hahead, q, hq, hne⟩ | ⟨hahead, hnew, hfull⟩)
  · exact Nat.not_le.mpr hover hsession
  · rcases hfree hahead with hsame | ⟨hnone, -⟩
    · exact hne (some.inj (hq.symm.trans hsame))
    · rw [hq] at hnone
      cases hnone
  · rcases hfree hahead with hsame | ⟨-, hsize⟩
    · rw [hnew] at hsame
      cases hsame
    · -- the buffer holds unread bytes only, so it is not the bytes that are too many
      have hgap := he.gap_le_unread hc hchunk
      have hunread := hp.unread_le f.streamId
      have hincoming : c.recv.incomingGapBytes f.byteOffset f.payload = f.payload.length := by
        have hnone : f.byteOffset ∉ c.recv.gaps := by
          simp [ExtTreeMap.mem_iff_isSome_getElem?, hnew]
        exact if_pos ⟨hahead, hnone⟩
      rw [hincoming] at hgap
      have hbytes : c.recv.gapBytes + f.payload.length ≤ gapByteCap := Nat.le_trans hgap hunread
      omega

end Room

/-! ## No RESET in reply -/

section NoReset

variable {e e' peer : Endpoint} {f : Frame} {owner : Nat}

theorem outcome_resetReplies {shared : SessionShared} {o : FrameOutcome}
    (ho : ∀ g ∈ o.reply, g.frameType ≠ .reset) :
    (e.outcome shared o).resetReplies = e.resetReplies := by
  have hnone : o.reply.toList.filter (fun g => g.frameType = .reset) = [] :=
    filter_eq_nil_iff.mpr fun g hg =>
      fun hreset => ho g (mem_toList.mp hg) (of_decide_eq_true hreset)
  unfold Endpoint.outcome
  rw [hnone, map_nil, append_nil]

theorem recordSend_resetReplies {sid off : Nat} {p : Bytes}
    (h : e.recordSend sid p = some (off, e')) : e'.resetReplies = e.resetReplies := by
  unfold Endpoint.recordSend at h
  split at h
  · cases h
  · obtain ⟨-, rfl⟩ := Prod.mk.inj (some.inj h)
    rfl

theorem act_resetReplies {i : Nat} {a : Act} {r : Endpoint × Option Frame}
    (hact : e.act i a = some r) (ha : a ≠ .enqueue) : r.1.resetReplies = e.resetReplies := by
  cases a with
  | openStream sid =>
    simp only [Endpoint.act] at hact
    split at hact
    · cases hact
    · obtain rfl := some.inj hact
      rfl
  | sendData sid p written =>
    simp only [Endpoint.act] at hact
    split at hact
    · cases hact
    · obtain ⟨⟨off, e'⟩, hrec, rfl⟩ := map_eq_some_iff.mp hact
      have hsame := recordSend_resetReplies hrec
      dsimp only
      split <;> exact hsame
  | prepareSend sid p =>
    obtain ⟨⟨off, e'⟩, hrec, rfl⟩ := map_eq_some_iff.mp hact
    have hsame := recordSend_resetReplies hrec
    exact hsame
  | sendDataAt k =>
    obtain ⟨⟨sid, off, p⟩, -, hact⟩ := bind_eq_some_iff.mp hact
    dsimp only at hact
    split at hact
    · cases hact
    · obtain rfl := some.inj hact
      rfl
  | finish sid written =>
    simp only [Endpoint.act] at hact
    split at hact
    · cases hact
    · split at hact <;>
      · obtain rfl := some.inj hact
        rfl
  | recvPop sid =>
    obtain ⟨⟨b, shared⟩, -, rfl⟩ := map_eq_some_iff.mp hact
    rfl
  | recvCommit sid len =>
    simp only [Endpoint.act] at hact
    split at hact
    · cases hact
    · obtain rfl := some.inj hact
      rfl
  | recvCheck sid =>
    simp only [Endpoint.act] at hact
    split at hact
    · obtain rfl := some.inj hact
      rfl
    · cases hact
  | recvEnd k =>
    obtain ⟨c, -, hact⟩ := bind_eq_some_iff.mp hact
    split at hact
    · obtain rfl := some.inj hact
      rfl
    · cases hact
  | enqueue => exact absurd rfl ha
  | writeControl k =>
    obtain ⟨f, -, rfl⟩ := map_eq_some_iff.mp hact
    rfl
  | replayNext k order =>
    obtain ⟨⟨j, task⟩, -, hact⟩ := bind_eq_some_iff.mp hact
    dsimp only at hact
    split at hact
    · cases hact
    · obtain ⟨⟨task', f⟩, -, rfl⟩ := map_eq_some_iff.mp hact
      rfl
  | _ =>
    obtain rfl := some.inj hact
    rfl

theorem enqueue_resetReplies (he : EndInv .default e peer) (hp : EndInv .default peer e) {i : Nat}
    {r : Endpoint × Option Frame} (hact : e.act i .enqueue = some r)
    (hroom : peer.aborted = true → ∀ d ∈ e.delivering, QueueRoom e.shared d.2) :
    r.1.resetReplies = e.resetReplies := by
  obtain ⟨⟨owner, d⟩, hd, rfl⟩ := map_eq_some_iff.mp hact
  have hqueues := queueHasRoom_of_endInv he hp hd fun haborted => hroom haborted _ hd
  dsimp only
  unfold SessionShared.enqueueDelivered
  rw [if_pos hqueues]
  refine outcome_resetReplies fun g hg => ?_
  obtain rfl := some.inj hg
  rw [(he.delivery _ hd).1]
  decide

theorem handle_resetReplies (he : EndInv .default e peer) (hp : EndInv .default peer e)
    (hf : FrameOk (peer.view f.streamId) f)
    (hguard : f.frameType = .data → ∀ c ∈ e.shared.streams[f.streamId]?, Taken e.shared c f →
      GapFree c f.byteOffset f.payload
        ∧ (peer.aborted = true → GapRoom e.shared c f.byteOffset f.payload)) :
    (e.handle owner f).resetReplies = e.resetReplies := by
  have hdrop (shared : SessionShared) : (e.outcome shared .drop).resetReplies = e.resetReplies :=
    outcome_resetReplies nofun
  have hfits := (hp.streams f.streamId).send.fits
  unfold Endpoint.handle SessionShared.beginFrame
  split
  · exact hdrop _
  split
  · exact hdrop _
  next hlooks =>
  split
  · exact hdrop _
  split
  · exact hdrop _
  unfold FrameOk at hf
  split
  · next hdata =>
    rw [hdata] at hf
    have hhandled := handleData_handled (s := e.shared) he.aliases
      (fun c hc => ctx_eq hc ▸ (he.streams f.streamId).recv.window) hf hfits
    generalize e.shared.handleData f = r at hhandled ⊢
    cases hhandled with
    | dropped => exact hdrop _
    | refused c t hc hwithin hwhy hstreams hrest =>
      obtain ⟨hfree, hroom⟩ := hguard hdata c hc ⟨Bool.not_eq_true _ ▸ hlooks, hwithin⟩
      exact absurd hwhy (not_refused he hp hc hf hfree hroom)
    | kept c w n hc hw hsame =>
      refine outcome_resetReplies fun g hg => ?_
      obtain rfl := some.inj hg
      exact fun hreset => (by cases hreset)
    | delivered c w n segments hc hw hle hflat hempty hfinal => rfl
  · -- an ACK is never answered
    refine outcome_resetReplies fun g hg => ?_
    unfold SessionShared.handleAck at hg
    dsimp only at hg
    split at hg
    · cases hg
    · split at hg <;> cases hg
  · next hfin =>
    rw [hfin] at hf
    obtain ⟨hpayload, hoffset, -⟩ := hf
    have hadd : u64CheckedAdd f.byteOffset f.payload.length
        = some (peer.view f.streamId).sent.flatten.length := by
      rw [hpayload, hoffset]
      exact if_pos hfits
    refine outcome_resetReplies fun g hg => ?_
    unfold SessionShared.handleFin at hg
    rw [hadd] at hg
    dsimp only at hg
    split at hg
    · cases hg
    · split at hg <;> cases hg
  · next hopen =>
    rw [hopen] at hf
    exact hf.elim
  · refine outcome_resetReplies fun g hg => ?_
    unfold SessionShared.handleReset at hg
    dsimp only at hg
    split at hg
    · cases hg
    · split at hg
      · cases hg
      · split at hg <;> cases hg
  · exact hdrop _

end NoReset

/-! ## Runs -/

def Exchange.Unanswered (s : Exchange) : Prop := ∀ x, (s.ends x).resetReplies = []

theorem Exchange.Unanswered.setEnd (h : s.Unanswered) {x : Side} {e : Endpoint}
    (he : e.resetReplies = (s.ends x).resetReplies) : (s.setEnd x e).Unanswered := by
  intro y
  show (Function.update s.ends x e y).resetReplies = []
  rcases x.eq_or_peer y with rfl | rfl
  · rw [Function.update_self, he, h]
  · rw [Function.update_of_ne x.peer_ne, h]

theorem Exchange.put_ends {s' : Exchange} {x : Side} {i : Nat} {f : Option Frame}
    (h : s.put x i f = some s') : s'.ends = s.ends := by
  cases f with
  | none =>
    obtain rfl := some.inj h
    rfl
  | some f =>
    obtain ⟨c, -, h⟩ := bind_eq_some_iff.mp h
    split at h
    · obtain rfl := some.inj h
      rfl
    · cases h

theorem ExchangeInv.other {L : JournalLimits} (h : ExchangeInv L s) (x : Side) :
    EndInv L (s.ends x.peer) (s.ends x) := by
  have hend := h.ends x.peer
  rwa [x.peer_peer] at hend

theorem Exchange.Unanswered.step {s' : Exchange} {l : ExchangeLabel} (h : s.Unanswered)
    (hinv : ExchangeInv .default s) (hguard : s.Orderly l) (hstep : s.step l = some s') :
    s'.Unanswered := by
  cases l with
  | act x i a =>
    obtain ⟨⟨e, f⟩, hact, hput⟩ := bind_eq_some_iff.mp hstep
    have hsame : e.resetReplies = (s.ends x).resetReplies := by
      by_cases ha : a = .enqueue
      · subst ha
        exact enqueue_resetReplies (hinv.ends x) (hinv.other x) hact hguard
      · exact act_resetReplies hact ha
    intro y
    rw [Exchange.put_ends hput]
    exact h.setEnd hsame y
  | deliver x i =>
    obtain ⟨c, hc, hstep⟩ := bind_eq_some_iff.mp hstep
    obtain ⟨f, hf, hstep⟩ := bind_eq_some_iff.mp hstep
    dsimp only at hstep
    split at hstep
    · cases hstep
    · obtain rfl := some.inj hstep
      have htrue := hinv.inFlight c (mem_of_getElem? hc) x f (mem_of_mem_head? hf)
      exact h.setEnd (s := s.setChannel i (c.pop x))
        (handle_resetReplies (hinv.other x) (hinv.ends x) htrue (hguard c hc f hf))
  | drop x i =>
    obtain ⟨c, -, hstep⟩ := bind_eq_some_iff.mp hstep
    split at hstep
    · cases hstep
    · obtain rfl := some.inj hstep
      exact h
  | attempt =>
    obtain rfl := some.inj hstep
    exact h
  | trim i =>
    obtain ⟨c, -, rfl⟩ := map_eq_some_iff.mp hstep
    exact h.setEnd rfl
  | die i =>
    obtain ⟨c, -, rfl⟩ := map_eq_some_iff.mp hstep
    exact h

/-- **Orderly runs end no stream.** -/
theorem no_protocol_error {s : Exchange}
    (h : (exchangeMachine .default).ReachableUnder Exchange.Orderly s) (x : Side) :
    (s.ends x).resetReplies = []
      ∧ ∀ sid, ((s.ends x).ctx sid).term ≠ some .protocolError := by
  have hinv : ∀ t, (exchangeMachine .default).ReachableUnder Exchange.Orderly t →
      ExchangeInv .default t := fun t ht =>
    exchangeInv_of_reachable (ht.mono fun _ _ hguard => hguard.fits)
  have hnone : s.Unanswered := by
    refine h.invariant_of _ hinv (fun t hinit _ x => ?_)
      fun t l t' ht _ hquiet hguard hstep => hquiet.step ht hguard hstep
    obtain ⟨sessionId, token, rfl⟩ := hinit
    cases x <;> rfl
  refine ⟨hnone x, fun sid hterm => ?_⟩
  have hmem := ((hinv s h).ends x).errors sid hterm
  rw [hnone x] at hmem
  cases hmem

theorem init_fresh (sessionId : BytesN 16) (token : Token) :
    (exchangeMachine .default).init (.fresh sessionId token .default) := ⟨sessionId, token, rfl⟩

theorem no_protocol_error_overtaken :
    ∃ s, (exchangeMachine .default).ReachableUnder Exchange.Orderly s
      ∧ (s.ends .provider).received 1 = [97, 98]
      ∧ (s.ends .provider).resetReplies = []
      ∧ ∀ sid, ((s.ends .provider).ctx sid).term ≠ some .protocolError := by
  have hrun : ((exchangeMachine .default).runUnder Exchange.Orderly
      (.fresh (.ofNat 16 1) (.ofNat 16 2) .default)
      [.act .client 0 (.openStream 1), .act .provider 0 (.openStream 1),
       .act .client 0 (.sendData 1 [97] true), .die 0,
       .attempt, .trim 1, .act .provider 1 .install, .act .client 1 .install,
       .act .client 1 (.startReplay [1]), .act .client 1 (.sendData 1 [98] true),
       .act .client 1 (.replayNext 0 [1]), .deliver .client 1, .deliver .client 1,
       .act .provider 1 .enqueue, .act .provider 1 (.recvPop 1),
       .act .provider 1 (.recvPop 1)]).any
      (fun s => decide ((s.ends .provider).received 1 = [97, 98])) = true := by
    decide +kernel
  obtain ⟨s, hs, hp⟩ := Machine.exists_reachableUnder (init_fresh _ _) hrun
  exact ⟨s, hs, of_decide_eq_true hp, no_protocol_error hs .provider⟩

/-- The first chunk dies with its channel. Before its replay the application sends an empty
chunk and another one, both at offset 1: the second finds the first in the gap buffer and
ends the stream. -/
theorem empty_chunk_kills_stream :
    ∃ s, (exchangeMachine .default).ReachableUnder Exchange.Fits s
      ∧ ((s.ends .client).ctx 1).term = none
      ∧ ((s.ends .provider).ctx 1).term = some .protocolError
      ∧ (s.ends .provider).resetReplies = [1] := by
  have hrun : ((exchangeMachine .default).runUnder Exchange.Fits
      (.fresh (.ofNat 16 1) (.ofNat 16 2) .default)
      [.act .client 0 (.openStream 1), .act .provider 0 (.openStream 1),
       .act .client 0 (.sendData 1 [97] true), .die 0,
       .attempt, .trim 1, .act .provider 1 .install, .act .client 1 .install,
       .act .client 1 (.startReplay [1]), .act .client 1 (.sendData 1 [] true),
       .act .client 1 (.sendData 1 [98] true),
       .deliver .client 1, .deliver .client 1]).any
      (fun s => decide (((s.ends .client).ctx 1).term = none
        ∧ ((s.ends .provider).ctx 1).term = some .protocolError
        ∧ (s.ends .provider).resetReplies = [1])) = true := by
    decide +kernel
  obtain ⟨s, hs, hp⟩ := Machine.exists_reachableUnder (init_fresh _ _) hrun
  exact ⟨s, hs, of_decide_eq_true hp⟩

end Dweb
