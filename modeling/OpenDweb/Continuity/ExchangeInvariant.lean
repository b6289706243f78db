import OpenDweb.Continuity.StreamInvariant
import OpenDweb.Continuity.Exchange

/-!
# OpenDweb — the invariant of the exchange

Each endpoint keeps, stream by stream, the two halves of `StreamInv` with its peer, and every
frame it has written or is about to write says the truth about it. Both survive whatever the
other endpoint does, because an endpoint only ever *advances*: what it sent grows until it is
frozen, what it read grows, and an end is never taken back.

* **`StreamView`** — what one stream looks like at an endpoint.
* **`EndInv`** — the invariant of one endpoint towards its peer; `EndInv.of_peer` is its
  stability.
* **`EndStep`** — what a step of an endpoint must give: the invariant again, and an advance.
-/

namespace Dweb

open Std (ExtTreeMap)

/-! ## Views -/

structure StreamView where
  ctx : StreamCtx
  sent : List Bytes
  received : Bytes
  queue : DeliverQueue
  pending : List Bytes
  uncommitted : Nat

def StreamView.waiting (v : StreamView) : Bytes := v.queue.frames.flatten ++ v.pending.flatten

namespace Endpoint

def ctx (e : Endpoint) (sid : Nat) : StreamCtx :=
  e.shared.streams[sid]?.getD (StreamCtx.new sid e.shared.limits)

def pending (e : Endpoint) (sid : Nat) : List Bytes :=
  match e.delivering with
  | some (_, d) => if d.streamId = sid then d.segments else []
  | none => []

def view (e : Endpoint) (sid : Nat) : StreamView where
  ctx := e.ctx sid
  sent := e.sent sid
  received := e.received sid
  queue := e.shared.delivered[sid]?.getD .empty
  pending := e.pending sid
  uncommitted := e.uncommitted sid

end Endpoint

structure StreamInv (L : JournalLimits) (v peer : StreamView) : Prop where
  send : SendInv L v.sent peer.received.length v.ctx
  recv : RecvInv peer.sent peer.ctx.Frozen v.received v.waiting v.uncommitted v.ctx
  queueBytes : v.queue.bytes = v.queue.frames.flatten.length

structure StreamView.Advances (v v' : StreamView) : Prop where
  sent : ∃ ps, v'.sent = v.sent ++ ps ∧ (v.ctx.Frozen → ps = [])
  received : v.received.length ≤ v'.received.length
  poppable : (v.received ++ v.queue.frames.flatten).length
    ≤ (v'.received ++ v'.queue.frames.flatten).length
  frozen : v.ctx.Frozen → v'.ctx.Frozen

namespace StreamView.Advances

variable {v v' v'' : StreamView}

theorem refl (v : StreamView) : v.Advances v :=
  ⟨⟨[], by simp, fun _ => rfl⟩, Nat.le_refl _, Nat.le_refl _, id⟩

theorem trans (h : v.Advances v') (h' : v'.Advances v'') : v.Advances v'' := by
  obtain ⟨ps, hps, hnil⟩ := h.sent
  obtain ⟨qs, hqs, hnil'⟩ := h'.sent
  refine ⟨⟨ps ++ qs, by rw [hqs, hps, List.append_assoc], fun hf => ?_⟩,
    Nat.le_trans h.received h'.received, Nat.le_trans h.poppable h'.poppable,
    fun hf => h'.frozen (h.frozen hf)⟩
  rw [hnil hf, hnil' (h.frozen hf), List.append_nil]

theorem of_ctx (hfrozen : v.ctx.Frozen → v'.ctx.Frozen) (hsent : v'.sent = v.sent)
    (hreceived : v'.received = v.received) (hqueue : v'.queue = v.queue) : v.Advances v' :=
  ⟨⟨[], by rw [hsent, List.append_nil], fun _ => rfl⟩, by rw [hreceived],
    by rw [hreceived, hqueue], hfrozen⟩

theorem sent_of_frozen (h : v.Advances v') (hf : v.ctx.Frozen) : v'.sent = v.sent := by
  obtain ⟨ps, hps, hnil⟩ := h.sent
  rw [hps, hnil hf, List.append_nil]

theorem isChunk (h : v.Advances v') {off : Nat} {p : Bytes} (hp : IsChunk v.sent off p) :
    IsChunk v'.sent off p := by
  obtain ⟨ps, hps, -⟩ := h.sent
  exact hps ▸ hp.append ps

end StreamView.Advances

variable {L : JournalLimits} {v peer peer' v' : StreamView} {e : Endpoint}

theorem StreamInv.of_peer (h : StreamInv L v peer) (hadv : peer.Advances peer') :
    StreamInv L v peer' where
  send := h.send.mono hadv.received
  recv := by
    obtain ⟨ps, hps, hnil⟩ := hadv.sent
    by_cases hf : peer.ctx.Frozen
    · rw [hadv.sent_of_frozen hf]
      exact h.recv.of_frozen hadv.frozen
    · rw [hps]
      exact (h.recv.append hf ps).of_frozen hadv.frozen
  queueBytes := h.queueBytes

/-! ## Frames and checks -/

/-- A frame says the truth about the side that wrote it. -/
def FrameOk (v : StreamView) (f : Frame) : Prop :=
  match f.frameType with
  | .data => IsChunk v.sent f.byteOffset f.payload
  | .fin => f.payload = [] ∧ f.byteOffset = v.sent.flatten.length ∧ v.ctx.Frozen
  | .ack => f.byteOffset ≤ v.received.length
  | .open_ => False
  | _ => True

theorem FrameOk.of_advances {f : Frame} (h : FrameOk v f) (hadv : v.Advances v') :
    FrameOk v' f := by
  unfold FrameOk at h ⊢
  split
  · exact hadv.isChunk (by simpa only [*] using h)
  · next hfin =>
    rw [hfin] at h
    obtain ⟨hpayload, hoffset, hfrozen⟩ := h
    exact ⟨hpayload, hadv.sent_of_frozen hfrozen ▸ hoffset, hadv.frozen hfrozen⟩
  · next hack =>
    rw [hack] at h
    exact Nat.le_trans h hadv.received
  · next hopen =>
    rw [hopen] at h
    exact h
  · trivial

/-- A `recv` that found its stream finished, with nothing between window and queue: all that
was sent can be popped. -/
def EndCheck.Found (v peer : StreamView) (c : EndCheck) : Prop :=
  c.settled = true → c.term = some .fin →
    peer.ctx.Frozen ∧ peer.sent.flatten.length ≤ (v.received ++ v.queue.frames.flatten).length

def EndCheck.Ended (v peer : StreamView) (c : EndCheck) : Prop :=
  c.settled = true → c.term = some .fin →
    peer.ctx.Frozen ∧ peer.sent.flatten.length ≤ v.received.length

theorem EndCheck.Found.of_advances {c : EndCheck} (h : c.Found v peer) (hadv : v.Advances v')
    (hpeer : peer.Advances peer') : c.Found v' peer' := by
  intro hsettled hterm
  obtain ⟨hfrozen, hle⟩ := h hsettled hterm
  exact ⟨hpeer.frozen hfrozen, hpeer.sent_of_frozen hfrozen ▸ Nat.le_trans hle hadv.poppable⟩

theorem EndCheck.Ended.of_advances {c : EndCheck} (h : c.Ended v peer) (hadv : v.Advances v')
    (hpeer : peer.Advances peer') : c.Ended v' peer' := by
  intro hsettled hterm
  obtain ⟨hfrozen, hle⟩ := h hsettled hterm
  exact ⟨hpeer.frozen hfrozen, hpeer.sent_of_frozen hfrozen ▸ Nat.le_trans hle hadv.received⟩

/-! ## The invariant of an endpoint -/

def ReplayTask.segments : ReplayTask → List (Nat × Nat × Bytes)
  | .data rest => rest
  | _ => []

def Endpoint.AckOk (e : Endpoint) (f : Frame) : Prop :=
  f.frameType = .ack ∧ FrameOk (e.view f.streamId) f

structure EndInv (L : JournalLimits) (e peer : Endpoint) : Prop where
  limits : e.shared.limits = L
  aliases : e.shared.aliases = ∅
  streams : ∀ sid, StreamInv L (e.view sid) (peer.view sid)
  held : (mapSum e.shared.streams fun c => c.journal.heldBytes) ≤ L.maxSessionBytes
  errors : ∀ sid, (e.view sid).ctx.term = some .protocolError → sid ∈ e.resetReplies
  delivery : ∀ d, e.delivering = some d → e.AckOk d.2.ack
  outbox : ∀ f ∈ e.outbox, FrameOk (e.view f.streamId) f
  prepared : ∀ t ∈ e.prepared, IsChunk (e.view t.1).sent t.2.1 t.2.2
  replays : ∀ r ∈ e.replays, ∀ t ∈ r.2.segments, IsChunk (e.view t.1).sent t.2.1 t.2.2
  endChecks : ∀ c ∈ e.endChecks, c.Found (e.view c.streamId) (peer.view c.streamId)
  ended : ∀ c ∈ e.ended, c.Ended (e.view c.streamId) (peer.view c.streamId)

def Endpoint.Advances (e e' : Endpoint) : Prop := ∀ sid, (e.view sid).Advances (e'.view sid)

theorem Endpoint.Advances.trans {e' e'' : Endpoint} (h : e.Advances e') (h' : e'.Advances e'') :
    e.Advances e'' := fun sid => (h sid).trans (h' sid)

theorem EndInv.of_peer {peer peer' : Endpoint} (h : EndInv L e peer) (hadv : peer.Advances peer') :
    EndInv L e peer' where
  limits := h.limits
  aliases := h.aliases
  streams sid := (h.streams sid).of_peer (hadv sid)
  held := h.held
  errors := h.errors
  delivery := h.delivery
  outbox := h.outbox
  prepared := h.prepared
  replays := h.replays
  endChecks c hc := (h.endChecks c hc).of_advances (.refl _) (hadv c.streamId)
  ended c hc := (h.ended c hc).of_advances (.refl _) (hadv c.streamId)

structure EndStep (L : JournalLimits) (e e' peer : Endpoint) : Prop where
  inv : EndInv L e' peer
  advances : e.Advances e'

theorem EndStep.trans {e' e'' peer : Endpoint} (h : EndStep L e e' peer)
    (h' : EndStep L e' e'' peer) : EndStep L e e'' peer :=
  ⟨h'.inv, h.advances.trans h'.advances⟩

/-! ## Steps that change one control block -/

section Steps

variable {L : JournalLimits} {e e' peer : Endpoint}

theorem EndInv.refl (h : EndInv L e peer) : EndStep L e e peer := ⟨h, fun _ => .refl _⟩

variable {sid : Nat} {c : StreamCtx} {shared : SessionShared}

theorem ctx_eq (h : e.shared.streams[sid]? = some c) : e.ctx sid = c := by
  rw [Endpoint.ctx, h]
  rfl

theorem view_of_insert (hstreams : shared.streams = e.shared.streams.insert sid c)
    (hlimits : shared.limits = e.shared.limits) (hdelivered : shared.delivered = e.shared.delivered)
    (sid' : Nat) :
    ({ e with shared := shared } : Endpoint).view sid'
      = if sid = sid' then { e.view sid with ctx := c } else e.view sid' := by
  unfold Endpoint.view Endpoint.ctx
  dsimp only
  rw [hstreams, hlimits, hdelivered, ExtTreeMap.getElem?_insert]
  by_cases hsame : sid = sid'
  · subst hsame
    rw [if_pos (compare_eq_iff_eq.mpr rfl), if_pos rfl]
    rfl
  · rw [if_neg fun heq => hsame (compare_eq_iff_eq.mp heq), if_neg hsame]
    rfl

theorem view_of_sent (e : Endpoint) (sid : Nat) (cs : List Bytes) (sid' : Nat) :
    ({ e with sent := Function.update e.sent sid cs } : Endpoint).view sid'
      = if sid = sid' then { e.view sid with sent := cs } else e.view sid' := by
  unfold Endpoint.view
  by_cases hsame : sid = sid'
  · subst hsame
    rw [if_pos rfl]
    simp only [Function.update_self]
    rfl
  · rw [if_neg hsame]
    simp only [Function.update_of_ne (Ne.symm hsame)]
    rfl

theorem view_of_eq (hstreams : shared.streams = e.shared.streams)
    (hlimits : shared.limits = e.shared.limits) (hdelivered : shared.delivered = e.shared.delivered)
    (sid : Nat) : ({ e with shared := shared } : Endpoint).view sid = e.view sid := by
  unfold Endpoint.view Endpoint.ctx
  rw [hstreams, hlimits, hdelivered]
  rfl

/-- An advance that leaves the lists alone has only the streams, the budget and the errors to
answer for. -/
theorem EndInv.advance (h : EndInv L e peer) (hadv : e.Advances e')
    (hlimits : e'.shared.limits = e.shared.limits) (haliases : e'.shared.aliases = e.shared.aliases)
    (hstreams : ∀ sid, StreamInv L (e'.view sid) (peer.view sid))
    (hheld : (mapSum e'.shared.streams fun c => c.journal.heldBytes) ≤ L.maxSessionBytes)
    (herrors : ∀ sid, (e'.view sid).ctx.term = some .protocolError → sid ∈ e'.resetReplies)
    (hdelivery : ∀ d, e'.delivering = some d → e.delivering = some d ∨ e'.AckOk d.2.ack)
    (hlists : e'.outbox = e.outbox ∧ e'.prepared = e.prepared ∧ e'.replays = e.replays
      ∧ e'.endChecks = e.endChecks ∧ e'.ended = e.ended) : EndStep L e e' peer := by
  obtain ⟨houtbox, hprepared, hreplays, hchecks, hended⟩ := hlists
  refine ⟨⟨hlimits.trans h.limits, haliases.trans h.aliases, hstreams, hheld, herrors,
    fun d hd => ?_, fun f hf => ?_, fun t ht => ?_, fun r hr t ht => ?_, fun c hc => ?_,
    fun c hc => ?_⟩, hadv⟩
  · rcases hdelivery d hd with hold | hnew
    · obtain ⟨hack, hok⟩ := h.delivery d hold
      exact ⟨hack, hok.of_advances (hadv _)⟩
    · exact hnew
  · exact (h.outbox f (houtbox ▸ hf)).of_advances (hadv f.streamId)
  · exact (hadv t.1).isChunk (h.prepared t (hprepared ▸ ht))
  · exact (hadv t.1).isChunk (h.replays r (hreplays ▸ hr) t ht)
  · exact (h.endChecks c (hchecks ▸ hc)).of_advances (hadv c.streamId) (.refl _)
  · exact (h.ended c (hended ▸ hc)).of_advances (hadv c.streamId) (.refl _)

theorem EndInv.of_view_eq (h : EndInv L e peer) (hstreams : shared.streams = e.shared.streams)
    (hlimits : shared.limits = e.shared.limits) (haliases : shared.aliases = e.shared.aliases)
    (hdelivered : shared.delivered = e.shared.delivered) :
    EndStep L e { e with shared := shared } peer := by
  have hview := view_of_eq (e := e) hstreams hlimits hdelivered
  refine h.advance (fun sid => ?_) hlimits haliases (fun sid => ?_) ?_ (fun sid => ?_)
    (fun d hd => Or.inl hd) ⟨rfl, rfl, rfl, rfl, rfl⟩
  · rw [hview]
    exact .refl _
  · rw [hview]
    exact h.streams sid
  · show mapSum shared.streams _ ≤ _
    rw [hstreams]
    exact h.held
  · rw [hview]
    exact h.errors sid

theorem EndInv.held_insert (h : EndInv L e peer) {c' : StreamCtx}
    (hc : e.shared.streams[sid]? = some c) (hle : c'.journal.heldBytes ≤ c.journal.heldBytes) :
    (mapSum (e.shared.streams.insert sid c') fun c => c.journal.heldBytes) ≤ L.maxSessionBytes := by
  have hins := mapSum_insert e.shared.streams (fun c => c.journal.heldBytes) sid c'
  rw [contribution_of_some hc] at hins
  have hheld := h.held
  omega

theorem EndInv.setView (h : EndInv L e peer) {v : StreamView}
    (hview : ∀ sid', e'.view sid' = if sid = sid' then v else e.view sid')
    (hstream : StreamInv L v (peer.view sid)) (hadv : (e.view sid).Advances v)
    (hlimits : e'.shared.limits = e.shared.limits) (haliases : e'.shared.aliases = e.shared.aliases)
    (hheld : (mapSum e'.shared.streams fun c => c.journal.heldBytes) ≤ L.maxSessionBytes)
    (herr : v.ctx.term = some .protocolError → sid ∈ e.resetReplies)
    (hdelivery : ∀ d, e'.delivering = some d → e.delivering = some d ∨ e'.AckOk d.2.ack)
    (hlists : e'.outbox = e.outbox ∧ e'.prepared = e.prepared ∧ e'.replays = e.replays ∧ e'.endChecks = e.endChecks ∧ e'.ended = e.ended)
    (hresets : e'.resetReplies = e.resetReplies) : EndStep L e e' peer := by
  refine h.advance (fun sid' => ?_) hlimits haliases (fun sid' => ?_) hheld (fun sid' => ?_)
    hdelivery hlists
  · rw [hview]
    split
    · next heq => exact heq ▸ hadv
    · exact .refl _
  · rw [hview]
    split
    · next heq => exact heq ▸ hstream
    · exact h.streams sid'
  · rw [hview, hresets]
    split
    · next heq => exact heq ▸ herr
    · exact h.errors sid'

theorem EndInv.setCtx (h : EndInv L e peer) {c' : StreamCtx} (hc : e.shared.streams[sid]? = some c)
    (hstreams : shared.streams = e.shared.streams.insert sid c')
    (hlimits : shared.limits = e.shared.limits) (haliases : shared.aliases = e.shared.aliases)
    (hdelivered : shared.delivered = e.shared.delivered)
    (hsend : SendInv L (e.sent sid) (peer.received sid).length c')
    (hrecv : RecvInv (peer.sent sid) (peer.ctx sid).Frozen (e.received sid) (e.view sid).waiting (e.uncommitted sid) c')
    (hfrozen : c.Frozen → c'.Frozen) (hheld : c'.journal.heldBytes ≤ c.journal.heldBytes)
    (herr : c'.term = some .protocolError → sid ∈ e.resetReplies) :
    EndStep L e { e with shared := shared } peer := by
  have hctx : (e.view sid).ctx = c := ctx_eq hc
  refine h.setView (view_of_insert hstreams hlimits hdelivered)
    ⟨hsend, hrecv, (h.streams sid).queueBytes⟩ (.of_ctx (fun hf => hfrozen (hctx ▸ hf)) rfl rfl rfl)
    hlimits haliases ?_ herr (fun d hd => Or.inl hd) ⟨rfl, rfl, rfl, rfl, rfl⟩ rfl
  show mapSum shared.streams _ ≤ _
  rw [hstreams]
  exact h.held_insert hc hheld

/-! ## Bookkeeping -/

theorem EndInv.setOutbox (h : EndInv L e peer) {fs : List Frame}
    (hfs : ∀ f ∈ fs, FrameOk (e.view f.streamId) f) : EndStep L e { e with outbox := fs } peer :=
  ⟨⟨h.limits, h.aliases, h.streams, h.held, h.errors, h.delivery, hfs, h.prepared, h.replays,
    h.endChecks, h.ended⟩, fun _ => .refl _⟩

theorem EndInv.setPrepared (h : EndInv L e peer) {ts : List (Nat × Nat × Bytes)}
    (hts : ∀ t ∈ ts, IsChunk (e.view t.1).sent t.2.1 t.2.2) :
    EndStep L e { e with prepared := ts } peer :=
  ⟨⟨h.limits, h.aliases, h.streams, h.held, h.errors, h.delivery, h.outbox, hts, h.replays,
    h.endChecks, h.ended⟩, fun _ => .refl _⟩

theorem EndInv.setReplays (h : EndInv L e peer) {rs : List (Nat × ReplayTask)}
    (hrs : ∀ r ∈ rs, ∀ t ∈ r.2.segments, IsChunk (e.view t.1).sent t.2.1 t.2.2) :
    EndStep L e { e with replays := rs } peer :=
  ⟨⟨h.limits, h.aliases, h.streams, h.held, h.errors, h.delivery, h.outbox, h.prepared, hrs,
    h.endChecks, h.ended⟩, fun _ => .refl _⟩

theorem EndInv.setEndChecks (h : EndInv L e peer) {cs : List EndCheck}
    (hcs : ∀ c ∈ cs, c.Found (e.view c.streamId) (peer.view c.streamId)) :
    EndStep L e { e with endChecks := cs } peer :=
  ⟨⟨h.limits, h.aliases, h.streams, h.held, h.errors, h.delivery, h.outbox, h.prepared, h.replays,
    hcs, h.ended⟩, fun _ => .refl _⟩

theorem EndInv.setEnded (h : EndInv L e peer) {cs : List EndCheck}
    (hcs : ∀ c ∈ cs, c.Ended (e.view c.streamId) (peer.view c.streamId)) :
    EndStep L e { e with ended := cs } peer :=
  ⟨⟨h.limits, h.aliases, h.streams, h.held, h.errors, h.delivery, h.outbox, h.prepared, h.replays,
    h.endChecks, hcs⟩, fun _ => .refl _⟩

theorem EndInv.setChannel (h : EndInv L e peer) (i : Nat) :
    EndStep L e { e with channel := i } peer :=
  ⟨⟨h.limits, h.aliases, h.streams, h.held, h.errors, h.delivery, h.outbox, h.prepared, h.replays,
    h.endChecks, h.ended⟩, fun _ => .refl _⟩

theorem EndInv.addResetReplies (h : EndInv L e peer) (sids : List Nat) :
    EndStep L e { e with resetReplies := e.resetReplies ++ sids } peer :=
  ⟨⟨h.limits, h.aliases, h.streams, h.held,
    fun sid herr => List.mem_append_left sids (h.errors sid herr), h.delivery, h.outbox, h.prepared,
    h.replays, h.endChecks, h.ended⟩, fun _ => .refl _⟩

end Steps

end Dweb
