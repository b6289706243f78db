import OpenDweb.Continuity.ExchangeSteps

/-!
# OpenDweb — the invariant of the exchange, over runs

A true frame of the peer keeps an endpoint's invariant, whatever branch of `handle_frame` it
takes. With the acts of the endpoints this gives the invariant of the two endpoints and of
all that is in flight between them.

* **`DataHandled`** — what handling a chunk can do, with the reason if it ends the stream.
* **`ExchangeInv`** — the invariant of the system.
* **`exchangeInv_of_reachable`** — it holds in every run that keeps each stream below 2^64
  bytes.
-/

namespace Dweb

open Std (ExtTreeMap)
open List Option
open Function (update update_of_ne update_self)

/-! ## Handling a chunk -/

/-- Why a chunk ends its stream in error: the session's gap budget, another chunk at its
offset, or the stream's gap buffer. -/
def Refused (s : SessionShared) (c : StreamCtx) (off : Nat) (p : Bytes) : Prop :=
  (gapSessionByteCap < (mapSum s.streams fun c => c.recv.gapBytes) + c.recv.incomingGapBytes off p)
    ∨ (c.recv.expectedOffset < off ∧ ∃ q, c.recv.gaps[off]? = some q ∧ q ≠ p)
    ∨ (c.recv.expectedOffset < off ∧ c.recv.gaps[off]? = none
      ∧ (gapCap ≤ c.recv.gaps.size ∨ gapByteCap < c.recv.gapBytes + p.length))

/-- What a DATA frame with a chunk of the string `cs` can do. -/
inductive DataHandled (cs : List Bytes) (s : SessionShared) (f : Frame) :
    SessionShared × FrameStep → Prop where
  | dropped : DataHandled cs s f (s.countViolation, .done .drop)
  | refused (c : StreamCtx) (t : SessionShared) (hc : s.streams[f.streamId]? = some c)
      (hwithin : ∀ final ∈ c.remoteFinal, f.byteOffset + f.payload.length ≤ final)
      (hwhy : Refused s c f.byteOffset f.payload)
      (hstreams : t.streams = s.streams.insert f.streamId (c.terminate .protocolError))
      (hrest : t.limits = s.limits ∧ t.aliases = s.aliases ∧ t.delivered = s.delivered) :
      DataHandled cs s f (t, .done (.ofReply (s.resetFrame f.streamId)))
  | kept (c : StreamCtx) (w : RecvWindow) (n : Nat) (hc : s.streams[f.streamId]? = some c)
      (hw : InOrder cs w) (hsame : w.expectedOffset = c.recv.expectedOffset) :
      DataHandled cs s f
        ({ s with
            streams := s.streams.insert f.streamId { c with recv := w, lastAckedOffset := n } },
          .done (.ofReply (s.ackFrame f.streamId f.direction c.committedOffset)))
  | delivered (c : StreamCtx) (w : RecvWindow) (n : Nat) (segments : List Bytes)
      (hc : s.streams[f.streamId]? = some c) (hw : InOrder cs w)
      (hle : c.recv.expectedOffset ≤ w.expectedOffset)
      (hflat : segments.flatten = slice cs.flatten c.recv.expectedOffset w.expectedOffset)
      (hempty : f.payload = [] → w.expectedOffset = c.recv.expectedOffset)
      (hfinal : ∀ final, c.remoteFinal = some final →
        c.recv.expectedOffset + f.payload.length ≤ final) :
      DataHandled cs s f
        ({ s with
            streams := s.streams.insert f.streamId { c with recv := w, lastAckedOffset := n } },
          .delivering
            { streamId := f.streamId, segments := segments
              ack := s.ackFrame f.streamId f.direction c.committedOffset })

variable {f : Frame} {L : JournalLimits}

theorem handleData_handled {cs : List Bytes} {s : SessionShared} (haliases : s.aliases = ∅)
    (hwindow : ∀ c, s.streams[f.streamId]? = some c → InOrder cs c.recv)
    (hchunk : IsChunk cs f.byteOffset f.payload) (hfits : cs.flatten.length < 2 ^ 64) :
    DataHandled cs s f (s.handleData f) := by
  have hsid : s.resolveStream f.streamId = f.streamId := by
    simp [SessionShared.resolveStream, haliases]
  have hend := hchunk.end_le
  have hadd : u64CheckedAdd f.byteOffset f.payload.length
      = some (f.byteOffset + f.payload.length) := if_pos (by omega)
  unfold SessionShared.handleData
  simp only [hsid, hadd]
  cases hc : s.streams[f.streamId]? with
  | none => exact .dropped
  | some c =>
    dsimp only
    split
    · exact .dropped
    · next hfinal =>
      have hwithin : ∀ final ∈ c.remoteFinal, f.byteOffset + f.payload.length ≤ final := by
        intro final hsome
        rw [mem_def.mp hsome, any_some, decide_eq_true_iff] at hfinal
        exact Nat.not_lt.mp hfinal
      split
      · next hsession => exact .refused c _ hc hwithin (Or.inl hsession) rfl ⟨rfl, rfl, rfl⟩
      · have hfed := feedWithLimits_fed (hwindow c hc) hchunk hfits gapCap gapByteCap
        generalize c.recv.feedWithLimits f.byteOffset f.payload gapCap gapByteCap = r at hfed ⊢
        cases hfed with
        | delivered w segments hdue hw hle hflat hempty =>
          obtain ⟨n, hn⟩ := noteAck_eq { c with recv := w }
          simp only [hn]
          exact .delivered c w n segments hc hw hle hflat hempty fun final hsome =>
            hdue ▸ hwithin final hsome
        | duplicate w hw hsame =>
          obtain ⟨n, hn⟩ := noteAck_eq { c with recv := w }
          simp only [hn]
          exact .kept c w n hc hw hsame
        | buffered w hw hsame => exact .kept c w c.lastAckedOffset hc hw hsame
        | mismatch expected got hahead hheld =>
          exact .refused c _ hc hwithin (Or.inr (Or.inl ⟨hahead, hheld⟩)) rfl ⟨rfl, rfl, rfl⟩
        | overflow e hahead hnew hfull =>
          exact .refused c _ hc hwithin (Or.inr (Or.inr ⟨hahead, hnew, hfull⟩)) rfl ⟨rfl, rfl, rfl⟩

/-! ## Handling a frame -/

section Handling

variable {L : JournalLimits} {e peer : Endpoint} {owner : Nat} {f : Frame}

theorem EndInv.drop (h : EndInv L e peer) {shared : SessionShared}
    (hstreams : shared.streams = e.shared.streams) (hlimits : shared.limits = e.shared.limits)
    (haliases : shared.aliases = e.shared.aliases)
    (hdelivered : shared.delivered = e.shared.delivered) :
    EndStep L e (e.outcome shared .drop) peer :=
  h.outcome (fun sids _ =>
    (h.addResetReplies sids).inv.of_view_eq hstreams hlimits haliases hdelivered)
    fun g hg => (by cases hg)

variable {sid i : Nat} {r : Endpoint × Option Frame}

attribute [local simp] Endpoint.act

theorem EndInv.outcomeCtx (h : EndInv L e peer) {shared : SessionShared} {o : FrameOutcome}
    {c c' : StreamCtx} (hc : e.shared.streams[sid]? = some c)
    (hstreams : shared.streams = e.shared.streams.insert sid c')
    (hlimits : shared.limits = e.shared.limits) (haliases : shared.aliases = e.shared.aliases)
    (hdelivered : shared.delivered = e.shared.delivered)
    (hsend : SendInv L (e.sent sid) (peer.received sid).length c')
    (hrecv : RecvInv (peer.sent sid) (peer.ctx sid).Frozen (e.received sid) (e.view sid).waiting (e.uncommitted sid) c')
    (hfrozen : c.Frozen → c'.Frozen) (hheld : c'.journal.heldBytes ≤ c.journal.heldBytes)
    (herr : c'.term = some .protocolError → c.term = some .protocolError ∨ ∃ f ∈ o.reply, f.frameType = .reset ∧ f.streamId = sid)
    (hreply : ∀ f ∈ o.reply, FrameOk (({ e with shared := shared } : Endpoint).view f.streamId) f) :
    EndStep L e (e.outcome shared o) peer := by
  refine h.outcome (fun sids hsids => ?_) hreply
  refine (h.addResetReplies sids).inv.setCtx hc hstreams hlimits haliases hdelivered hsend hrecv
    hfrozen hheld fun hterm => ?_
  rcases herr hterm with hold | ⟨g, hg, hreset, rfl⟩
  · rw [← ctx_eq hc] at hold
    exact (h.addResetReplies sids).inv.errors sid hold
  · exact mem_append_right _ (hsids g hg hreset)

theorem EndInv.resolveStream_eq (h : EndInv L e peer) (sid : Nat) :
    e.shared.resolveStream sid = sid := by
  simp [SessionShared.resolveStream, h.aliases]

theorem EndInv.tookData (h : EndInv L e peer)
    (hfits : ((peer.view f.streamId).sent).flatten.length < 2 ^ 64) (hidle : e.delivering = none)
    (hchunk : IsChunk (peer.view f.streamId).sent f.byteOffset f.payload) :
    EndStep L e (e.took owner (e.shared.handleData f)) peer := by
  have hstream := h.streams f.streamId
  have hhandled := handleData_handled (s := e.shared) h.aliases
    (fun c hc => ctx_eq hc ▸ hstream.recv.window) hchunk hfits
  generalize e.shared.handleData f = r at hhandled ⊢
  cases hhandled with
  | dropped => exact h.drop rfl rfl rfl rfl
  | refused c t hc hwithin hwhy hstreams hrest =>
    obtain ⟨hlimits, haliases, hdelivered⟩ := hrest
    have hctx : (e.view f.streamId).ctx = c := ctx_eq hc
    refine h.outcomeCtx hc hstreams hlimits haliases hdelivered ((hctx ▸ hstream.send).terminate rfl)
      ((hctx ▸ hstream.recv).terminate (prefix_refl _) rfl) (fun _ => frozen_terminate rfl)
      heldBytes_terminate_le (fun _ => Or.inr ⟨_, rfl, rfl, rfl⟩) fun g hg => ?_
    obtain rfl := some.inj hg
    trivial
  | kept c w n hc hw hsame =>
    have hctx : (e.view f.streamId).ctx = c := ctx_eq hc
    have hsend : SendInv L (e.sent f.streamId) (peer.received f.streamId).length c :=
      hctx ▸ hstream.send
    have hrecv := (hctx ▸ hstream.recv : RecvInv _ _ _ _ _ c)
    show EndStep L e (e.outcome _ _) peer
    refine h.outcomeCtx hc rfl rfl rfl rfl (hsend.of_eq rfl id hsend.final) (hrecv.buffer hw hsame)
      id (Nat.le_refl _) Or.inl fun g hg => ?_
    obtain rfl := some.inj hg
    have hcommitted := hrecv.committed
    show c.committedOffset ≤ (e.received f.streamId).length
    change c.committedOffset + e.uncommitted f.streamId = (e.received f.streamId).length at hcommitted
    omega
  | delivered c w n segments hc hw hle hflat hempty hfinal =>
    have hctx : (e.view f.streamId).ctx = c := ctx_eq hc
    have hsend : SendInv L (e.sent f.streamId) (peer.received f.streamId).length c :=
      hctx ▸ hstream.send
    have hrecv := (hctx ▸ hstream.recv : RecvInv _ _ _ _ _ c)
    have hpending : (e.view f.streamId).pending = [] := pending_of_none hidle _
    rw [StreamView.waiting, hpending, flatten_nil, append_nil] at hrecv
    have hdeliver := hrecv.deliver (n := n) hw hle hflat hempty hfinal
    have hview : ∀ sid', (e.took owner ({ e.shared with
          streams := e.shared.streams.insert f.streamId { c with recv := w, lastAckedOffset := n } },
          .delivering
            { streamId := f.streamId, segments := segments
              ack := e.shared.ackFrame f.streamId f.direction c.committedOffset })).view sid'
        = if f.streamId = sid' then
            { e.view f.streamId with
              ctx := { c with recv := w, lastAckedOffset := n }, pending := segments }
          else e.view sid' := by
      intro sid'
      unfold Endpoint.took Endpoint.view Endpoint.ctx Endpoint.pending
      by_cases hsame : f.streamId = sid'
      · subst hsame
        simp only [if_true, ExtTreeMap.getElem?_insert_self, getD_some]
      · simp only [if_neg hsame, ExtTreeMap.getElem?_insert, compare_eq_iff_eq, hidle]
    refine h.setView hview ⟨hsend.of_eq rfl id hsend.final, hdeliver, hstream.queueBytes⟩
      (.of_ctx (fun hf => by rw [hctx] at hf; exact hf) rfl rfl rfl) rfl rfl
      (h.held_insert hc (Nat.le_refl _)) (fun herr => h.errors _ (by rw [hctx]; exact herr))
      (fun d hd => Or.inr ?_) ⟨rfl, rfl, rfl, rfl, rfl⟩ rfl
    obtain rfl := some.inj hd
    refine ⟨rfl, ?_⟩
    have hcommitted := hrecv.committed
    show c.committedOffset ≤ (e.received f.streamId).length
    change c.committedOffset + e.uncommitted f.streamId = (e.received f.streamId).length at hcommitted
    omega

theorem EndInv.tookAck (h : EndInv L e peer)
    (hread : f.byteOffset ≤ (peer.received f.streamId).length) :
    EndStep L e (e.outcome (e.shared.handleAck owner f).1 (e.shared.handleAck owner f).2) peer := by
  unfold SessionShared.handleAck
  simp only [h.resolveStream_eq]
  cases hc : e.shared.streams[f.streamId]? with
  | none => exact h.drop rfl rfl rfl rfl
  | some c =>
    dsimp only
    split
    · exact h.drop rfl rfl rfl rfl
    · have hctx : (e.view f.streamId).ctx = c := ctx_eq hc
      have hstream := h.streams f.streamId
      have hsend : SendInv L (e.sent f.streamId) (peer.received f.streamId).length c :=
        hctx ▸ hstream.send
      have hrecv := (hctx ▸ hstream.recv : RecvInv _ _ _ _ _ c)
      exact h.outcomeCtx hc rfl rfl rfl rfl (hsend.advanceAck hread)
        (hrecv.of_eq rfl rfl rfl id id) id (StreamJournal.heldBytes_advanceAck_le _ _) Or.inl
        fun g hg => (by cases hg)

theorem EndInv.tookFin (h : EndInv L e peer)
    (hfits : ((peer.view f.streamId).sent).flatten.length < 2 ^ 64)
    (hfin : f.payload = [] ∧ f.byteOffset = (peer.view f.streamId).sent.flatten.length
      ∧ (peer.view f.streamId).ctx.Frozen) :
    EndStep L e (e.outcome (e.shared.handleFin f).1 (e.shared.handleFin f).2) peer := by
  obtain ⟨hpayload, hoffset, hfrozen⟩ := hfin
  have hadd : u64CheckedAdd f.byteOffset f.payload.length
      = some (peer.view f.streamId).sent.flatten.length := by
    rw [hpayload, hoffset]
    exact if_pos hfits
  unfold SessionShared.handleFin
  simp only [h.resolveStream_eq, hadd]
  cases hc : e.shared.streams[f.streamId]? with
  | none => exact h.drop rfl rfl rfl rfl
  | some c =>
    dsimp only
    split
    · split <;> exact h.drop rfl rfl rfl rfl
    · next hopen =>
      have hctx : (e.view f.streamId).ctx = c := ctx_eq hc
      have hstream := h.streams f.streamId
      have hsend : SendInv L (e.sent f.streamId) (peer.received f.streamId).length c :=
        hctx ▸ hstream.send
      have hrecv := (hctx ▸ hstream.recv : RecvInv _ _ _ _ _ c)
      have hnoted : SendInv L (e.sent f.streamId) (peer.received f.streamId).length
          { c with remoteFinal := some (peer.view f.streamId).sent.flatten.length } :=
        hsend.of_eq rfl id hsend.final
      have hfrozen' : c.Frozen → StreamCtx.Frozen
          { c with remoteFinal := some (peer.view f.streamId).sent.flatten.length } := id
      refine h.outcomeCtx hc rfl rfl rfl rfl (hnoted.setTerm .fin) (hrecv.finish hfrozen hopen)
        (fun hf => (hfrozen' hf).setTerm .fin) (by rw [setTerm_journal]) (fun herr => ?_)
        fun g hg => (by cases hg)
      rcases term_setTerm { c with
          remoteFinal := some (peer.view f.streamId).sent.flatten.length } .fin with hold | hnew
      · exact Or.inl (hold ▸ herr)
      · rw [hnew] at herr
        cases herr

theorem EndInv.tookReset (h : EndInv L e peer) :
    EndStep L e (e.outcome (e.shared.handleReset f).1 (e.shared.handleReset f).2) peer := by
  unfold SessionShared.handleReset
  simp only [h.resolveStream_eq]
  cases hc : e.shared.streams[f.streamId]? with
  | none =>
    dsimp only
    split
    · exact h.drop rfl rfl rfl rfl
    · split <;> exact h.drop rfl rfl rfl rfl
  | some c =>
    have hctx : (e.view f.streamId).ctx = c := ctx_eq hc
    have hstream := h.streams f.streamId
    have hsend : SendInv L (e.sent f.streamId) (peer.received f.streamId).length c :=
      hctx ▸ hstream.send
    have hrecv := (hctx ▸ hstream.recv : RecvInv _ _ _ _ _ c)
    have hnoted : SendInv L (e.sent f.streamId) (peer.received f.streamId).length
        { c with peerReset := true } := hsend.of_eq rfl id hsend.final
    have hnoted' : RecvInv _ _ _ _ _ { c with peerReset := true } :=
      hrecv.of_eq rfl rfl rfl id id
    refine h.outcomeCtx hc rfl rfl rfl rfl (hnoted.terminate rfl)
      (hnoted'.terminate (prefix_refl _) rfl) (fun _ => frozen_terminate rfl)
      heldBytes_terminate_le (fun herr => ?_) fun g hg => (by cases hg)
    rcases term_terminate (c := { c with peerReset := true }) (t := .peerReset) with hold | hnew
    · exact Or.inl (hold ▸ herr)
    · rw [hnew] at herr
      cases herr

/-- **A true frame of the peer.** -/
theorem EndInv.handle (h : EndInv L e peer)
    (hfits : ((peer.view f.streamId).sent).flatten.length < 2 ^ 64) (hidle : e.delivering = none)
    (hf : FrameOk (peer.view f.streamId) f) : EndStep L e (e.handle owner f) peer := by
  unfold Endpoint.handle SessionShared.beginFrame
  split
  · exact h.drop rfl rfl rfl rfl
  split
  · exact h.drop rfl rfl rfl rfl
  split
  · exact h.drop rfl rfl rfl rfl
  split
  · exact h.drop rfl rfl rfl rfl
  unfold FrameOk at hf
  split
  · next hdata =>
    rw [hdata] at hf
    exact h.tookData hfits hidle hf
  · next hack =>
    rw [hack] at hf
    exact h.tookAck hf
  · next hfin =>
    rw [hfin] at hf
    exact h.tookFin hfits hf
  · next hopen =>
    rw [hopen] at hf
    exact hf.elim
  · exact h.tookReset
  · exact h.drop rfl rfl rfl rfl

/-! ## Acting -/

/-- Offsets are 64-bit: what is sent keeps the stream below 2^64 bytes. -/
def Endpoint.Fits (e : Endpoint) : Act → Prop
  | .sendData sid payload _ | .prepareSend sid payload =>
    (e.sent sid).flatten.length + payload.length < 2 ^ 64
  | _ => True

instance (e : Endpoint) (a : Act) : Decidable (e.Fits a) := by
  cases a <;> unfold Endpoint.Fits <;> infer_instance

/-- What a step gives: the invariant, an advance, and a true frame if it wrote one. -/
def ActOk (L : JournalLimits) (e peer : Endpoint) (r : Endpoint × Option Frame) : Prop :=
  EndStep L e r.1 peer ∧ ∀ g ∈ r.2, FrameOk (r.1.view g.streamId) g

theorem EndStep.silent {e' : Endpoint} (h : EndStep L e e' peer) : ActOk L e peer (e', none) :=
  ⟨h, fun g hg => (by cases hg)⟩

theorem EndInv.actSendData (h : EndInv L e peer) {p : Bytes} {written : Bool}
    (hact : e.act i (.sendData sid p written) = some r)
    (hfits : (e.sent sid).flatten.length + p.length < 2 ^ 64) : ActOk L e peer r := by
  simp only [Endpoint.act] at hact
  split at hact
  · cases hact
  · obtain ⟨⟨off, e'⟩, hrec, hwritten⟩ := map_eq_some_iff.mp hact
    obtain ⟨hstep, hchunk⟩ := h.recordSend hrec hfits
    dsimp only at hwritten
    split at hwritten
    · obtain rfl := hwritten
      refine ⟨hstep, fun g hg => ?_⟩
      obtain rfl := some.inj hg
      exact hchunk
    · obtain rfl := hwritten
      exact (hstep.trans (hstep.inv.markLocalAbort sid)).silent

theorem EndInv.actPrepareSend (h : EndInv L e peer) {p : Bytes}
    (hact : e.act i (.prepareSend sid p) = some r)
    (hfits : (e.sent sid).flatten.length + p.length < 2 ^ 64) : ActOk L e peer r := by
  simp only [Endpoint.act] at hact
  obtain ⟨⟨off, e'⟩, hrec, rfl⟩ := map_eq_some_iff.mp hact
  obtain ⟨hstep, hchunk⟩ := h.recordSend hrec hfits
  refine (hstep.trans (hstep.inv.setPrepared fun t ht => ?_)).silent
  rcases mem_append.mp ht with hold | hnew
  · exact hstep.inv.prepared t hold
  · obtain rfl := mem_singleton.mp hnew
    exact hchunk

theorem EndInv.actFinish (h : EndInv L e peer) {written : Bool}
    (hact : e.act i (.finish sid written) = some r) : ActOk L e peer r := by
  simp only [Endpoint.act] at hact
  split at hact
  · cases hact
  · next f shared hok =>
    split at hact
    · obtain rfl := some.inj hact
      obtain ⟨hstep, hfin⟩ := h.finish hok
      refine ⟨hstep, fun g hg => ?_⟩
      obtain rfl := some.inj hg
      exact hfin
    · obtain rfl := some.inj hact
      exact (h.finishFailed hok).silent

theorem EndInv.actReplayNext (h : EndInv L e peer) {k : Nat} {order : List Nat}
    (hact : e.act i (.replayNext k order) = some r) : ActOk L e peer r := by
  simp only [Endpoint.act] at hact
  obtain ⟨⟨j, task⟩, hk, hact⟩ := bind_eq_some_iff.mp hact
  dsimp only at hact
  split at hact
  · cases hact
  · obtain ⟨⟨task', f⟩, hstep, rfl⟩ := map_eq_some_iff.mp hact
    obtain ⟨hrest, hframe⟩ := h.replayStep (h.replays _ (mem_of_getElem? hk)) hstep
    exact ⟨h.setReplays (forall_mem_set h.replays hrest), hframe⟩

/-- **An act of an endpoint.** -/
theorem EndInv.act (h : EndInv L e peer) {a : Act} (hact : e.act i a = some r) (hfits : e.Fits a) :
    ActOk L e peer r := by
  cases a with
  | openStream sid =>
    simp only [Endpoint.act] at hact
    split at hact
    · cases hact
    · next shared hok =>
      obtain rfl := some.inj hact
      exact (h.openStream hok).silent
  | sendData sid p written => exact h.actSendData hact hfits
  | prepareSend sid p => exact h.actPrepareSend hact hfits
  | sendDataAt k =>
    simp only [Endpoint.act] at hact
    obtain ⟨⟨sid, off, p⟩, hk, hact⟩ := bind_eq_some_iff.mp hact
    dsimp only at hact
    split at hact
    · cases hact
    · obtain rfl := some.inj hact
      refine ⟨h.refl, fun g hg => ?_⟩
      obtain rfl := some.inj hg
      exact h.prepared _ (mem_of_getElem? hk)
  | finish sid written => exact h.actFinish hact
  | recvPop sid =>
    obtain ⟨⟨b, shared⟩, hpop, rfl⟩ := map_eq_some_iff.mp hact
    exact (h.recvPop hpop).silent
  | recvCommit sid len =>
    simp only [Endpoint.act] at hact
    split at hact
    · cases hact
    · next hle =>
      obtain rfl := some.inj hact
      exact (h.recvCommit (Nat.not_lt.mp hle)).silent
  | recvCheck sid =>
    simp only [Endpoint.act] at hact
    split at hact
    · next hended =>
      obtain rfl := some.inj hact
      exact (h.recvCheck hended).silent
    · cases hact
  | recvEnd k =>
    obtain ⟨c, hk, hact⟩ := bind_eq_some_iff.mp hact
    split at hact
    · next hempty =>
      obtain rfl := some.inj hact
      exact (h.recvEnd (mem_of_getElem? hk) hempty).silent
    · cases hact
  | enqueue =>
    obtain ⟨⟨owner, d⟩, hd, rfl⟩ := map_eq_some_iff.mp hact
    exact (h.enqueue hd).silent
  | writeControl k =>
    obtain ⟨f, hk, rfl⟩ := map_eq_some_iff.mp hact
    refine ⟨h.setOutbox fun g hg => h.outbox g (mem_of_mem_eraseIdx hg), fun g hg => ?_⟩
    obtain rfl := some.inj hg
    exact h.outbox _ (mem_of_getElem? hk)
  | dropControl k =>
    obtain rfl := some.inj hact
    exact (h.setOutbox fun g hg => h.outbox g (mem_of_mem_eraseIdx hg)).silent
  | install =>
    obtain rfl := some.inj hact
    exact (h.setChannel i).silent
  | startReplay order =>
    obtain rfl := some.inj hact
    exact (h.startReplay i order).silent
  | replayNext k order => exact h.actReplayNext hact
  | replayFails k =>
    obtain rfl := some.inj hact
    exact (h.setReplays fun r hr => h.replays r (mem_of_mem_eraseIdx hr)).silent

end Handling

/-! ## The system -/

theorem Side.peer_peer (x : Side) : x.peer.peer = x := by cases x <;> rfl

theorem Side.peer_ne (x : Side) : x.peer ≠ x := by cases x <;> decide

theorem Side.eq_or_peer (x y : Side) : y = x ∨ y = x.peer := by cases x <;> cases y <;> decide

theorem Link.mem_of_mem_pop {c : Link} {x y : Side} (h : f ∈ (c.pop x).inFlight y) :
    f ∈ c.inFlight y := by
  change f ∈ update c.inFlight x (c.inFlight x).tail y at h
  rcases x.eq_or_peer y with rfl | rfl
  · rw [update_self] at h
    exact mem_of_mem_tail h
  · rw [update_of_ne x.peer_ne] at h
    exact h

theorem Link.mem_push {c : Link} {x y : Side} {g : Frame} (h : g ∈ (c.push x f).inFlight y) :
    g ∈ c.inFlight y ∨ (y = x ∧ g = f) := by
  change g ∈ update c.inFlight x (c.inFlight x ++ [f]) y at h
  rcases x.eq_or_peer y with rfl | rfl
  · rw [update_self] at h
    exact (mem_append.mp h).imp_right fun hnew => ⟨rfl, mem_singleton.mp hnew⟩
  · rw [update_of_ne x.peer_ne] at h
    exact Or.inl h

structure ExchangeInv (L : JournalLimits) (s : Exchange) : Prop where
  ends : ∀ x, EndInv L (s.ends x) (s.ends x.peer)
  inFlight : ∀ c ∈ s.channels, ∀ x, ∀ f ∈ c.inFlight x, FrameOk ((s.ends x).view f.streamId) f
  summaries : ∀ c ∈ s.channels, ∀ m ∈ c.summaries,
    m.recvAck ≤ ((s.ends .client).received m.streamId).length

def Exchange.Fits (s : Exchange) : ExchangeLabel → Prop
  | .act x _ a => (s.ends x).Fits a
  | _ => True

instance (s : Exchange) (l : ExchangeLabel) : Decidable (s.Fits l) := by
  cases l <;> unfold Exchange.Fits <;> infer_instance

namespace ExchangeInv

variable {L : JournalLimits} {s : Exchange}

theorem fits (h : ExchangeInv L s) (x : Side) (sid : Nat) :
    ((s.ends x).view sid).sent.flatten.length < 2 ^ 64 :=
  ((h.ends x).streams sid).send.fits

theorem setEnd (h : ExchangeInv L s) {x : Side} {e : Endpoint}
    (hstep : EndStep L (s.ends x) e (s.ends x.peer)) : ExchangeInv L (s.setEnd x e) := by
  have hself : (s.setEnd x e).ends x = e := update_self ..
  have hpeer : (s.setEnd x e).ends x.peer = s.ends x.peer := update_of_ne x.peer_ne ..
  have hadv : ∀ y, (s.ends y).Advances ((s.setEnd x e).ends y) := by
    intro y
    rcases x.eq_or_peer y with rfl | rfl
    · rw [hself]
      exact hstep.advances
    · rw [hpeer]
      exact fun _ => .refl _
  refine ⟨fun y => ?_, fun c hc y f hf => (h.inFlight c hc y f hf).of_advances (hadv y _),
    fun c hc m hm => Nat.le_trans (h.summaries c hc m hm) (hadv .client _).received⟩
  rcases x.eq_or_peer y with rfl | rfl
  · rw [hself, hpeer]
    exact hstep.inv
  · rw [x.peer_peer, hself, hpeer]
    have hother := h.ends x.peer
    rw [x.peer_peer] at hother
    exact hother.of_peer hstep.advances

variable {i : Nat}

theorem setChannel (h : ExchangeInv L s) {c : Link}
    (hframes : ∀ x, ∀ f ∈ c.inFlight x, FrameOk ((s.ends x).view f.streamId) f)
    (hsummaries : ∀ m ∈ c.summaries, m.recvAck ≤ ((s.ends .client).received m.streamId).length) :
    ExchangeInv L (s.setChannel i c) :=
  ⟨h.ends, forall_mem_set h.inFlight hframes, forall_mem_set h.summaries hsummaries⟩

theorem pop (h : ExchangeInv L s) {c : Link} (hc : s.channels[i]? = some c) (x : Side) :
    ExchangeInv L (s.setChannel i (c.pop x)) := by
  have hmem := mem_of_getElem? hc
  exact h.setChannel (fun y f hf => h.inFlight c hmem y f (Link.mem_of_mem_pop hf))
    (h.summaries c hmem)

theorem put {s' : Exchange} (h : ExchangeInv L s) {x : Side} {f : Option Frame}
    (hf : ∀ g ∈ f, FrameOk ((s.ends x).view g.streamId) g) (hput : s.put x i f = some s') :
    ExchangeInv L s' := by
  cases f with
  | none =>
    obtain rfl := some.inj hput
    exact h
  | some f =>
    obtain ⟨c, hc, hput⟩ := bind_eq_some_iff.mp hput
    have hmem := mem_of_getElem? hc
    split at hput
    · obtain rfl := some.inj hput
      refine h.setChannel (fun y g hg => ?_) (h.summaries c hmem)
      rcases Link.mem_push hg with hold | ⟨rfl, rfl⟩
      · exact h.inFlight c hmem y g hold
      · exact hf _ rfl
    · cases hput

end ExchangeInv

/-! ## Runs -/

theorem view_new (sessionId : BytesN 16) (token : Token) (isClient : Bool) (L : JournalLimits)
    (sid : Nat) :
    (Endpoint.new (.new sessionId token isClient L)).view sid
      = { ctx := .new sid L, sent := [], received := [], queue := .empty, pending := []
          uncommitted := 0 } := by
  simp [Endpoint.view, Endpoint.ctx, Endpoint.pending, Endpoint.new, SessionShared.new]

theorem endInv_new (sessionId : BytesN 16) (token : Token) (isClient isClient' : Bool)
    (L : JournalLimits) :
    EndInv L (.new (.new sessionId token isClient L)) (.new (.new sessionId token isClient' L)) := by
  refine ⟨rfl, rfl, fun sid => ?_, ?_, fun sid herr => ?_, fun d hd => (by cases hd),
    fun f hf => (by cases hf), fun t ht => (by cases ht), fun r hr => (by cases hr),
    fun c hc => (by cases hc), fun c hc => (by cases hc)⟩
  · rw [view_new, view_new]
    exact ⟨.new L sid 0, .new _ [] sid L, rfl⟩
  · simp [Endpoint.new, SessionShared.new]
  · rw [view_new] at herr
    cases herr

theorem exchangeInv_fresh (sessionId : BytesN 16) (token : Token) (L : JournalLimits) :
    ExchangeInv L (.fresh sessionId token L) := by
  refine ⟨fun x => ?_, fun c hc x f hf => ?_, fun c hc m hm => ?_⟩
  · cases x <;> exact endInv_new ..
  · obtain rfl := mem_singleton.mp hc
    cases hf
  · obtain rfl := mem_singleton.mp hc
    cases hm

theorem EndInv.summaries_le {e peer : Endpoint} (h : EndInv L e peer)
    {m : SessionShared.StreamSummary} (hm : m ∈ e.shared.summaries) :
    m.recvAck ≤ (e.received m.streamId).length := by
  obtain ⟨⟨sid, c⟩, hc, rfl⟩ := List.mem_map.mp hm
  have hctx : (e.view sid).ctx = c := ctx_eq (ExtTreeMap.mem_toList_iff_getElem?_eq_some.mp hc)
  have hcommitted := (hctx ▸ (h.streams sid).recv : RecvInv _ _ _ _ _ c).committed
  show c.committedOffset ≤ (e.received sid).length
  change c.committedOffset + e.uncommitted sid = (e.received sid).length at hcommitted
  omega

/-- **A step of the system.** -/
theorem ExchangeInv.step {s s' : Exchange} {l : ExchangeLabel} (h : ExchangeInv L s)
    (hfits : s.Fits l) (hstep : s.step l = some s') : ExchangeInv L s' := by
  cases l with
  | act x i a =>
    obtain ⟨⟨e, f⟩, hact, hput⟩ := bind_eq_some_iff.mp hstep
    obtain ⟨hend, hframe⟩ := (h.ends x).act hact hfits
    refine (h.setEnd hend).put (fun g hg => ?_) hput
    show FrameOk ((update s.ends x e x).view g.streamId) g
    rw [update_self]
    exact hframe g hg
  | deliver x i =>
    obtain ⟨c, hc, hstep⟩ := bind_eq_some_iff.mp hstep
    obtain ⟨f, hf, hstep⟩ := bind_eq_some_iff.mp hstep
    dsimp only at hstep
    split at hstep
    · cases hstep
    · next hidle =>
      obtain rfl := some.inj hstep
      have htrue := h.inFlight c (mem_of_getElem? hc) x f (mem_of_mem_head? hf)
      have hend := h.ends x.peer
      rw [x.peer_peer] at hend
      refine (h.pop hc x).setEnd ?_
      show EndStep L (s.ends x.peer) _ (s.ends x.peer.peer)
      rw [x.peer_peer]
      refine hend.handle (h.fits x f.streamId) ?_ htrue
      simpa using (not_or.mp hidle).2
  | drop x i =>
    obtain ⟨c, hc, hstep⟩ := bind_eq_some_iff.mp hstep
    split at hstep
    · cases hstep
    · obtain rfl := some.inj hstep
      exact h.pop hc x
  | attempt =>
    obtain rfl := some.inj hstep
    refine ⟨h.ends, fun c hc x f hf => ?_, fun c hc m hm => ?_⟩
    · rcases mem_append.mp hc with hold | hnew
      · exact h.inFlight c hold x f hf
      · obtain rfl := mem_singleton.mp hnew
        cases hf
    · rcases mem_append.mp hc with hold | hnew
      · exact h.summaries c hold m hm
      · obtain rfl := mem_singleton.mp hnew
        exact (h.ends .client).summaries_le hm
  | trim i =>
    obtain ⟨c, hc, rfl⟩ := map_eq_some_iff.mp hstep
    exact h.setEnd ((h.ends .provider).trim (h.summaries c (mem_of_getElem? hc)))
  | die i =>
    obtain ⟨c, hc, rfl⟩ := map_eq_some_iff.mp hstep
    exact h.setChannel (fun x f hf => (by cases hf)) (h.summaries c (mem_of_getElem? hc))

/-- **The invariant of the exchange.** -/
theorem exchangeInv_of_reachable {s : Exchange}
    (h : (exchangeMachine L).ReachableUnder Exchange.Fits s) : ExchangeInv L s := by
  refine h.invariant (fun s hinit => ?_) fun s l s' hinv hfits hstep => hinv.step hfits hstep
  obtain ⟨sessionId, token, rfl⟩ := hinit
  exact exchangeInv_fresh sessionId token L

end Dweb
