import OpenDweb.Continuity.ExchangeInvariant

/-!
# OpenDweb — what an endpoint does by itself keeps the invariant

One lemma for each act of an endpoint: sending and finishing, the two halves of `recv` and its
end, the pump's step from window to queue, and the replay of the journals. Each gives an
`EndStep`, and says of the frame it writes, if any, that it is true.
-/

namespace Dweb

open Std (ExtTreeMap)
open List Option Std.ExtTreeMap
open Function (update update_of_ne update_self)

section Steps

variable {L : JournalLimits} {e e' peer : Endpoint}

/-! ## Sending -/

variable {shared : SessionShared} {sid owner : Nat} {d : Delivery}

theorem EndInv.openStream (h : EndInv L e peer) (hok : e.shared.reserveStreamSlot sid = .ok shared) :
    EndStep L e { e with shared := shared } peer := by
  obtain ⟨-, ⟨-, rfl⟩ | ⟨hnew, hshared⟩⟩ := SessionShared.reserveStreamSlot_eq_ok hok
  · exact h.refl
  · have hctx : e.ctx sid = StreamCtx.new sid e.shared.limits := by
      rw [Endpoint.ctx, ExtTreeMap.getElem?_eq_none hnew]
      rfl
    have hstreams : shared.streams
        = e.shared.streams.insert sid (StreamCtx.new sid e.shared.limits) := by rw [hshared]
    have hview : ∀ sid', ({ e with shared := shared } : Endpoint).view sid' = e.view sid' := by
      intro sid'
      rw [view_of_insert hstreams (by rw [hshared]) (by rw [hshared])]
      split
      · next heq =>
        subst heq
        rw [← hctx]
        rfl
      · rfl
    refine h.advance (fun sid' => ?_) (by rw [hshared]) (by rw [hshared]) (fun sid' => ?_) ?_
      (fun sid' => ?_) (fun d hd => Or.inl hd) ⟨rfl, rfl, rfl, rfl, rfl⟩
    · rw [hview]
      exact .refl _
    · rw [hview]
      exact h.streams sid'
    · have hins := mapSum_insert e.shared.streams (fun c => c.journal.heldBytes) sid
        (StreamCtx.new sid e.shared.limits)
      have hzero : (StreamCtx.new sid e.shared.limits).journal.heldBytes = 0 := mapSum_empty _
      have hheld := h.held
      show (mapSum shared.streams fun c => c.journal.heldBytes) ≤ _
      rw [hstreams]
      omega
    · rw [hview]
      exact h.errors sid'

theorem EndInv.markLocalAbort (h : EndInv L e peer) (sid : Nat) :
    EndStep L e { e with shared := e.shared.markLocalAbort sid } peer := by
  unfold SessionShared.markLocalAbort
  cases hc : e.shared.streams[sid]? with
  | none => exact h.refl
  | some c =>
    have hstream := h.streams sid
    have hctx : (e.view sid).ctx = c := ctx_eq hc
    have hstreams : (e.shared.streams.insert sid c.abort) = e.shared.streams.insert sid c.abort := rfl
    refine h.setCtx hc hstreams rfl rfl rfl ?_ ?_ (fun _ => Or.inr isErrorTerm_abort) ?_ ?_
    · exact (hctx ▸ hstream.send).abort
    · exact (hctx ▸ hstream.recv).abort
    · rw [abort_journal]
      exact StreamJournal.heldBytes_advanceAck_le _ _
    · intro herr
      rcases term_setTerm c .localAbort with hold | hnew
      · exact h.errors sid (by rw [hctx, ← hold]; exact herr)
      · rw [show c.abort.term = some .localAbort from hnew] at herr
        cases herr

theorem EndInv.recordSend (h : EndInv L e peer) {off : Nat} {p : Bytes}
    (hok : e.recordSend sid p = some (off, e'))
    (hfits : (e.sent sid).flatten.length + p.length < 2 ^ 64) :
    EndStep L e e' peer ∧ IsChunk (e'.view sid).sent off p := by
  unfold Endpoint.recordSend at hok
  split at hok
  · cases hok
  · next off' shared hrec =>
    obtain ⟨rfl, rfl⟩ := Prod.mk.inj (some.inj hok)
    obtain ⟨c, j, hc, hterm, hopen, hbytes, -, hjournal, hshared⟩ :=
      SessionShared.recordSend_eq_ok hrec
    have hctx : (e.view sid).ctx = c := ctx_eq hc
    have hstream := h.streams sid
    have hsend : SendInv L (e.sent sid) (peer.received sid).length c := hctx ▸ hstream.send
    obtain ⟨rfl, hsend'⟩ := hsend.record hterm hopen hjournal hfits
    have hthawed : ¬c.Frozen := by
      rintro (hfinal | herr)
      · rw [hopen] at hfinal
        cases hfinal
      · rw [hterm] at herr
        cases herr
    have hstreams : shared.streams = e.shared.streams.insert sid { c with journal := j } := by
      rw [hshared]
    have hview : ∀ sid', ({ e with
        shared := shared, sent := update e.sent sid (e.sent sid ++ [p]) } :
          Endpoint).view sid'
          = if sid = sid' then
              { e.view sid with ctx := { c with journal := j }, sent := e.sent sid ++ [p] }
            else e.view sid' := by
      intro sid'
      refine (view_of_sent { e with shared := shared } sid _ sid').trans ?_
      have hinner := view_of_insert (e := e) hstreams (by rw [hshared]) (by rw [hshared])
      rw [hinner, hinner, if_pos rfl]
      split <;> rfl
    refine ⟨h.setView hview ⟨hsend', ?_, hstream.queueBytes⟩ ?_ (by rw [hshared]) (by rw [hshared])
      ?_ (fun herr => h.errors sid (by rw [hctx]; exact herr)) (fun d hd => Or.inl hd)
      ⟨rfl, rfl, rfl, rfl, rfl⟩ rfl, ?_⟩
    · exact (hctx ▸ hstream.recv).of_eq rfl rfl rfl id id
    · exact ⟨⟨[p], rfl, fun hf => absurd (hctx ▸ hf) hthawed⟩, Nat.le_refl _, Nat.le_refl _,
        fun hf => absurd (hctx ▸ hf) hthawed⟩
    · have hins := mapSum_insert e.shared.streams (fun c => c.journal.heldBytes) sid
        { c with journal := j }
      have hadd : ({ c with journal := j } : StreamCtx).journal.heldBytes
          ≤ c.journal.heldBytes + p.length := StreamJournal.heldBytes_record_le hjournal
      rw [contribution_of_some hc] at hins
      rw [h.limits] at hbytes
      show (mapSum shared.streams fun c => c.journal.heldBytes) ≤ _
      rw [hstreams]
      omega
    · rw [hview, if_pos rfl]
      exact isChunk_last _ _

theorem EndInv.finish (h : EndInv L e peer) {f : Frame}
    (hok : e.shared.finish sid = .ok (f, shared)) :
    EndStep L e { e with shared := shared } peer
      ∧ FrameOk (({ e with shared := shared } : Endpoint).view f.streamId) f := by
  obtain ⟨c, hc, hterm, hopen, rfl, hshared⟩ := SessionShared.finish_eq_ok hok
  have hctx : (e.view sid).ctx = c := ctx_eq hc
  have hstream := h.streams sid
  have hsend : SendInv L (e.sent sid) (peer.received sid).length c := hctx ▸ hstream.send
  have hstreams : shared.streams = e.shared.streams.insert sid
      { c with finalSent := some c.journal.nextOffset } := by rw [hshared]
  have hfinal : ∀ n, some c.journal.nextOffset = some n → n = (e.sent sid).flatten.length :=
    fun n hn => (some.inj hn).symm.trans hsend.next
  refine ⟨h.setCtx hc hstreams (by rw [hshared]) (by rw [hshared]) (by rw [hshared])
    (hsend.of_eq rfl id hfinal) ?_ (fun _ => Or.inl rfl) (Nat.le_refl _)
    (fun herr => h.errors sid (by rw [hctx]; exact herr)), ?_⟩
  · exact (hctx ▸ hstream.recv).of_eq rfl rfl rfl id id
  · show FrameOk (({ e with shared := shared } : Endpoint).view sid) _
    rw [view_of_insert hstreams (by rw [hshared]) (by rw [hshared]), if_pos rfl]
    exact ⟨rfl, hsend.next, Or.inl rfl⟩

theorem EndInv.finishFailed (h : EndInv L e peer) {f : Frame}
    (hok : e.shared.finish sid = .ok (f, shared)) :
    EndStep L e { e with shared := shared.retractFinal sid } peer := by
  obtain ⟨c, hc, hterm, hopen, -, hshared⟩ := SessionShared.finish_eq_ok hok
  have hctx : (e.view sid).ctx = c := ctx_eq hc
  have hstream := h.streams sid
  have hsend : SendInv L (e.sent sid) (peer.received sid).length c := hctx ▸ hstream.send
  have hstreams : (shared.retractFinal sid).streams
      = e.shared.streams.insert sid { c with finalSent := none } := by
    show shared.streams.modify sid _ = _
    rw [hshared, modify_eq_insert getElem?_insert_self, insert_insert_self]
  refine h.setCtx hc hstreams (by rw [hshared]; rfl) (by rw [hshared]; rfl) (by rw [hshared]; rfl)
    (hsend.of_eq rfl id fun n hn => (by cases hn)) ?_ (fun hf => ?_) (Nat.le_refl _)
    (fun herr => h.errors sid (by rw [hctx]; exact herr))
  · exact (hctx ▸ hstream.recv).of_eq rfl rfl rfl id id
  · exact hf.imp_left fun hsome => by rw [hopen] at hsome; cases hsome

/-! ## Reading -/

theorem EndInv.recvPop (h : EndInv L e peer) {b : Bytes}
    (hok : e.shared.recvPop sid = some (b, shared)) :
    EndStep L e
      { e with
        shared := shared
        uncommitted := update e.uncommitted sid (e.uncommitted sid + b.length)
        received := update e.received sid (e.received sid ++ b) } peer := by
  obtain ⟨q, rest, hq, hframes, hshared⟩ := SessionShared.recvPop_eq_some hok
  have hqueue : (e.view sid).queue = q := by
    show e.shared.delivered[sid]?.getD .empty = q
    rw [hq]
    rfl
  have hview : ∀ sid', ({ e with
      shared := shared
      uncommitted := update e.uncommitted sid (e.uncommitted sid + b.length)
      received := update e.received sid (e.received sid ++ b) } : Endpoint).view sid'
      = if sid = sid' then
          { e.view sid with
            queue := { frames := rest, bytes := q.bytes - b.length }
            uncommitted := e.uncommitted sid + b.length
            received := e.received sid ++ b }
        else e.view sid' := by
    intro sid'
    unfold Endpoint.view Endpoint.ctx Endpoint.pending
    rw [hshared]
    by_cases hsame : sid = sid'
    · subst hsame
      simp only [if_true, update_self, getElem?_insert_self, getD_some]
    · simp only [if_neg hsame, update_of_ne (Ne.symm hsame),
        ExtTreeMap.getElem?_insert, compare_eq_iff_eq]
  have hstream := h.streams sid
  have hwaiting : (e.view sid).waiting = b ++ (rest.flatten ++ (e.view sid).pending.flatten) := by
    rw [StreamView.waiting, hqueue, hframes, flatten_cons, append_assoc]
  have hbytes := hstream.queueBytes
  rw [hqueue, hframes, flatten_cons, length_append] at hbytes
  refine h.setView hview ⟨hstream.send, ?_, ?_⟩ ⟨⟨[], by simp, fun _ => rfl⟩, ?_, ?_, id⟩
    (by rw [hshared]) (by rw [hshared]) ?_ (h.errors sid) (fun d hd => Or.inl hd)
    ⟨rfl, rfl, rfl, rfl, rfl⟩ rfl
  · exact (hwaiting ▸ hstream.recv).pop
  · show q.bytes - b.length = rest.flatten.length
    omega
  · show (e.received sid).length ≤ (e.received sid ++ b).length
    rw [length_append]
    omega
  · show (e.received sid ++ (e.view sid).queue.frames.flatten).length
      ≤ (e.received sid ++ b ++ rest.flatten).length
    rw [hqueue, hframes, flatten_cons, append_assoc]
  · show mapSum shared.streams _ ≤ _
    rw [hshared]
    exact h.held

theorem noteAck_commit (c : StreamCtx) (len : Nat) :
    ∃ n, ({ c with committedOffset := c.committedOffset + len } : StreamCtx).noteAck
      = { c with committedOffset := c.committedOffset + len, lastAckedOffset := n } := by
  obtain ⟨n, hn⟩ := noteAck_eq { c with committedOffset := c.committedOffset + len }
  exact ⟨n, hn⟩

theorem EndInv.received_of_none (h : EndInv L e peer) (hnone : e.shared.streams[sid]? = none) :
    (e.received sid ++ (e.view sid).waiting).length = 0 ∧ e.uncommitted sid = 0 := by
  have hctx : (e.view sid).ctx = StreamCtx.new sid e.shared.limits := by
    show e.ctx sid = _
    rw [Endpoint.ctx, hnone]
    rfl
  have hrecv := (h.streams sid).recv
  rw [hctx] at hrecv
  have hlen : (e.received sid ++ (e.view sid).waiting).length = 0 := by
    rcases hrecv.complete with hall | ⟨-, herr⟩
    · exact hall
    · cases herr
  have hcommitted : 0 + e.uncommitted sid = (e.received sid).length := hrecv.committed
  rw [length_append] at hlen
  exact ⟨by rw [length_append]; exact hlen, by omega⟩

theorem EndInv.recvCommit (h : EndInv L e peer) {len : Nat} (hle : len ≤ e.uncommitted sid) :
    EndStep L e
      { e with
        shared := (e.shared.recvCommit sid len).1
        uncommitted := update e.uncommitted sid (e.uncommitted sid - len)
        outbox := e.outbox ++ (e.shared.recvCommit sid len).2.toList } peer := by
  unfold SessionShared.recvCommit
  cases hc : e.shared.streams[sid]? with
  | none =>
    have hzero := (h.received_of_none hc).2
    have hsame : update e.uncommitted sid (e.uncommitted sid - len) = e.uncommitted := by
      rw [hzero, Nat.zero_sub, ← hzero, Function.update_eq_self]
    simp only [hsame, toList_none, append_nil]
    exact h.refl
  | some c =>
    obtain ⟨n, hn⟩ := noteAck_commit c len
    simp only [hn]
    have hctx : (e.view sid).ctx = c := ctx_eq hc
    have hstream := h.streams sid
    have hsend : SendInv L (e.sent sid) (peer.received sid).length c := hctx ▸ hstream.send
    have hrecv := (hctx ▸ hstream.recv : RecvInv _ _ _ _ _ c)
    have hcommit := hrecv.commit (n := n) hle
    generalize hstreams : e.shared.streams.insert sid
      { c with committedOffset := c.committedOffset + len, lastAckedOffset := n } = streams
    have hview : ∀ sid', ({ e with
        shared := { e.shared with streams := streams }
        uncommitted := update e.uncommitted sid (e.uncommitted sid - len) } :
          Endpoint).view sid'
        = if sid = sid' then
            { e.view sid with
              ctx := { c with committedOffset := c.committedOffset + len, lastAckedOffset := n }
              uncommitted := e.uncommitted sid - len }
          else e.view sid' := by
      intro sid'
      unfold Endpoint.view Endpoint.ctx Endpoint.pending
      rw [← hstreams]
      by_cases hsame : sid = sid'
      · subst hsame
        simp only [if_true, update_self, getElem?_insert_self, getD_some]
      · simp only [if_neg hsame, update_of_ne (Ne.symm hsame),
          ExtTreeMap.getElem?_insert, compare_eq_iff_eq]
    have hheld : (mapSum streams fun c => c.journal.heldBytes) ≤ L.maxSessionBytes := by
      rw [← hstreams]
      exact h.held_insert hc (Nat.le_refl _)
    have hstep := h.setView hview ⟨hsend.of_eq rfl id hsend.final, hcommit, hstream.queueBytes⟩
      (.of_ctx (fun hf => by rw [hctx] at hf; exact hf) rfl rfl rfl) rfl rfl hheld
      (fun herr => h.errors sid (by rw [hctx]; exact herr)) (fun d hd => Or.inl hd)
      ⟨rfl, rfl, rfl, rfl, rfl⟩ rfl
    refine hstep.trans (hstep.inv.setOutbox fun f hf => ?_)
    rcases mem_append.mp hf with hold | hnew
    · exact hstep.inv.outbox f hold
    · -- what is acknowledged has been popped
      split at hnew
      · obtain rfl := mem_singleton.mp hnew
        have hcommitted := hrecv.committed
        show c.committedOffset + len ≤ (e.received sid).length
        change c.committedOffset + e.uncommitted sid = (e.received sid).length at hcommitted
        omega
      · cases hnew

theorem EndInv.recvCheck (h : EndInv L e peer) (hended : (e.shared.recvEnded sid).1 = true) :
    EndStep L e
      { e with
        endChecks := e.endChecks ++
          [{ streamId := sid, term := (e.shared.recvEnded sid).2
             settled := e.delivering.all fun d => d.2.streamId ≠ sid }] } peer := by
  refine h.setEndChecks fun c hc => ?_
  rcases mem_append.mp hc with hold | hnew
  · exact h.endChecks c hold
  · obtain rfl := mem_singleton.mp hnew
    intro hsettled hterm
    unfold SessionShared.recvEnded at hended hterm
    cases hstream : e.shared.streams[sid]? with
    | none =>
      rw [hstream] at hended
      cases hended
    | some c =>
      rw [hstream] at hended hterm
      have hctx : (e.view sid).ctx = c := ctx_eq hstream
      have hrecv := (hctx ▸ (h.streams sid).recv : RecvInv _ _ _ _ _ c)
      obtain ⟨hfinal, hfrozen⟩ := hrecv.fin hterm
      have hpending : (e.view sid).pending = [] := by
        show e.pending sid = []
        unfold Endpoint.pending
        change e.delivering.all (fun d => d.2.streamId ≠ sid) = true at hsettled
        split
        · next owner d hd =>
          rw [hd] at hsettled
          rw [if_neg (of_decide_eq_true hsettled)]
        · rfl
      refine ⟨hfrozen, ?_⟩
      -- the whole string has crossed the window, and nothing stands behind it
      have hall : (peer.sent sid).flatten.length = c.recv.expectedOffset := by
        rcases Bool.or_eq_true _ _ ▸ hended with hreached | habort
        · exact some.inj (hfinal.symm.trans (of_decide_eq_true hreached))
        · have hterm' : c.term = some .fin := hterm
          rw [hterm'] at habort
          cases of_decide_eq_true habort
      have hlen : ((e.view sid).received ++ (e.view sid).queue.frames.flatten).length
          = c.recv.expectedOffset := by
        rcases hrecv.complete with hlen | ⟨-, herr⟩
        · rw [StreamView.waiting, hpending, flatten_nil, append_nil] at hlen
          exact hlen
        · have hterm' : c.term = some .fin := hterm
          rw [hterm'] at herr
          cases herr
      show (peer.sent sid).flatten.length ≤ _
      rw [hall, hlen]

theorem EndInv.recvEnd (h : EndInv L e peer) {c : EndCheck} (hc : c ∈ e.endChecks)
    (hempty : e.shared.queueEmpty c.streamId = true) :
    EndStep L e { e with ended := e.ended ++ [c] } peer := by
  refine h.setEnded fun c' hc' => ?_
  rcases mem_append.mp hc' with hold | hnew
  · exact h.ended c' hold
  · obtain rfl := mem_singleton.mp hnew
    have hframes : (e.view c'.streamId).queue.frames = [] := by
      show (e.shared.delivered[c'.streamId]?.getD .empty).frames = []
      unfold SessionShared.queueEmpty at hempty
      cases hq : e.shared.delivered[c'.streamId]? with
      | none => rfl
      | some q =>
        rw [hq] at hempty
        exact List.isEmpty_iff.mp hempty
    intro hsettled hterm
    have hfound := h.endChecks c' hc hsettled hterm
    rw [hframes, flatten_nil, append_nil] at hfound
    exact hfound

/-! ## The pump -/

theorem pending_of_none (hd : e.delivering = none) (sid : Nat) : e.pending sid = [] := by
  unfold Endpoint.pending
  rw [hd]

theorem pending_of_ne (hd : e.delivering = some (owner, d)) (hne : d.streamId ≠ sid) :
    e.pending sid = [] := by
  unfold Endpoint.pending
  rw [hd]
  exact if_neg hne

theorem pending_eq (hd : e.delivering = some (owner, d)) : e.pending d.streamId = d.segments := by
  unfold Endpoint.pending
  rw [hd]
  exact if_pos rfl

/-- The outcome of a frame: the streams of RESETs are noted first, as the new control blocks
need them, then the control blocks change, then the reply is put out. -/
theorem EndInv.outcome (h : EndInv L e peer) {shared : SessionShared} {o : FrameOutcome}
    {delivering : Option (Nat × Delivery)}
    (hstep : ∀ sids, (∀ f ∈ o.reply, f.frameType = .reset → f.streamId ∈ sids) →
      EndStep L { e with resetReplies := e.resetReplies ++ sids }
        { e with
          shared := shared
          delivering := delivering
          resetReplies := e.resetReplies ++ sids } peer)
    (hreply : ∀ f ∈ o.reply,
      FrameOk (({ e with shared := shared, delivering := delivering } : Endpoint).view f.streamId) f) :
    EndStep L e (({ e with delivering := delivering } : Endpoint).outcome shared o) peer := by
  have hshared := hstep ((o.reply.toList.filter fun f => f.frameType = .reset).map Frame.streamId)
    fun f hf hreset => List.mem_map_of_mem
      (List.mem_filter.mpr ⟨mem_toList.mpr hf, decide_eq_true hreset⟩)
  refine ((h.addResetReplies _).trans hshared).trans (hshared.inv.setOutbox fun f hf => ?_)
  rcases mem_append.mp hf with hold | hnew
  · exact hshared.inv.outbox f hold
  · exact hreply f (mem_toList.mp hnew)

theorem EndInv.enqueueRoom (h : EndInv L e peer) (hd : e.delivering = some (owner, d)) {n : Nat}
    (hstreams : shared.streams = e.shared.streams) (hlimits : shared.limits = e.shared.limits)
    (haliases : shared.aliases = e.shared.aliases)
    (hdelivered : shared.delivered = e.shared.delivered.insert d.streamId { frames := (e.shared.delivered[d.streamId]?.getD .empty).frames ++ d.segments, bytes := n })
    (hn : n = (e.shared.delivered[d.streamId]?.getD .empty).bytes + (d.segments.map List.length).sum) :
    EndStep L e { e with shared := shared, delivering := none } peer := by
  have hview : ∀ sid', ({ e with shared := shared, delivering := none } : Endpoint).view sid'
      = if d.streamId = sid' then
          { e.view d.streamId with
            queue :=
              { frames := (e.view d.streamId).queue.frames ++ d.segments, bytes := n }
            pending := [] }
        else e.view sid' := by
    intro sid'
    unfold Endpoint.view Endpoint.ctx
    rw [hstreams, hlimits, hdelivered]
    by_cases hsame : d.streamId = sid'
    · subst hsame
      simp only [if_true, getElem?_insert_self, getD_some]
      rfl
    · simp only [if_neg hsame, ExtTreeMap.getElem?_insert, compare_eq_iff_eq, pending_of_ne hd hsame]
      rfl
  have hstream := h.streams d.streamId
  have hpending : (e.view d.streamId).pending = d.segments := pending_eq hd
  refine h.setView hview ⟨hstream.send, ?_, ?_⟩ ⟨⟨[], by simp, fun _ => rfl⟩, Nat.le_refl _, ?_, id⟩
    hlimits haliases ?_ (h.errors _) nofun ⟨rfl, rfl, rfl, rfl, rfl⟩ rfl
  · -- the segments move from one place to the next
    have hrecv := hstream.recv
    rw [StreamView.waiting, hpending, ← flatten_append] at hrecv
    show RecvInv _ _ _ (((e.view d.streamId).queue.frames ++ d.segments).flatten ++ []) _ _
    rw [append_nil]
    exact hrecv
  · show n = ((e.view d.streamId).queue.frames ++ d.segments).flatten.length
    rw [hn, flatten_append, length_append, length_flatten (L := d.segments)]
    exact congrArg (· + _) hstream.queueBytes
  · simp only [flatten_append, length_append]
    omega
  · show mapSum shared.streams _ ≤ _
    rw [hstreams]
    exact h.held

theorem EndInv.enqueueFull (h : EndInv L e peer) (hd : e.delivering = some (owner, d))
    (hreset : d.streamId ∈ e.resetReplies)
    (hstreams : shared.streams = e.shared.streams.modify d.streamId fun c => c.terminate .protocolError)
    (hlimits : shared.limits = e.shared.limits) (haliases : shared.aliases = e.shared.aliases)
    (hdelivered : shared.delivered = e.shared.delivered) :
    EndStep L e { e with shared := shared, delivering := none } peer := by
  have hstream := h.streams d.streamId
  have hdropped : ∀ sid', d.streamId ≠ sid' → { e.view sid' with pending := [] } = e.view sid' := by
    intro sid' hne
    unfold Endpoint.view
    rw [pending_of_ne hd hne]
  have hcut : (e.view d.streamId).queue.frames.flatten ++ [] <+: (e.view d.streamId).waiting :=
    (prefix_append_right_inj _).mpr nil_prefix
  cases hc : e.shared.streams[d.streamId]? with
  | none =>
    -- an unknown stream has nothing to lose
    have hsame : shared.streams = e.shared.streams := by
      refine hstreams.trans (ExtTreeMap.ext_getElem? fun k => ?_)
      rw [ExtTreeMap.getElem?_modify]
      split
      · next heq =>
        rw [← compare_eq_iff_eq.mp heq, hc]
        rfl
      · rfl
    have hlen := (h.received_of_none hc).1
    rw [StreamView.waiting, length_append, length_append] at hlen
    have hnil : (e.view d.streamId).pending.flatten = [] :=
      eq_nil_of_length_eq_zero (by omega)
    have hrecv := hstream.recv
    rw [StreamView.waiting, hnil] at hrecv
    have hview := view_of_eq (e := e) hsame hlimits hdelivered
    refine h.setView (fun sid' => ?_) (v := { e.view d.streamId with pending := [] })
      ⟨hstream.send, hrecv, hstream.queueBytes⟩ (.of_ctx id rfl rfl rfl) hlimits haliases ?_
      (h.errors _) nofun ⟨rfl, rfl, rfl, rfl, rfl⟩ rfl
    · refine (congrArg (fun v : StreamView => { v with pending := [] }) (hview sid')).trans ?_
      split
      · next heq => rw [heq]
      · next hne => exact hdropped sid' hne
    · show mapSum shared.streams _ ≤ _
      rw [hsame]
      exact h.held
  | some c =>
    have hctx : (e.view d.streamId).ctx = c := ctx_eq hc
    have hinsert := hstreams.trans (modify_eq_insert hc)
    have hview := view_of_insert (e := e) hinsert hlimits hdelivered
    refine h.setView (fun sid' => ?_)
      (v := { e.view d.streamId with ctx := c.terminate .protocolError, pending := [] })
      ⟨(hctx ▸ hstream.send).terminate rfl, (hctx ▸ hstream.recv).terminate hcut rfl,
        hstream.queueBytes⟩ (.of_ctx (fun _ => frozen_terminate rfl) rfl rfl rfl) hlimits haliases ?_
      (fun _ => hreset) nofun ⟨rfl, rfl, rfl, rfl, rfl⟩ rfl
    · refine (congrArg (fun v : StreamView => { v with pending := [] }) (hview sid')).trans ?_
      split
      · rfl
      · next hne => exact hdropped sid' hne
    · show mapSum shared.streams _ ≤ _
      rw [hinsert]
      exact h.held_insert hc heldBytes_terminate_le

theorem EndInv.enqueue (h : EndInv L e peer) {owner : Nat} {d : Delivery}
    (hd : e.delivering = some (owner, d)) :
    EndStep L e
      (({ e with delivering := none } : Endpoint).outcome (e.shared.enqueueDelivered owner d).1
        (e.shared.enqueueDelivered owner d).2) peer := by
  unfold SessionShared.enqueueDelivered
  split
  · have hroom (sids : List Nat) : EndStep L { e with resetReplies := e.resetReplies ++ sids }
        { e with
          shared := { e.shared with
            delivered := e.shared.delivered.insert d.streamId
              { frames := (e.shared.delivered[d.streamId]?.getD .empty).frames ++ d.segments
                bytes := (e.shared.delivered[d.streamId]?.getD .empty).bytes
                  + (d.segments.map List.length).sum }
            resumeControl := e.shared.resumeControl.noteConfirmed owner }
          delivering := none
          resetReplies := e.resetReplies ++ sids } peer :=
      (h.addResetReplies sids).inv.enqueueRoom hd rfl rfl rfl rfl rfl
    refine h.outcome (fun sids _ => hroom sids) fun f hf => ?_
    obtain rfl := some.inj hf
    exact (h.delivery _ hd).2.of_advances ((hroom []).advances _)
  · refine h.outcome (fun sids hsids => ?_) fun f hf => ?_
    · exact (h.addResetReplies sids).inv.enqueueFull hd
        (mem_append_right _ (hsids _ rfl rfl)) rfl rfl rfl rfl
    · obtain rfl := some.inj hf
      trivial

/-! ## Replaying -/

theorem mem_interleaveRound {batches : List (Nat × List (Nat × Bytes))} {t : Nat × Nat × Bytes}
    (ht : t ∈ interleaveRound batches) : ∃ b ∈ batches, b.1 = t.1 ∧ t.2 ∈ b.2 := by
  obtain ⟨b, hb, ht⟩ := mem_flatMap.mp ht
  obtain ⟨seg, hseg, rfl⟩ := List.mem_map.mp ht
  exact ⟨b, hb, rfl, mem_of_mem_take hseg⟩

theorem mem_interleaveLoop {fuel : Nat} {batches : List (Nat × List (Nat × Bytes))}
    {t : Nat × Nat × Bytes} (ht : t ∈ interleaveLoop fuel batches) :
    ∃ b ∈ batches, b.1 = t.1 ∧ t.2 ∈ b.2 := by
  induction fuel generalizing batches with
  | zero => cases ht
  | succ fuel ih =>
    unfold interleaveLoop at ht
    split at ht
    · cases ht
    · rcases mem_append.mp ht with hround | hlater
      · exact mem_interleaveRound hround
      · obtain ⟨b', hb', hid, hseg⟩ := ih hlater
        obtain ⟨b, hb, rfl⟩ := List.mem_map.mp hb'
        exact ⟨b, hb, hid, mem_of_mem_drop hseg⟩

theorem mem_replayBatches {s : SessionShared} {order : List Nat}
    {b : Nat × List (Nat × Bytes)} (hb : b ∈ s.replayBatches order) :
    ∃ c, s.streams[b.1]? = some c ∧ ∀ seg ∈ b.2, c.journal.segments[seg.1]? = some seg.2 := by
  obtain ⟨sid, -, hsid⟩ := List.mem_filterMap.mp hb
  obtain ⟨c, hc, hsid⟩ := bind_eq_some_iff.mp hsid
  split at hsid
  · obtain rfl := some.inj hsid
    exact ⟨c, hc, fun seg hseg => mem_toList_iff_getElem?_eq_some.mp hseg⟩
  · cases hsid

theorem EndInv.startReplay (h : EndInv L e peer) (i : Nat) (order : List Nat) :
    EndStep L e
      { e with
        replays := e.replays ++
          [(i, .data (interleaveReplay (e.shared.replayBatches order)))] } peer := by
  refine h.setReplays fun r hr t ht => ?_
  rcases mem_append.mp hr with hold | hnew
  · exact h.replays r hold t ht
  · obtain rfl := mem_singleton.mp hnew
    obtain ⟨b, hb, hid, hseg⟩ := mem_interleaveLoop ht
    obtain ⟨c, hc, hheld⟩ := mem_replayBatches hb
    have hctx : (e.view t.1).ctx = c := ctx_eq (hid ▸ hc)
    have hsend : SendInv L (e.sent t.1) (peer.received t.1).length c :=
      hctx ▸ (h.streams t.1).send
    exact hsend.segments _ _ (hheld _ hseg)

theorem EndInv.replayStep (h : EndInv L e peer) {order : List Nat} {task task' : ReplayTask}
    {f : Option Frame}
    (htask : ∀ t ∈ task.segments, IsChunk (e.view t.1).sent t.2.1 t.2.2)
    (hstep : Endpoint.replayStep e.shared order task = some (task', f)) :
    (∀ t ∈ task'.segments, IsChunk (e.view t.1).sent t.2.1 t.2.2)
      ∧ ∀ g ∈ f, FrameOk (e.view g.streamId) g := by
  unfold Endpoint.replayStep at hstep
  split at hstep
  · next sid offset payload rest =>
    obtain ⟨rfl, rfl⟩ := Prod.mk.inj (some.inj hstep)
    refine ⟨fun t ht => htask t (mem_cons_of_mem _ ht), fun g hg => ?_⟩
    obtain ⟨c, -, hg⟩ := bind_eq_some_iff.mp hg
    split at hg
    · cases hg
    · obtain rfl := some.inj hg
      exact htask _ mem_cons_self
  · obtain ⟨rfl, rfl⟩ := Prod.mk.inj (some.inj hstep)
    exact ⟨fun t ht => (by cases ht), fun g hg => (by cases hg)⟩
  · next sid final rest =>
    obtain ⟨rfl, rfl⟩ := Prod.mk.inj (some.inj hstep)
    refine ⟨fun t ht => (by cases ht), fun g hg => ?_⟩
    obtain ⟨c, hc, hg⟩ := bind_eq_some_iff.mp hg
    split at hg
    · next hholds =>
      -- the snapshot still holds, so the stream is finished at that offset
      obtain rfl := some.inj hg
      have hctx : (e.view sid).ctx = c := ctx_eq hc
      have hsend : SendInv L (e.sent sid) (peer.received sid).length c :=
        hctx ▸ (h.streams sid).send
      refine ⟨rfl, hsend.final _ hholds.2, ?_⟩
      show (e.view sid).ctx.Frozen
      rw [hctx]
      exact Or.inl (by rw [hholds.2]; rfl)
    · cases hg
  · obtain ⟨rfl, rfl⟩ := Prod.mk.inj (some.inj hstep)
    exact ⟨fun t ht => (by cases ht), fun g hg => (by cases hg)⟩
  · obtain ⟨rfl, rfl⟩ := Prod.mk.inj (some.inj hstep)
    refine ⟨fun t ht => (by cases ht), fun g hg => ?_⟩
    obtain rfl := some.inj hg
    trivial
  · cases hstep

theorem EndInv.applySummary (h : EndInv L e peer) {summary : SessionShared.StreamSummary}
    (hread : summary.recvAck ≤ (peer.received summary.streamId).length) :
    EndStep L e { e with shared := e.shared.applySummary summary } peer := by
  unfold SessionShared.applySummary
  cases hc : e.shared.streams[summary.streamId]? with
  | none => exact h.refl
  | some c =>
    dsimp only
    split
    · exact h.of_view_eq rfl rfl rfl rfl
    · have hctx : (e.view summary.streamId).ctx = c := ctx_eq hc
      have hstream := h.streams summary.streamId
      have hsend : SendInv L (e.sent summary.streamId) (peer.received summary.streamId).length c :=
        hctx ▸ hstream.send
      refine h.setCtx hc rfl rfl rfl rfl (hsend.advanceAck hread) ?_ id
        (StreamJournal.heldBytes_advanceAck_le _ _)
        (fun herr => h.errors _ (by rw [hctx]; exact herr))
      exact (hctx ▸ hstream.recv).of_eq rfl rfl rfl id id

theorem EndInv.trim (h : EndInv L e peer) {summaries : List SessionShared.StreamSummary}
    (hread : ∀ summary ∈ summaries, summary.recvAck ≤ (peer.received summary.streamId).length) :
    EndStep L e (e.trim summaries) peer := by
  unfold Endpoint.trim SessionShared.advanceJournalFromSummary
  induction summaries generalizing e with
  | nil => exact h.refl
  | cons summary rest ih =>
    have hfirst := h.applySummary (hread summary mem_cons_self)
    exact hfirst.trans (ih hfirst.inv fun s hs => hread s (mem_cons_of_mem _ hs))

end Steps

end Dweb
