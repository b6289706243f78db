import OpenDweb.Continuity.OpenAdmission
import OpenDweb.Continuity.StreamInvariant

/-!
# OpenDweb — what others leave of a sending stream

The FIN of a stream and its local abort are this side's own doing: no incoming frame and no
segment booked touches them.

* **`StreamCtx.SendKept`** — the stream is sent on as before.
* **`SessionShared.SendKept`** — so are all streams of the session, one lemma for each branch
  of `handle_frame_with_owner` and for `record_send`.
-/

namespace Dweb

open Std (ExtTreeMap)

/-- The FIN and the local abort of a stream are as they were; an error term stays one. -/
structure StreamCtx.SendKept (c c' : StreamCtx) : Prop where
  finalSent : c'.finalSent = c.finalSent
  aborted : c'.term = some .localAbort ↔ c.term = some .localAbort
  error : isErrorTerm c.term = true → isErrorTerm c'.term = true

namespace StreamCtx.SendKept

variable {c c' : StreamCtx}

theorem of_eq (hfinal : c'.finalSent = c.finalSent) (hterm : c'.term = c.term) :
    c.SendKept c' where
  finalSent := hfinal
  aborted := by rw [hterm]
  error h := by rwa [hterm]

theorem setTerm {t : StreamTerm} (ht : t ≠ .localAbort) (hfinal : c'.finalSent = c.finalSent)
    (hterm : c'.term = (c.setTerm t).term) :
    c.SendKept c' where
  finalSent := hfinal
  aborted := by
    rw [hterm, StreamCtx.setTerm]
    split
    · exact Iff.rfl
    · next hno =>
      refine iff_of_false (fun h => ht (Option.some.inj h)) fun h => hno ?_
      rw [h]
      rfl
  error h := by
    rw [hterm]
    exact isErrorTerm_setTerm_of h

theorem trans {c'' : StreamCtx} (h : c.SendKept c') (h' : c'.SendKept c'') :
    c.SendKept c'' where
  finalSent := h'.finalSent.trans h.finalSent
  aborted := h'.aborted.trans h.aborted
  error he := h'.error (h.error he)

theorem congr {d : StreamCtx} (h : d.SendKept c') (hfinal : d.finalSent = c.finalSent)
    (hterm : d.term = c.term) : c.SendKept c' :=
  (of_eq hfinal hterm).trans h

theorem terminate (c : StreamCtx) {t : StreamTerm} (ht : t ≠ .localAbort) :
    c.SendKept (c.terminate t) := by
  refine setTerm ht ?_ ?_
  · unfold StreamCtx.terminate StreamCtx.clearJournal StreamCtx.setTerm
    split <;> rfl
  · unfold StreamCtx.terminate StreamCtx.clearJournal StreamCtx.setTerm
    dsimp only
    split <;> rfl

end StreamCtx.SendKept

namespace SessionShared

structure SendKept (s s' : SessionShared) : Prop where
  isClient : s'.isClient = s.isClient
  streams : ∀ (sid : Nat) (c : StreamCtx), s.streams[sid]? = some c →
    ∃ c' : StreamCtx, s'.streams[sid]? = some c' ∧ c.SendKept c'

namespace SendKept

variable {s s' : SessionShared}

theorem of_eq (hclient : s'.isClient = s.isClient) (hstreams : s'.streams = s.streams) :
    s.SendKept s' :=
  ⟨hclient, fun _ c h => ⟨c, hstreams ▸ h, .of_eq rfl rfl⟩⟩

theorem of_insert {sid : Nat} {c c' : StreamCtx} (hstreams : s'.streams = s.streams.insert sid c')
    (hclient : s'.isClient = s.isClient) (hc : s.streams[sid]? = some c) (hkept : c.SendKept c') :
    s.SendKept s' := by
  refine ⟨hclient, fun id d hd => ?_⟩
  rw [hstreams]
  by_cases h : sid = id
  · subst h
    rw [hc] at hd
    cases hd
    exact ⟨c', ExtTreeMap.getElem?_insert_self, hkept⟩
  · refine ⟨d, ?_, .of_eq rfl rfl⟩
    rw [ExtTreeMap.getElem?_insert, if_neg (fun he => h (compare_eq_iff_eq.mp he)), hd]

theorem of_new {sid : Nat} {c' : StreamCtx} (hnew : sid ∉ s.streams)
    (hclient : s'.isClient = s.isClient) (hstreams : s'.streams = s.streams.insert sid c') :
    s.SendKept s' := by
  refine ⟨hclient, fun id d hd => ⟨d, ?_, .of_eq rfl rfl⟩⟩
  have hne : sid ≠ id := fun h => by
    rw [h, ExtTreeMap.mem_iff_isSome_getElem?, hd] at hnew
    exact hnew rfl
  rw [hstreams, ExtTreeMap.getElem?_insert, if_neg (fun he => hne (compare_eq_iff_eq.mp he)), hd]

theorem trans {t u : SessionShared} (h : s.SendKept t) (h' : t.SendKept u) : s.SendKept u := by
  refine ⟨h'.isClient.trans h.isClient, fun sid c hc => ?_⟩
  obtain ⟨c', hc', hkept⟩ := h.streams sid c hc
  obtain ⟨c'', hc'', hkept'⟩ := h'.streams sid c' hc'
  exact ⟨c'', hc'', hkept.trans hkept'⟩

theorem modifyStream (s : SessionShared) (sid : Nat) {g : StreamCtx → StreamCtx}
    (hg : ∀ c : StreamCtx, c.SendKept (g c)) : s.SendKept (s.modifyStream sid g) := by
  refine ⟨rfl, fun id c hc => ?_⟩
  unfold SessionShared.modifyStream
  rw [ExtTreeMap.getElem?_modify]
  split
  · next h =>
    obtain rfl := compare_eq_iff_eq.mp h
    exact ⟨g c, by rw [hc]; rfl, hg c⟩
  · exact ⟨c, hc, .of_eq rfl rfl⟩

end SendKept

theorem noteAck_sendKept (c : StreamCtx) : c.SendKept c.noteAck := by
  unfold StreamCtx.noteAck
  split <;> exact .of_eq rfl rfl

theorem sendKept_recordSend {s s' : SessionShared} {sid offset : Nat} {payload : Bytes}
    (h : s.recordSend sid payload = .ok (offset, s')) : s.SendKept s' := by
  obtain ⟨ctx, journal, hctx, -, -, -, -, -, rfl⟩ := recordSend_eq_ok h
  exact .of_insert rfl rfl hctx (.of_eq rfl rfl)

theorem sendKept_handleData (s : SessionShared) (f : Frame) : s.SendKept (s.handleData f).1 := by
  unfold handleData
  extract_lets sid reset sessionGapBytes
  split
  · exact .of_eq rfl rfl
  · next ctx hctx =>
    split
    · exact .of_eq rfl rfl
    · split
      · exact .of_eq rfl rfl
      · split
        · exact .of_insert rfl rfl hctx (.terminate ctx (by decide))
        · dsimp only
          -- whatever the window says, only it and the acknowledged offset have changed
          split
          · exact .of_insert rfl rfl hctx (.congr (noteAck_sendKept _) rfl rfl)
          · exact .of_insert rfl rfl hctx (.congr (noteAck_sendKept _) rfl rfl)
          · exact .of_insert rfl rfl hctx (.of_eq rfl rfl)
          · exact .of_insert rfl rfl hctx (.congr (.terminate _ (by decide)) rfl rfl)
          · exact .of_insert rfl rfl hctx (.congr (.terminate _ (by decide)) rfl rfl)

theorem sendKept_enqueueDelivered (s : SessionShared) (owner : Nat) (d : Delivery) :
    s.SendKept (s.enqueueDelivered owner d).1 := by
  unfold enqueueDelivered
  split
  · exact .of_eq rfl rfl
  · exact (SendKept.modifyStream s d.streamId fun c => .terminate c (by decide)).trans
      (.of_eq rfl rfl)

theorem sendKept_handleAck (s : SessionShared) (owner : Nat) (f : Frame) :
    s.SendKept (s.handleAck owner f).1 := by
  unfold handleAck
  extract_lets sid
  split
  · exact .of_eq rfl rfl
  · next ctx hctx =>
    split
    · exact .of_eq rfl rfl
    · exact .of_insert rfl rfl hctx (.of_eq rfl rfl)

theorem sendKept_handleFin (s : SessionShared) (f : Frame) : s.SendKept (s.handleFin f).1 := by
  unfold handleFin
  extract_lets sid
  split
  · exact .of_eq rfl rfl
  · next ctx hctx =>
    split
    · exact .of_eq rfl rfl
    · split
      · dsimp only
        split <;> exact .of_eq rfl rfl
      · refine .of_insert rfl rfl hctx (.setTerm (t := .fin) (by decide) ?_ ?_)
        · unfold StreamCtx.setTerm
          split <;> rfl
        · unfold StreamCtx.setTerm
          dsimp only
          split <;> rfl

theorem sendKept_handleReset (s : SessionShared) (f : Frame) :
    s.SendKept (s.handleReset f).1 := by
  unfold handleReset
  extract_lets sid
  split
  · next ctx hctx =>
    exact .of_insert rfl rfl hctx (.congr (.terminate _ (by decide)) rfl rfl)
  · split
    · exact .of_eq rfl rfl
    · split <;> exact .of_eq rfl rfl

theorem sendKept_reserveStreamSlot {s s' : SessionShared} {sid : Nat}
    (h : s.reserveStreamSlot sid = .ok s') : s.SendKept s' := by
  obtain ⟨-, ⟨-, rfl⟩ | ⟨hnew, rfl⟩⟩ := reserveStreamSlot_eq_ok h
  · exact .of_eq rfl rfl
  · exact .of_new hnew rfl rfl

theorem sendKept_onOpen (s : SessionShared) (sid : Nat) (key : String) :
    s.SendKept (s.onOpen sid key).1 := by
  unfold onOpen
  split <;> exact .of_eq rfl rfl

theorem sendKept_handleOpen (s : SessionShared) (f : Frame) : s.SendKept (s.handleOpen f).1 := by
  have hbooked := s.sendKept_onOpen f.streamId (parseIdemKey f.payload)
  unfold handleOpen
  dsimp only
  split
  · split
    · exact hbooked.trans (.of_eq rfl rfl)
    · next t ht =>
      have hslot := hbooked.trans (sendKept_reserveStreamSlot ht)
      split
      · refine (hslot.trans (.of_eq rfl rfl)).trans
          ((SendKept.modifyStream _ _ fun c => .setTerm (t := .peerReset) (by decide) ?_ ?_).trans
            (.of_eq rfl rfl))
        · unfold StreamCtx.setTerm
          split <;> rfl
        · unfold StreamCtx.setTerm
          dsimp only
          split <;> rfl
      · exact hslot.trans (.of_eq rfl rfl)
  · split
    · exact hbooked.trans (.of_eq rfl rfl)
    · exact hbooked

theorem sendKept_beginFrame (s : SessionShared) (owner : Nat) (f : Frame) :
    s.SendKept (s.beginFrame owner f).1 := by
  unfold beginFrame
  split
  · exact .of_eq rfl rfl
  · split
    · exact .of_eq rfl rfl
    · split
      · exact .of_eq rfl rfl
      · split
        · exact .of_eq rfl rfl
        · split
          · exact s.sendKept_handleData f
          · exact s.sendKept_handleAck owner f
          · exact s.sendKept_handleFin f
          · exact s.sendKept_handleOpen f
          · exact s.sendKept_handleReset f
          · exact .of_eq rfl rfl

end SessionShared

end Dweb
