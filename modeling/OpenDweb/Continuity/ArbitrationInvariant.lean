import OpenDweb.Continuity.Arbitration
import OpenDweb.Continuity.SendKept

/-!
# OpenDweb — the invariant of the terminal arbitration

* **`ArbTask.Knows`** — what the operation that holds the lock has found out and may still rely
  on, since nobody else ends the stream.
* **`ArbInv`** — a local abort takes the FIN back, a provider's finished stream keeps it, and a
  RESET is owed only for a stream that is over.
* **`ArbInv.proceed`**, **`ArbInv.step`** — every critical section keeps it.
-/

namespace Dweb

open Std (ExtTreeMap)
open List Option Bool

/-! ## What the lock makes of a stream -/

/-- `finish` of the stream has returned `Ok`. -/
def HasFinished (sid : Nat) (log : List WireEvent) : Prop :=
  ∃ e ∈ log, e.isFinished sid = true

/-- What the operation that holds the lock has found out about the stream `sid`, which is `c`. -/
def ArbTask.Knows (sid : Nat) (isClient : Bool) (pending : List PendingWrite)
    (log : List WireEvent) (c : StreamCtx) : ArbTask → Prop
  | .sendDataChecked id _ | .sendDataRecorded id _ _ | .sendDataFailed id =>
    id = sid → c.finalSent = none ∧ c.term ≠ some .localAbort
  | .finishChecked id =>
    id = sid → c.finalSent = none ∧ c.term ≠ some .localAbort ∧ PendingWrite.reset sid ∉ pending
  | .finishBooked id _ | .finishFailed id =>
    id = sid → c.finalSent.isSome = true ∧ c.term ≠ some .localAbort
      ∧ PendingWrite.reset sid ∉ pending ∧ (isClient = false → ¬HasFinished sid log)
  | .abortDecided id | .closeDecided id _ => id = sid → isClient = false → c.finalSent = none
  | .closeReset id _ => id = sid → isErrorTerm c.term = true ∧ c.finalSent = none
  | .replaying f => f.frameType ≠ .reset ∧ (f.streamId = sid → c.term ≠ some .localAbort)
  | _ => True

/-- The stream `sid` is `c`: a local abort takes the FIN back, a provider's finished stream
keeps it, and a RESET is owed only for a stream that is over. -/
structure ArbInv (sid : Nat) (s : Arbitration) (c : StreamCtx) : Prop where
  stream : s.shared.streams[sid]? = some c
  withdrawn : c.term = some .localAbort → c.finalSent = none
  aborted : ∀ e ∈ s.log, e.isAborted sid = true → c.term = some .localAbort
  resetSent : ∀ e ∈ s.log, e.isAbortReset sid = true → c.term = some .localAbort
  finished : s.shared.isClient = false → HasFinished sid s.log → c.finalSent.isSome = true
  owed : PendingWrite.reset sid ∈ s.pending → isErrorTerm c.term = true ∧ c.finalSent = none
  holder : ∀ t ∈ s.holder, t.Knows sid s.shared.isClient s.pending s.log c

variable {sid : Nat} {c : StreamCtx}

theorem ArbTask.Knows.of_sendKept {isClient : Bool} {pending : List PendingWrite}
    {log : List WireEvent} {c' : StreamCtx} {t : ArbTask} (hk : c.SendKept c')
    (h : t.Knows sid isClient pending log c) : t.Knows sid isClient pending log c' := by
  have hterm : c.term ≠ some .localAbort → c'.term ≠ some .localAbort :=
    fun hne he => hne (hk.aborted.mp he)
  cases t with
  | sendDataChecked id _ | sendDataRecorded id _ _ | sendDataFailed id =>
    intro hid
    obtain ⟨hfinal, hne⟩ := h hid
    exact ⟨hk.finalSent.trans hfinal, hterm hne⟩
  | finishChecked id =>
    intro hid
    obtain ⟨hfinal, hne, hpending⟩ := h hid
    exact ⟨hk.finalSent.trans hfinal, hterm hne, hpending⟩
  | finishBooked id _ | finishFailed id =>
    intro hid
    obtain ⟨hfinal, hne, hrest⟩ := h hid
    exact ⟨hk.finalSent ▸ hfinal, hterm hne, hrest⟩
  | abortDecided id | closeDecided id _ =>
    intro hid hprovider
    exact hk.finalSent.trans (h hid hprovider)
  | closeReset id _ =>
    intro hid
    obtain ⟨herr, hfinal⟩ := h hid
    exact ⟨hk.error herr, hk.finalSent.trans hfinal⟩
  | replaying f => exact ⟨h.1, fun hid => hterm (h.2 hid)⟩
  | _ => trivial

theorem hasFinished_wrote {events log : List WireEvent}
    (hevents : ∀ e ∈ events, e.isFinished sid = false) :
    HasFinished sid (events ++ log) ↔ HasFinished sid log := by
  constructor
  · rintro ⟨e, he, hfin⟩
    rcases mem_append.mp he with he | he
    · rw [hevents e he] at hfin
      cases hfin
    · exact ⟨e, he, hfin⟩
  · rintro ⟨e, he, hfin⟩
    exact ⟨e, mem_append_right _ he, hfin⟩

theorem termOf_eq {s : SessionShared} (h : s.streams[sid]? = some c) : s.termOf sid = c.term := by
  rw [SessionShared.termOf, h]
  rfl

theorem mem_wroteEvents {s : SessionShared} {f : Frame} {w : WriteOutcome} {e : WireEvent}
    (h : e ∈ wroteEvents s f w) : w.landed = true ∧ e = .wrote f (s.termOf f.streamId) := by
  unfold wroteEvents at h
  split at h
  · next hlanded => exact ⟨hlanded, mem_singleton.mp h⟩
  · cases h

theorem markLocalAbort_streams (s : SessionShared) (id sid : Nat) :
    (s.markLocalAbort id).streams[sid]?
      = if id = sid then s.streams[sid]?.map StreamCtx.abort else s.streams[sid]? := by
  unfold SessionShared.markLocalAbort
  by_cases hid : id = sid
  · subst hid
    rw [if_pos rfl]
    split
    · next hnone =>
      rw [hnone]
      rfl
    · next ctx hctx =>
      rw [hctx]
      exact ExtTreeMap.getElem?_insert_self
  · rw [if_neg hid]
    split
    · rfl
    · rw [ExtTreeMap.getElem?_insert, if_neg fun he => hid (compare_eq_iff_eq.mp he)]

theorem abort_term_of (h : c.term = some .localAbort) : c.abort.term = some .localAbort := by
  have hset : c.setTerm .localAbort = c := by
    unfold StreamCtx.setTerm
    rw [h]
    rfl
  unfold StreamCtx.abort StreamCtx.clearJournal
  rw [hset]
  exact h

namespace ArbInv

variable {sid : Nat} {s : Arbitration} {c : StreamCtx}

variable {holder : Option ArbTask} {id : Nat}

theorem kept (h : ArbInv sid s c) {shared : SessionShared} (hk : s.shared.SendKept shared)
    {events : List WireEvent}
    (hevents : ∀ e ∈ events, ∃ f, e = .wrote f (s.shared.termOf f.streamId))
    (hholder : ∀ t ∈ holder, t.Knows sid s.shared.isClient s.pending s.log c) :
    ∃ c', ArbInv sid
      { s with shared := shared, holder := holder, log := events ++ s.log } c' := by
  obtain ⟨c', hc', hkept⟩ := hk.streams sid c h.stream
  have hfinished : HasFinished sid (events ++ s.log) ↔ HasFinished sid s.log := by
    refine hasFinished_wrote fun e he => ?_
    obtain ⟨f, rfl⟩ := hevents e he
    rfl
  refine ⟨c', hc', fun ht => ?_, fun e he ha => ?_, fun e he hr => ?_, fun hp hf => ?_,
    fun hp => ?_, fun t ht => ?_⟩
  · exact hkept.finalSent.trans (h.withdrawn (hkept.aborted.mp ht))
  · rcases mem_append.mp he with he | he
    · obtain ⟨f, rfl⟩ := hevents e he
      cases ha
    · exact hkept.aborted.mpr (h.aborted e he ha)
  · rcases mem_append.mp he with he | he
    · obtain ⟨f, rfl⟩ := hevents e he
      simp only [WireEvent.isAbortReset, and_eq_true, decide_eq_true_eq] at hr
      rw [hr.1.2, termOf_eq h.stream] at hr
      exact hkept.aborted.mpr hr.2
    · exact hkept.aborted.mpr (h.resetSent e he hr)
  · rw [hkept.finalSent]
    exact h.finished (hk.isClient ▸ hp) (hfinished.mp hf)
  · obtain ⟨herr, hfinal⟩ := h.owed hp
    exact ⟨hkept.error herr, hkept.finalSent.trans hfinal⟩
  · have hknows := (hholder t ht).of_sendKept hkept
    -- only `finished` events matter to what the operation knows of the history
    cases t with
    | finishBooked id _ | finishFailed id =>
      intro hid
      obtain ⟨hsome, hne, hpending, hfin⟩ := hknows hid
      exact ⟨hsome, hne, hpending, fun hp hf => hfin (hk.isClient ▸ hp) (hfinished.mp hf)⟩
    | abortDecided id | closeDecided id _ => exact fun hid hp => hknows hid (hk.isClient ▸ hp)
    | _ => exact hknows

theorem marked (h : ArbInv sid s c) (id : Nat)
    (hprovider : id = sid → s.shared.isClient = false → c.finalSent = none)
    {owed : List PendingWrite} (howed : ∀ p ∈ owed, p = .reset id)
    (hholder : ∀ t ∈ holder, ∃ sids, t = .closeReset id sids) :
    ∃ c', ArbInv sid (s.after
      { shared := s.shared.markLocalAbort id, holder := holder, owed := owed,
        events := abortedEvents (s.shared.markLocalAbort id) id }) c' := by
  have hclient := (s.shared.keeps_markLocalAbort id).isClient
  have hnotFinished : ∀ e ∈ abortedEvents (s.shared.markLocalAbort id) id,
      e.isFinished sid = false := by
    intro e he
    unfold abortedEvents at he
    split at he
    · rw [mem_singleton.mp he]
      rfl
    · cases he
  have hnotReset : ∀ e ∈ abortedEvents (s.shared.markLocalAbort id) id,
      e.isAbortReset sid = false := by
    intro e he
    unfold abortedEvents at he
    split at he
    · rw [mem_singleton.mp he]
      rfl
    · cases he
  by_cases hid : id = sid
  · -- the stream itself: it is over, and its FIN is taken back
    subst hid
    have hstream : (s.shared.markLocalAbort id).streams[id]? = some c.abort := by
      rw [markLocalAbort_streams, if_pos rfl, h.stream]
      rfl
    have habort : ∀ e ∈ abortedEvents (s.shared.markLocalAbort id) id,
        c.abort.term = some .localAbort := by
      intro e he
      unfold abortedEvents at he
      split at he
      · next hterm => exact (termOf_eq hstream).symm.trans hterm
      · cases he
    refine ⟨c.abort, hstream, fun _ => rfl, fun e he ha => ?_, fun e he hr => ?_, fun hp hf => ?_,
      fun _ => ⟨isErrorTerm_abort, rfl⟩, fun t ht => ?_⟩
    · rcases mem_append.mp he with he | he
      · exact habort e he
      · exact abort_term_of (h.aborted e he ha)
    · rcases mem_append.mp he with he | he
      · rw [hnotReset e he] at hr
        cases hr
      · exact abort_term_of (h.resetSent e he hr)
    · have hp' : s.shared.isClient = false := hclient ▸ hp
      have hsome := h.finished hp' ((hasFinished_wrote hnotFinished).mp hf)
      rw [hprovider rfl hp'] at hsome
      cases hsome
    · obtain ⟨sids, rfl⟩ := hholder t ht
      exact fun _ => ⟨isErrorTerm_abort, rfl⟩
  · have hstream : (s.shared.markLocalAbort id).streams[sid]? = some c := by
      rw [markLocalAbort_streams, if_neg hid, h.stream]
    refine ⟨c, hstream, h.withdrawn, fun e he ha => ?_, fun e he hr => ?_, fun hp hf => ?_,
      fun hp => ?_, fun t ht => ?_⟩
    · rcases mem_append.mp he with he | he
      · unfold abortedEvents at he
        split at he
        · rw [mem_singleton.mp he] at ha
          exact absurd (of_decide_eq_true ha) hid
        · cases he
      · exact h.aborted e he ha
    · rcases mem_append.mp he with he | he
      · rw [hnotReset e he] at hr
        cases hr
      · exact h.resetSent e he hr
    · exact h.finished (hclient ▸ hp) ((hasFinished_wrote hnotFinished).mp hf)
    · rcases mem_append.mp hp with hp | hp
      · exact absurd (PendingWrite.reset.inj (howed _ hp)).symm hid
      · exact h.owed hp
    · obtain ⟨sids, rfl⟩ := hholder t ht
      exact fun he => absurd he hid

theorem passed (h : ArbInv sid s c) {events : List WireEvent}
    (hevents : ∀ e ∈ events, ∃ f, e = .wrote f (s.shared.termOf f.streamId))
    (hholder : ∀ t ∈ holder, t.Knows sid s.shared.isClient s.pending s.log c) :
    ∃ c', ArbInv sid (s.after
      { shared := s.shared, holder := holder, owed := [], events := events }) c' :=
  h.kept (.of_eq rfl rfl) hevents hholder

theorem passed_wrote (h : ArbInv sid s c) (f : Frame) (w : WriteOutcome)
    (hholder : ∀ t ∈ holder, t.Knows sid s.shared.isClient s.pending s.log c) :
    ∃ c', ArbInv sid (s.after
      { shared := s.shared, holder := holder, owed := [],
        events := wroteEvents s.shared f w }) c' :=
  h.passed (fun _ he => ⟨f, (mem_wroteEvents he).2⟩) hholder

theorem of_ensureSendStream (h : ArbInv sid s c) (hok : s.shared.ensureSendStream id = .ok ())
    (hid : id = sid) : isErrorTerm c.term = false ∧ c.finalSent = none := by
  obtain ⟨ctx, hctx, hterm, hfinal⟩ := SessionShared.ensureSendStream_eq_ok hok
  rw [hid, h.stream] at hctx
  cases hctx
  exact ⟨hterm, hfinal⟩

theorem not_finished (h : ArbInv sid s c) (hfinal : c.finalSent = none)
    (hprovider : s.shared.isClient = false) : ¬HasFinished sid s.log := fun hf => by
  have hsome := h.finished hprovider hf
  rw [hfinal] at hsome
  cases hsome

theorem of_not_frozen (h : ArbInv sid s c)
    (hfrozen : ¬s.shared.streams[id]?.any s.shared.abortIsFrozen = true) (hid : id = sid)
    (hprovider : s.shared.isClient = false) : c.finalSent = none := by
  rw [hid, h.stream] at hfrozen
  unfold SessionShared.abortIsFrozen at hfrozen
  by_cases hterm : c.term = some .localAbort
  · exact h.withdrawn hterm
  · simpa [hterm, hprovider] using hfrozen

theorem not_isErrorTerm_ne {t : Option StreamTerm} (h : isErrorTerm t = false) :
    t ≠ some .localAbort := fun he => by
  rw [he] at h
  cases h

theorem booked (h : ArbInv sid s c) {final : Nat} {shared : SessionShared}
    (ht : s.holder = some (.finishChecked id)) (hok : s.shared.bookFinal id = .ok (final, shared)) :
    ∃ c', ArbInv sid (s.after (.next shared (.finishBooked id final) [])) c' := by
  unfold SessionShared.bookFinal at hok
  split at hok
  · cases hok
  · next ctx hctx =>
    split at hok
    · cases hok
    · next hterm =>
      simp only [Except.ok.injEq, Prod.mk.injEq] at hok
      obtain ⟨rfl, rfl⟩ := hok
      by_cases hid : id = sid
      · subst hid
        rw [h.stream] at hctx
        cases hctx
        obtain ⟨hnone, -, hpending⟩ := h.holder _ ht rfl
        refine ⟨{ c with finalSent := some c.journal.nextOffset }, ExtTreeMap.getElem?_insert_self,
          fun he => absurd he hterm, h.aborted, h.resetSent, fun _ _ => rfl,
          fun hp => absurd hp hpending, fun t ht' => ?_⟩
        cases ht'
        exact fun _ => ⟨rfl, hterm, hpending, h.not_finished hnone⟩
      · refine ⟨c, ?_, h.withdrawn, h.aborted, h.resetSent, h.finished, h.owed, fun t ht' => ?_⟩
        · exact (ExtTreeMap.getElem?_insert.trans
            (if_neg fun he => hid (compare_eq_iff_eq.mp he))).trans h.stream
        · cases ht'
          exact fun he => absurd he hid

theorem retracted (h : ArbInv sid s c) (ht : s.holder = some (.finishFailed id)) :
    ∃ c', ArbInv sid (s.after (.release (s.shared.retractFinal id) [])) c' := by
  have hstream : (s.shared.retractFinal id).streams[sid]?
      = if id = sid then some { c with finalSent := none } else some c := by
    unfold SessionShared.retractFinal SessionShared.modifyStream
    rw [ExtTreeMap.getElem?_modify]
    by_cases hid : id = sid
    · rw [if_pos (compare_eq_iff_eq.mpr hid), if_pos hid, hid, h.stream]
      rfl
    · rw [if_neg fun he => hid (compare_eq_iff_eq.mp he), if_neg hid, h.stream]
  by_cases hid : id = sid
  · obtain ⟨-, -, hpending, hfin⟩ := h.holder _ ht hid
    rw [if_pos hid] at hstream
    exact ⟨_, hstream, fun _ => rfl, h.aborted, h.resetSent,
      fun hp hf => absurd hf (hfin hp), fun hp => absurd hp hpending, nofun⟩
  · rw [if_neg hid] at hstream
    exact ⟨c, hstream, h.withdrawn, h.aborted, h.resetSent, h.finished, h.owed,
      nofun⟩

theorem finishedOk (h : ArbInv sid s c) {final : Nat}
    (ht : s.holder = some (.finishBooked id final)) (f : Frame) :
    ArbInv sid (s.after (.release s.shared
      (.finished id :: wroteEvents s.shared f .written))) c := by
  have hwrote : ∀ e ∈ wroteEvents s.shared f .written,
      e = .wrote f (s.shared.termOf f.streamId) := fun e he => (mem_wroteEvents he).2
  refine ⟨h.stream, h.withdrawn, fun e he ha => ?_, fun e he hr => ?_, fun hp hf => ?_, h.owed,
    nofun⟩
  · rcases mem_append.mp he with he | he
    · rcases mem_cons.mp he with rfl | he
      · cases ha
      · rw [hwrote e he] at ha
        cases ha
    · exact h.aborted e he ha
  · rcases mem_append.mp he with he | he
    · rcases mem_cons.mp he with rfl | he
      · cases hr
      · rw [hwrote e he] at hr
        simp only [WireEvent.isAbortReset, and_eq_true, decide_eq_true_eq] at hr
        rw [hr.1.2, termOf_eq h.stream] at hr
        exact hr.2
    · exact h.resetSent e he hr
  · by_cases hid : id = sid
    · exact (h.holder _ ht hid).1
    · refine h.finished hp ((hasFinished_wrote fun e he => ?_).mp hf)
      rcases mem_cons.mp he with rfl | he
      · exact decide_eq_false hid
      · rw [hwrote e he]
        rfl

theorem ofPending (h : ArbInv sid s c) {pending : List PendingWrite}
    (hsub : PendingWrite.reset sid ∈ pending → PendingWrite.reset sid ∈ s.pending) :
    ArbInv sid { s with pending := pending } c := by
  refine ⟨h.stream, h.withdrawn, h.aborted, h.resetSent, h.finished, fun hp => h.owed (hsub hp),
    fun t ht => ?_⟩
  have hknows := h.holder t ht
  cases t with
  | finishChecked id =>
    intro hid
    obtain ⟨hfinal, hne, hpending⟩ := hknows hid
    exact ⟨hfinal, hne, fun hp => hpending (hsub hp)⟩
  | finishBooked id _ | finishFailed id =>
    intro hid
    obtain ⟨hsome, hne, hpending, hfin⟩ := hknows hid
    exact ⟨hsome, hne, fun hp => hpending (hsub hp), hfin⟩
  | _ => exact hknows

theorem ofDeliveries (h : ArbInv sid s c) (deliveries : List Delivery) :
    ArbInv sid { s with deliveries := deliveries } c :=
  ⟨h.stream, h.withdrawn, h.aborted, h.resetSent, h.finished, h.owed, h.holder⟩

/-- **One critical section of the operation that holds the lock.** -/
theorem proceed (h : ArbInv sid s c) {t : ArbTask} (ht : s.holder = some t) (w : WriteOutcome) :
    ∃ c', ArbInv sid (s.after (t.proceed s.shared w)) c' := by
  have hno : ∀ e ∈ ([] : List WireEvent), ∃ f, e = .wrote f (s.shared.termOf f.streamId) :=
    nofun
  have hrelease : ∃ c', ArbInv sid (s.after (.release s.shared [])) c' :=
    h.passed hno nofun
  have hknows := h.holder t ht
  -- a replay's check passes only while the stream is not aborted
  have hreplay : ∀ f? : Option Frame,
      (∀ f ∈ f?, f.frameType ≠ .reset ∧ (f.streamId = sid → c.term ≠ some .localAbort)) →
        ∃ c', ArbInv sid (s.after (ArbTask.replayCheck s.shared f?)) c' := by
    intro f? hf
    cases f? with
    | none => exact hrelease
    | some f =>
      refine h.passed hno fun t ht' => ?_
      cases ht'
      exact hf f rfl
  cases t with
  | sendData id payload =>
    simp only [ArbTask.proceed]
    split
    · exact hrelease
    · next hok =>
      refine h.passed hno fun t ht' => ?_
      cases ht'
      intro hid
      obtain ⟨hterm, hfinal⟩ := h.of_ensureSendStream hok hid
      exact ⟨hfinal, not_isErrorTerm_ne hterm⟩
  | sendDataChecked id payload =>
    simp only [ArbTask.proceed]
    split
    · exact hrelease
    · next offset shared hok =>
      refine h.kept (SessionShared.sendKept_recordSend hok) hno fun t ht' => ?_
      cases ht'
      exact hknows
  | sendDataRecorded id offset payload =>
    simp only [ArbTask.proceed]
    split
    · exact h.passed_wrote _ w nofun
    · refine h.passed_wrote _ w fun t ht' => ?_
      cases ht'
      exact hknows
  | sendDataFailed id =>
    simp only [ArbTask.proceed]
    exact h.marked id (fun hid _ => (hknows hid).1) nofun
      nofun
  | finish id =>
    simp only [ArbTask.proceed]
    split
    · exact hrelease
    · next hok =>
      refine h.passed hno fun t ht' => ?_
      cases ht'
      intro hid
      obtain ⟨hterm, hfinal⟩ := h.of_ensureSendStream hok hid
      refine ⟨hfinal, not_isErrorTerm_ne hterm, fun hp => ?_⟩
      rw [(h.owed hp).1] at hterm
      cases hterm
  | finishChecked id =>
    simp only [ArbTask.proceed]
    split
    · exact hrelease
    · next final shared hok => exact h.booked ht hok
  | finishBooked id final =>
    simp only [ArbTask.proceed]
    split
    · next hw =>
      subst hw
      exact ⟨c, h.finishedOk ht _⟩
    · refine h.passed_wrote _ w fun t ht' => ?_
      cases ht'
      exact hknows
  | finishFailed id => exact h.retracted ht
  | abort id =>
    simp only [ArbTask.proceed]
    split
    · exact hrelease
    · next hfrozen =>
      refine h.passed hno fun t ht' => ?_
      cases ht'
      exact fun hid hp => h.of_not_frozen hfrozen hid hp
  | abortDecided id =>
    simp only [ArbTask.proceed]
    exact h.marked id hknows (fun p hp => mem_singleton.mp hp) nofun
  | close sids =>
    cases sids with
    | nil => exact hrelease
    | cons id sids =>
      simp only [ArbTask.proceed]
      split
      · exact h.passed hno fun t ht' => by cases ht'; trivial
      · next hfrozen =>
        refine h.passed hno fun t ht' => ?_
        cases ht'
        exact fun hid hp => h.of_not_frozen hfrozen hid hp
  | closeDecided id sids =>
    simp only [ArbTask.proceed]
    exact h.marked id hknows nofun fun t ht' => by cases ht'; exact ⟨_, rfl⟩
  | closeReset id sids =>
    simp only [ArbTask.proceed]
    exact h.passed_wrote _ w fun t ht' => by cases ht'; trivial
  | replayFin id snapshot =>
    refine hreplay _ fun f hf => ?_
    obtain ⟨ctx, hctx, hif⟩ := bind_eq_some_iff.mp hf
    obtain ⟨hok, hif⟩ := ite_none_right_eq_some.mp hif
    cases hif
    refine ⟨nofun, fun hid => ?_⟩
    rw [show id = sid from hid, h.stream] at hctx
    cases hctx
    exact hok.1
  | replayData id offset payload =>
    refine hreplay _ fun f hf => ?_
    obtain ⟨ctx, hctx, hif⟩ := bind_eq_some_iff.mp hf
    obtain ⟨hterm, hif⟩ := ite_none_left_eq_some.mp hif
    cases hif
    refine ⟨nofun, fun hid => ?_⟩
    rw [show id = sid from hid, h.stream] at hctx
    cases hctx
    exact not_isErrorTerm_ne (not_eq_true _ ▸ hterm)
  | replayOpen id idemKey =>
    refine hreplay _ fun f hf => ?_
    obtain ⟨ctx, hctx, hif⟩ := bind_eq_some_iff.mp hf
    obtain ⟨hok, hif⟩ := ite_none_right_eq_some.mp hif
    cases hif
    refine ⟨nofun, fun hid => ?_⟩
    rw [show id = sid from hid, h.stream] at hctx
    cases hctx
    exact hok
  | replaying f =>
    simp only [ArbTask.proceed]
    exact h.passed_wrote _ w nofun

/-- **Every step keeps the invariant.** -/
theorem step (h : ArbInv sid s c) {l : ArbLabel} {s' : Arbitration} (hs : s.step l = some s') :
    ∃ c', ArbInv sid s' c' := by
  have hno : ∀ e ∈ ([] : List WireEvent), ∃ f, e = .wrote f (s.shared.termOf f.streamId) :=
    nofun
  cases l with
  | begin_ t =>
    obtain ⟨hok, hs⟩ := ite_none_right_eq_some.mp hs
    cases hs
    rw [and_eq_true] at hok
    refine h.kept (.of_eq rfl rfl) hno fun t' ht' => ?_
    cases ht'
    have hstart := hok.2
    -- an operation that begins knows nothing yet
    cases t <;> trivial
  | proceed w =>
    obtain ⟨t, ht, rfl⟩ := map_eq_some_iff.mp hs
    exact h.proceed ht w
  | prepareSend id payload =>
    simp only [Arbitration.step] at hs
    split at hs
    · cases hs
    · next offset shared hok =>
      cases hs
      exact h.kept (SessionShared.sendKept_recordSend hok) hno h.holder
  | sendDataAt id offset payload =>
    simp only [Arbitration.step] at hs
    split at hs
    · cases hs
    · cases hs
      exact ⟨c, h.ofPending fun hp => (mem_cons.mp hp).resolve_left nofun⟩
  | write p w =>
    obtain ⟨-, hs⟩ := ite_none_right_eq_some.mp hs
    cases hs
    obtain ⟨c', h'⟩ := h.kept (.of_eq rfl rfl)
      (fun e he => ⟨_, (mem_wroteEvents he).2⟩) h.holder
    exact ⟨c', h'.ofPending mem_of_mem_erase⟩
  | receive owner f =>
    have hk := s.shared.sendKept_beginFrame owner f
    simp only [Arbitration.step] at hs
    split at hs
    · next shared outcome heq =>
      cases hs
      rw [heq] at hk
      exact h.kept hk hno h.holder
    · next shared d heq =>
      cases hs
      rw [heq] at hk
      obtain ⟨c', h'⟩ := h.kept hk hno h.holder
      exact ⟨c', h'.ofDeliveries _⟩
  | enqueue owner i =>
    obtain ⟨d, -, rfl⟩ := map_eq_some_iff.mp hs
    obtain ⟨c', h'⟩ := h.kept (s.shared.sendKept_enqueueDelivered owner d) hno h.holder
    exact ⟨c', h'.ofDeliveries _⟩

end ArbInv

end Dweb
