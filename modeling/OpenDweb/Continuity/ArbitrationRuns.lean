import OpenDweb.Continuity.ArbitrationInvariant

/-!
# OpenDweb — FIN and RESET on the wire

* **`Emission`** — the events of one step, in terms of the stream before it.
* **`fin_reset_arbitrated`** — no FIN after a local abort and no abort after a finished
  provider stream, in every run; nothing after the RESET exactly in the runs in which no
  `send_data_at` writes after it.
-/

namespace Dweb

open Std (ExtTreeMap)
open Bool

/-! ## What a step writes -/

/-- `send_data_at` writes to the stream. -/
def ArbLabel.WritesDirectly (sid : Nat) (l : ArbLabel) : Prop :=
  ∃ offset payload w, l = .write (.data sid offset payload) w ∧ w.landed = true

/-- The events of one step, in terms of the stream before it. -/
structure Emission (sid : Nat) (s : Arbitration) (c : StreamCtx) (l : ArbLabel)
    (events : List WireEvent) : Prop where
  few : events = [] ∨ (∃ e, events = [e])
    ∨ ∃ id f term, f.frameType = .fin ∧ events = [.finished id, .wrote f term]
  fin : ∀ e ∈ events, e.isFin sid = true → c.term ≠ some .localAbort
  send : ∀ e ∈ events, e.isSend sid = true → c.term ≠ some .localAbort ∨ l.WritesDirectly sid
  beforeFin : s.shared.isClient = false →
    ∀ e ∈ events, (e.isAborted sid || e.isReset sid) = true → c.finalSent = none

namespace Emission

variable {sid : Nat} {s : Arbitration} {c : StreamCtx} {l : ArbLabel}

theorem nil : Emission sid s c l [] :=
  ⟨.inl rfl, fun e he => (by cases he), fun e he => (by cases he), fun _ e he => (by cases he)⟩

theorem wrote {f : Frame} {w : WriteOutcome}
    (hfin : f.streamId = sid → f.frameType = .fin → c.term ≠ some .localAbort)
    (hsend : w.landed = true → f.streamId = sid → f.frameType ≠ .reset →
      c.term ≠ some .localAbort ∨ l.WritesDirectly sid)
    (hreset : f.streamId = sid → f.frameType = .reset → s.shared.isClient = false →
      c.finalSent = none) :
    Emission sid s c l (wroteEvents s.shared f w) := by
  refine ⟨?_, fun e he hf => ?_, fun e he hf => ?_, fun hp e he hf => ?_⟩
  · unfold wroteEvents
    split
    · exact .inr (.inl ⟨_, rfl⟩)
    · exact .inl rfl
  · obtain ⟨-, rfl⟩ := mem_wroteEvents he
    simp only [WireEvent.isFin, and_eq_true, decide_eq_true_eq] at hf
    exact hfin hf.2 hf.1
  · obtain ⟨hlanded, rfl⟩ := mem_wroteEvents he
    simp only [WireEvent.isSend, and_eq_true, or_eq_true, decide_eq_true_eq] at hf
    refine hsend hlanded hf.2 fun hr => ?_
    rw [hr] at hf
    simp at hf
  · obtain ⟨-, rfl⟩ := mem_wroteEvents he
    simp only [WireEvent.isAborted, WireEvent.isReset, Bool.false_or, and_eq_true,
      decide_eq_true_eq] at hf
    exact hreset hf.2 hf.1 hp

theorem aborted {shared : SessionShared} {id : Nat}
    (hover : id = sid → s.shared.isClient = false → c.finalSent = none) :
    Emission sid s c l (abortedEvents shared id) := by
  unfold abortedEvents
  split
  · refine ⟨.inr (.inl ⟨_, rfl⟩), fun e he hf => ?_, fun e he hf => ?_, fun hp e he hf => ?_⟩
    · rw [List.mem_singleton.mp he] at hf
      cases hf
    · rw [List.mem_singleton.mp he] at hf
      cases hf
    · rw [List.mem_singleton.mp he] at hf
      simp only [WireEvent.isAborted, WireEvent.isReset, Bool.or_false, decide_eq_true_eq] at hf
      exact hover hf hp
  · exact nil

end Emission

namespace ArbInv

variable {sid : Nat} {s : Arbitration} {c : StreamCtx}

theorem bookFinal_isClient {shared shared' : SessionShared} {id final : Nat}
    (h : shared.bookFinal id = .ok (final, shared')) : shared'.isClient = shared.isClient := by
  unfold SessionShared.bookFinal at h
  split at h
  · cases h
  · split at h
    · cases h
    · cases h
      rfl

theorem replayCheck_isClient (shared : SessionShared) (f? : Option Frame) :
    (ArbTask.replayCheck shared f?).shared.isClient = shared.isClient := by
  cases f? <;> rfl

theorem proceed_isClient (t : ArbTask) (shared : SessionShared) (w : WriteOutcome) :
    (t.proceed shared w).shared.isClient = shared.isClient := by
  cases t with
  | sendData id payload | finish id =>
    simp only [ArbTask.proceed]
    split <;> rfl
  | sendDataChecked id payload =>
    simp only [ArbTask.proceed]
    split
    · rfl
    · next hok => exact (SessionShared.sendKept_recordSend hok).isClient
  | sendDataRecorded id offset payload =>
    simp only [ArbTask.proceed]
    split <;> rfl
  | sendDataFailed id | abortDecided id | closeDecided id sids =>
    exact (shared.keeps_markLocalAbort id).isClient
  | finishChecked id =>
    simp only [ArbTask.proceed]
    split
    · rfl
    · next hok => exact bookFinal_isClient hok
  | finishBooked id final =>
    simp only [ArbTask.proceed]
    split <;> rfl
  | finishFailed id => rfl
  | abort id =>
    simp only [ArbTask.proceed]
    split <;> rfl
  | close sids =>
    cases sids with
    | nil => rfl
    | cons id sids =>
      simp only [ArbTask.proceed]
      split <;> rfl
  | closeReset id sids => rfl
  | replayFin id snapshot => exact replayCheck_isClient _ _
  | replayData id offset payload => exact replayCheck_isClient _ _
  | replayOpen id idemKey => exact replayCheck_isClient _ _
  | replaying f => rfl

theorem replayCheck_events (shared : SessionShared) (f? : Option Frame) :
    (ArbTask.replayCheck shared f?).events = [] := by
  cases f? <;> rfl

theorem proceed_emission (h : ArbInv sid s c) {t : ArbTask} (ht : s.holder = some t)
    (w : WriteOutcome) (l : ArbLabel) : Emission sid s c l (t.proceed s.shared w).events := by
  have hknows := h.holder t ht
  cases t with
  | sendData id payload =>
    simp only [ArbTask.proceed]
    split <;> exact .nil
  | sendDataChecked id payload =>
    simp only [ArbTask.proceed]
    split <;> exact .nil
  | sendDataRecorded id offset payload =>
    have hemits : Emission sid s c l
        (wroteEvents s.shared (s.shared.dataFrame 0 id offset payload) w) :=
      .wrote (by intros; contradiction) (fun _ hid _ => .inl (hknows hid).2)
        (by intros; contradiction)
    simp only [ArbTask.proceed]
    split <;> exact hemits
  | sendDataFailed id => exact .aborted fun hid _ => (hknows hid).1
  | finish id =>
    simp only [ArbTask.proceed]
    split <;> exact .nil
  | finishChecked id =>
    simp only [ArbTask.proceed]
    split <;> exact .nil
  | finishBooked id final =>
    have hemits : Emission sid s c l
        (wroteEvents s.shared (s.shared.finFrame FrameFlags.end_ id final) w) :=
      .wrote (fun hid _ => (hknows hid).2.1) (fun _ hid _ => .inl (hknows hid).2.1)
        (by intros; contradiction)
    simp only [ArbTask.proceed]
    split
    · next hw =>
      subst hw
      -- `Ok` is returned after the FIN, in the same step
      refine ⟨.inr (.inr ⟨id, _, _, rfl, rfl⟩), fun e he hf => ?_, fun e he hf => ?_,
        fun hp e he hf => ?_⟩
      · rcases List.mem_cons.mp he with rfl | he
        · cases hf
        · exact hemits.fin e he hf
      · rcases List.mem_cons.mp he with rfl | he
        · cases hf
        · exact hemits.send e he hf
      · rcases List.mem_cons.mp he with rfl | he
        · cases hf
        · exact hemits.beforeFin hp e he hf
    · exact hemits
  | finishFailed id => exact .nil
  | abort id =>
    simp only [ArbTask.proceed]
    split <;> exact .nil
  | abortDecided id => exact .aborted hknows
  | close sids =>
    cases sids with
    | nil => exact .nil
    | cons id sids =>
      simp only [ArbTask.proceed]
      split <;> exact .nil
  | closeDecided id sids => exact .aborted hknows
  | closeReset id sids =>
    exact .wrote (by intros; contradiction) (fun _ _ hf => absurd rfl hf)
      fun hid _ _ => (hknows hid).2
  | replayFin id snapshot =>
    rw [ArbTask.proceed, replayCheck_events]
    exact .nil
  | replayData id offset payload =>
    rw [ArbTask.proceed, replayCheck_events]
    exact .nil
  | replayOpen id idemKey =>
    rw [ArbTask.proceed, replayCheck_events]
    exact .nil
  | replaying f =>
    exact .wrote (fun hid _ => hknows.2 hid) (fun _ hid _ => .inl (hknows.2 hid))
      fun _ hf _ => absurd hf hknows.1

theorem step_emission (h : ArbInv sid s c) {l : ArbLabel} {s' : Arbitration}
    (hs : s.step l = some s') :
    s'.shared.isClient = s.shared.isClient
      ∧ ∃ events, s'.log = events ++ s.log ∧ Emission sid s c l events := by
  cases l with
  | begin_ t =>
    simp only [Arbitration.step] at hs
    split at hs
    · cases hs
      exact ⟨rfl, [], rfl, .nil⟩
    · cases hs
  | proceed w =>
    obtain ⟨t, ht, rfl⟩ := Option.map_eq_some_iff.mp hs
    exact ⟨proceed_isClient t s.shared w, _, rfl, h.proceed_emission ht w _⟩
  | prepareSend id payload =>
    simp only [Arbitration.step] at hs
    split at hs
    · cases hs
    · next offset shared hok =>
      cases hs
      exact ⟨(SessionShared.sendKept_recordSend hok).isClient, [], rfl, .nil⟩
  | sendDataAt id offset payload =>
    simp only [Arbitration.step] at hs
    split at hs
    · cases hs
    · cases hs
      exact ⟨rfl, [], rfl, .nil⟩
  | write p w =>
    simp only [Arbitration.step] at hs
    split at hs
    · next hp =>
      cases hs
      refine ⟨rfl, _, rfl, ?_⟩
      cases p with
      | data id offset payload =>
        refine .wrote (by intros; contradiction) (fun hlanded hid _ => .inr ?_)
          (by intros; contradiction)
        obtain rfl : id = sid := hid
        exact ⟨offset, payload, w, rfl, hlanded⟩
      | reset id =>
        refine .wrote (by intros; contradiction) (fun _ _ hf => absurd rfl hf) fun hid _ _ => ?_
        obtain rfl : id = sid := hid
        exact (h.owed hp).2
    · cases hs
  | receive owner f =>
    have hk := s.shared.sendKept_beginFrame owner f
    simp only [Arbitration.step] at hs
    split at hs
    · next shared outcome heq =>
      cases hs
      rw [heq] at hk
      exact ⟨hk.isClient, [], rfl, .nil⟩
    · next shared d heq =>
      cases hs
      rw [heq] at hk
      exact ⟨hk.isClient, [], rfl, .nil⟩
  | enqueue owner i =>
    obtain ⟨d, -, rfl⟩ := Option.map_eq_some_iff.mp hs
    exact ⟨(s.shared.sendKept_enqueueDelivered owner d).isClient, [], rfl, .nil⟩

end ArbInv

/-! ## Runs -/

namespace Emission

variable {sid : Nat} {s : Arbitration} {c : StreamCtx} {l : ArbLabel} {events : List WireEvent}

theorem neverAfter (h : Emission sid s c l events) {p q : WireEvent → Bool}
    (hp : ∀ f term, f.frameType = .fin → p (.wrote f term) = false) : NeverAfter p q events := by
  rcases h.few with rfl | ⟨e, rfl⟩ | ⟨id, f, term, hf, rfl⟩
  · exact List.Pairwise.nil
  · exact List.pairwise_singleton _ _
  · refine List.pairwise_pair.mpr fun hpe => ?_
    rw [hp f term hf] at hpe
    cases hpe

end Emission

/-- After the lock's work: the invariant, and the promises about FINs and aborts. -/
structure Arbitrated (sid : Nat) (s : Arbitration) : Prop where
  inv : ∃ c, ArbInv sid s c
  noFin : s.NoFinAfterAbort sid
  noAbort : s.NoAbortAfterFinish sid

variable {sid : Nat} {s : Arbitration}

theorem Arbitration.NoFinAfterAbort.of_inv {c : StreamCtx} (h : ArbInv sid s c)
    (hnever : NeverAfter (WireEvent.isAborted sid) (WireEvent.isFin sid) s.log) :
    s.NoFinAfterAbort sid := by
  refine ⟨hnever, fun ⟨e, he, ha⟩ ctx hctx => ?_⟩
  rw [h.stream] at hctx
  cases hctx
  exact h.withdrawn (h.aborted e he ha)

theorem Arbitrated.of_init (h : (arbitration sid).init s) : Arbitrated sid s := by
  obtain ⟨hholder, hpending, -, hlog, c, hc, hterm, hfinal⟩ := h
  have hinv : ArbInv sid s c := by
    refine ⟨hc, fun _ => hfinal, ?_, ?_, ?_, ?_, ?_⟩
    · simp [hlog]
    · simp [hlog]
    · simp [hlog, HasFinished]
    · simp [hpending]
    · simp [hholder]
  refine ⟨⟨c, hinv⟩, .of_inv hinv ?_, fun _ => ?_⟩
  · rw [hlog]
    exact List.Pairwise.nil
  · rw [hlog]
    exact List.Pairwise.nil

theorem Arbitrated.step {s' : Arbitration} {l : ArbLabel} (h : Arbitrated sid s)
    (hs : s.step l = some s') : Arbitrated sid s' := by
  obtain ⟨⟨c, hinv⟩, hnoFin, hnoAbort⟩ := h
  obtain ⟨c', hinv'⟩ := hinv.step hs
  obtain ⟨hclient, events, hlog, hemits⟩ := hinv.step_emission hs
  refine ⟨⟨c', hinv'⟩, .of_inv hinv' ?_, fun hp => ?_⟩
  · rw [hlog]
    refine neverAfter_append.mpr ⟨hemits.neverAfter fun _ _ _ => rfl, hnoFin.1, ?_⟩
    intro later hlater earlier hearlier habort
    by_contra hfin
    exact hemits.fin later hlater (not_eq_false _ ▸ hfin) (hinv.aborted earlier hearlier habort)
  · rw [hclient] at hp
    rw [hlog]
    refine neverAfter_append.mpr ⟨hemits.neverAfter fun _ _ _ => rfl, hnoAbort hp, ?_⟩
    intro later hlater earlier hearlier hfinished
    by_contra hover
    have hnone := hemits.beforeFin hp later hlater (not_eq_false _ ▸ hover)
    exact hinv.not_finished hnone hp ⟨earlier, hearlier, hfinished⟩

theorem nothingAfterReset_iff {s' : Arbitration} {l : ArbLabel} (h : Arbitrated sid s)
    (hs : s.step l = some s') :
    s'.NothingAfterReset sid ↔ s.NothingAfterReset sid ∧ s.Punctual sid l := by
  obtain ⟨⟨c, hinv⟩, -, -⟩ := h
  obtain ⟨-, events, hlog, hemits⟩ := hinv.step_emission hs
  unfold Arbitration.NothingAfterReset
  rw [hlog, neverAfter_append]
  constructor
  · rintro ⟨-, hnever, hafter⟩
    refine ⟨hnever, ?_⟩
    unfold Arbitration.Punctual
    split
    · next id offset payload w =>
      intro hid hlanded earlier hearlier
      -- the DATA is what this step adds to the history
      have hmem : WireEvent.wrote (s.shared.dataFrame 0 id offset payload) (s.shared.termOf id)
          ∈ events := by
        simp only [Arbitration.step] at hs
        split at hs
        · cases hs
          have heq : events = wroteEvents s.shared (s.shared.dataFrame 0 id offset payload) w :=
            (List.append_cancel_right hlog).symm
          rw [heq, wroteEvents, if_pos hlanded]
          exact List.mem_singleton_self _
        · cases hs
      by_contra hreset
      have hno := hafter _ hmem earlier hearlier (not_eq_false _ ▸ hreset)
      simp [WireEvent.isSend, SessionShared.dataFrame, hid] at hno
    · trivial
  · rintro ⟨hnever, hpunctual⟩
    refine ⟨hemits.neverAfter fun f term hf => ?_, hnever, ?_⟩
    · simp [WireEvent.isAbortReset, hf]
    · intro later hlater earlier hearlier hreset
      by_contra hsend
      rcases hemits.send later hlater (not_eq_false _ ▸ hsend) with hterm |
        ⟨offset, payload, w, rfl, hlanded⟩
      · exact hterm (hinv.resetSent earlier hearlier hreset)
      · rw [hpunctual rfl hlanded earlier hearlier] at hreset
        cases hreset

/-- **FIN and RESET are arbitrated**: whatever the order of critical sections, no FIN follows a
local abort and nothing aborts a finished stream of a provider; and nothing follows the RESET
exactly when no `send_data_at` writes its DATA that late. -/
theorem fin_reset_arbitrated {sid : Nat} {s s' : Arbitration} {ls : List ArbLabel}
    (hinit : (arbitration sid).init s) (hrun : (arbitration sid).run s ls = some s') :
    s'.NoFinAfterAbort sid ∧ s'.NoAbortAfterFinish sid
      ∧ (s'.NothingAfterReset sid
          ↔ (arbitration sid).runUnder (Arbitration.Punctual sid) s ls = some s') := by
  have hall : ∀ t, (arbitration sid).Reachable t → Arbitrated sid t := fun t ht =>
    ht.invariant (fun _ => .of_init) fun _ _ _ h _ hstep => h.step hstep
  have hend := hall s' (Machine.reachable_of_run hinit hrun)
  refine ⟨hend.noFin, hend.noAbort, ?_⟩
  refine Machine.iff_runUnder (fun t l t' ht hstep => nothingAfterReset_iff (hall t ht) hstep)
    (.init hinit) ?_ hrun
  unfold Arbitration.NothingAfterReset
  rw [hinit.2.2.2.1]
  exact List.Pairwise.nil

private def arbToken : Token := .ofNat 16 0x07070707070707070707070707070707

private def openedStream : Arbitration where
  shared :=
    let s := SessionShared.new arbToken arbToken true .default
    { s with streams := s.streams.insert 1 (StreamCtx.new 1 .default) }
  holder := none
  pending := []
  deliveries := []
  log := []

private theorem openedStream_init : (arbitration 1).init openedStream :=
  ⟨rfl, rfl, rfl, rfl, _, ExtTreeMap.getElem?_insert_self, rfl, rfl⟩

/-- One segment is sent and the stream finished, then the request is cancelled. -/
private def sentAndCancelled : List ArbLabel :=
  [.begin_ (.sendData 1 [104]), .proceed .written, .proceed .written, .proceed .written,
    .begin_ (.finish 1), .proceed .written, .proceed .written, .proceed .written,
    .begin_ (.abort 1), .proceed .written, .proceed .written, .write (.reset 1) .written]

theorem fin_reset_arbitrated_cancelled :
    ∃ s, (arbitration 1).run openedStream sentAndCancelled = some s ∧ s.log.length = 5
      ∧ s.NoFinAfterAbort 1 ∧ s.NoAbortAfterFinish 1
      ∧ (s.NothingAfterReset 1 ↔ (arbitration 1).runUnder (Arbitration.Punctual 1) openedStream
          sentAndCancelled = some s) := by
  have hany : ((arbitration 1).run openedStream sentAndCancelled).any
      (fun s => s.log.length = 5) = true := by decide +kernel
  obtain ⟨s, hrun, hlen⟩ := (Option.any_eq_true _ _).mp hany
  exact ⟨s, hrun, of_decide_eq_true hlen, fin_reset_arbitrated openedStream_init hrun⟩

/-! ## DATA after the RESET

`send_data_at` checks the stream, the stream is cancelled and its RESET written, and only then
does the DATA go out. -/

instance (sid : Nat) (s : Arbitration) : Decidable (s.NothingAfterReset sid) := by
  unfold Arbitration.NothingAfterReset
  infer_instance

theorem data_after_reset :
    ∃ s, (arbitration 1).run openedStream
        [.prepareSend 1 [104], .sendDataAt 1 0 [104], .begin_ (.abort 1), .proceed .written,
          .proceed .written, .write (.reset 1) .written, .write (.data 1 0 [104]) .written] = some s
      ∧ ¬s.NothingAfterReset 1 := by
  have hany : ((arbitration 1).run openedStream
      [.prepareSend 1 [104], .sendDataAt 1 0 [104], .begin_ (.abort 1), .proceed .written,
        .proceed .written, .write (.reset 1) .written, .write (.data 1 0 [104]) .written]).any
      (fun s => !decide (s.NothingAfterReset 1)) = true := by decide +kernel
  obtain ⟨s, hrun, hno⟩ := (Option.any_eq_true _ _).mp hany
  exact ⟨s, hrun, by simpa using hno⟩

end Dweb
