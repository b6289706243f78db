import OpenDweb.Continuity.SessionAccount

/-!
# OpenDweb — the end of what a stream receives

A stream's final offset is announced by a FIN, or fixed where the window stands when the stream
is ended. A FIN is not compared with what the window has delivered or holds.

* **`FinalOk`** — what a FIN would have to be compared with.
* **`Settling`** — the window is within the final offset, and stays so whatever gaps are drained.
* **`receive_settles`** — while every FIN is `FinalOk`, no byte beyond the final offset is
  delivered, and a reader that has everything is told so.
-/

namespace Dweb

open Std (ExtTreeMap)
open Option

/-! ## Windows within an end -/

namespace RecvWindow

/-- Nothing is delivered, or will be, beyond `f`. At `f` itself nothing moves any more, and what
the gaps hold is of no account. -/
structure Within (f : Nat) (w : RecvWindow) : Prop where
  le : w.expectedOffset ≤ f
  gaps : w.expectedOffset = f
    ∨ ∀ (off : Nat) (p : Bytes), w.gaps[off]? = some p → off + p.length ≤ f

theorem dueGap_congr (w w' : RecvWindow) (hgaps : w'.gaps = w.gaps)
    (hoffset : w'.expectedOffset = w.expectedOffset) : w'.dueGap = w.dueGap := by
  unfold dueGap
  rw [hgaps, hoffset]

variable {w : RecvWindow} {off f : Nat} {p : Bytes}

theorem dueGap_buffered (h : w.dueGap = none) (hahead : w.expectedOffset < off) (n : Nat) :
    { w with gaps := w.gaps.insert off p, gapBytes := n }.dueGap = none := by
  cases hdue : { w with gaps := w.gaps.insert off p, gapBytes := n }.dueGap with
  | none => rfl
  | some d =>
    obtain ⟨due, q⟩ := d
    have hfirst := first_of_dueGap hdue
    obtain ⟨-, hq⟩ := dueGap_eq_some hdue
    -- the one that would be due was there before
    change (w.gaps.insert off p)[w.expectedOffset]? = some q at hq
    rw [ExtTreeMap.getElem?_insert,
      if_neg fun heq => Nat.ne_of_gt hahead (compare_eq_iff_eq.mp heq)] at hq
    have hheld : w.expectedOffset ∈ w.gaps := by
      rw [ExtTreeMap.mem_iff_isSome_getElem?, hq]
      rfl
    obtain ⟨first, hmem, hle, hne⟩ := exists_first_of_dueGap h hheld
    have hge : w.expectedOffset ≤ first := hfirst first (ExtTreeMap.mem_insert.mpr (Or.inr hmem))
    omega

theorem dueGap_deliverTo (w : RecvWindow) (p : Bytes) (end_ : Nat) :
    (w.deliverTo p end_).1.dueGap = none := by
  unfold deliverTo
  generalize w.appendDelivered p = delivered
  exact dueGap_drainLoop (Nat.le_refl _)

theorem within_drainLoop {fuel : Nat} (hle : w.expectedOffset ≤ f)
    (hgaps : ∀ (off : Nat) (p : Bytes), w.gaps[off]? = some p → off + p.length ≤ f) :
    Within f (drainLoop fuel w).1 := by
  have hkept : (drainLoop fuel w).1.expectedOffset ≤ f ∧ ∀ (off : Nat) (p : Bytes),
      (drainLoop fuel w).1.gaps[off]? = some p → off + p.length ≤ f := by
    refine drainLoop_keeps (D := [])
      (I := fun _ v => v.expectedOffset ≤ f
        ∧ ∀ (off : Nat) (p : Bytes), v.gaps[off]? = some p → off + p.length ≤ f)
      (fun _ v p hI hp => ⟨?_, fun off q hq => ?_⟩) ⟨hle, hgaps⟩
    · have hend := hI.2 _ _ hp
      have hnext : (v.takeGap v.expectedOffset p).expectedOffset = v.expectedOffset + p.length := by
        rw [takeGap_eq]
      omega
    · have hgone : (v.takeGap v.expectedOffset p).gaps = v.gaps.erase v.expectedOffset := by
        rw [takeGap_eq]
      rw [hgone] at hq
      obtain ⟨-, hq⟩ := getElem?_erase_some hq
      exact hI.2 off q hq
  exact ⟨hkept.1, .inr hkept.2⟩

theorem within_deliverTo {end_ : Nat} (p : Bytes) (hdue : w.dueGap = none) (h : Within f w)
    (hreach : w.expectedOffset ≤ end_) (hend : end_ ≤ f) : Within f (w.deliverTo p end_).1 := by
  have hgaps := appendDelivered_gaps w p
  unfold deliverTo
  generalize w.appendDelivered p = delivered at hgaps ⊢
  dsimp only
  unfold drainGaps
  rcases h.gaps with hat | hbound
  · -- the window stands at `f` already: it stays
    have hsame : end_ = w.expectedOffset := by omega
    have hstays : { delivered with expectedOffset := end_ }.dueGap = none :=
      (dueGap_congr w { delivered with expectedOffset := end_ } hgaps hsame).trans hdue
    rw [drainLoop_of_dueGap hstays]
    exact ⟨hend, .inl (by show end_ = f; omega)⟩
  · exact within_drainLoop (w := { delivered with expectedOffset := end_ }) hend
      fun off q hq => hbound off q (hgaps ▸ hq)

/-- **A feed** of a segment that ends within `f`. -/
theorem within_fedAs {w' : RecvWindow} {a : SegmentAction} (hdue : w.dueGap = none) (h : Within f w)
    (hend : off + p.length ≤ f) (hfed : w.FedAs off p gapCap gapByteCap (w', .ok a)) :
    Within f w' := by
  cases hfed with
  | beyond | tampered | repeated | held | taken => exact ⟨h.le, h.gaps⟩
  | delivered n w' segments hlt hle hreach hagrees hdeliver =>
    have hwithin := within_deliverTo (w := { w with unverifiableDuplicates := n })
      (p.drop (w.expectedOffset - off)) hdue ⟨h.le, h.gaps⟩ hreach hend
    rw [hdeliver] at hwithin
    exact hwithin
  | buffered hlt hahead hnew hsize hbytes =>
    refine ⟨h.le, .inr fun off' q hq => ?_⟩
    rcases getElem?_insert_cases hq with ⟨rfl, rfl⟩ | ⟨-, hq⟩
    · exact hend
    · -- a window that stands at `f` buffers nothing that ends within it
      rcases h.gaps with hat | hbound
      · omega
      · exact hbound off' q hq

theorem dueGap_fedAs {w' : RecvWindow} {a : SegmentAction} (hdue : w.dueGap = none)
    (hfed : w.FedAs off p gapCap gapByteCap (w', .ok a)) : w'.dueGap = none := by
  cases hfed with
  | beyond | held | taken => exact hdue
  | tampered | repeated => exact hdue
  | delivered n w' segments hlt hle hreach hagrees hdeliver =>
    have hnone := dueGap_deliverTo { w with unverifiableDuplicates := n }
      (p.drop (w.expectedOffset - off)) (off + p.length)
    rw [hdeliver] at hnone
    exact hnone
  | buffered hlt hahead hnew hsize hbytes => exact dueGap_buffered hdue hahead _

end RecvWindow

/-! ## Streams -/

/-- What a FIN would have to be compared with: the window has not gone beyond it, and holds
nothing that does. -/
def FinalOk (c : StreamCtx) (final : Nat) : Prop :=
  c.recv.expectedOffset ≤ final ∧ ∀ g ∈ c.recv.gaps.toList, g.1 + g.2.length ≤ final

instance (c : StreamCtx) (final : Nat) : Decidable (FinalOk c final) := by
  unfold FinalOk
  infer_instance

variable {c : StreamCtx} {r : SessionRun}

theorem FinalOk.within {final : Nat} (h : FinalOk c final) :
    c.recv.Within final where
  le := h.1
  gaps := .inr fun off p hp => h.2 (off, p) (ExtTreeMap.mem_toList_iff_getElem?_eq_some.mpr hp)

/-- Nothing is due, and a final offset bounds the window. -/
structure Settling (c : StreamCtx) : Prop where
  dueGap : c.recv.dueGap = none
  within : ∀ final ∈ c.remoteFinal, c.recv.Within final

theorem Settling.new (sid : Nat) (limits : JournalLimits) : Settling (.new sid limits) where
  dueGap := by simp [StreamCtx.new, RecvWindow.new, RecvWindow.dueGap]
  within final h := nomatch h

theorem Settling.of_ended {c' : StreamCtx} (h : c.recv.dueGap = none)
    (hgaps : c'.recv.gaps = c.recv.gaps) (hoffset : c'.recv.expectedOffset = c.recv.expectedOffset)
    (hfinal : c'.remoteFinal = some c.recv.expectedOffset) : Settling c' where
  dueGap := (RecvWindow.dueGap_congr c.recv c'.recv hgaps hoffset).trans h
  within final hsome := by
    rw [hfinal, mem_some_iff] at hsome
    exact ⟨Nat.le_of_eq (hoffset.trans hsome), .inl (hoffset.trans hsome)⟩

@[simp] theorem terminate_remoteFinal (c : StreamCtx) (t : StreamTerm) :
    (c.terminate t).remoteFinal = some c.recv.expectedOffset := by
  unfold StreamCtx.terminate StreamCtx.clearJournal
  rw [setTerm_remoteFinal]

theorem StreamChange.settling {c' : StreamCtx} (h : StreamChange FinalOk c c') (hc : Settling c) :
    Settling c' := by
  cases h with
  | kept off p w a hfinal hfed haction =>
    exact ⟨RecvWindow.dueGap_fedAs hc.dueGap hfed, fun final hsome =>
      RecvWindow.within_fedAs hc.dueGap (hc.within final hsome) (hfinal final hsome) hfed⟩
  | noted =>
    obtain ⟨n, hn⟩ := noteAck_eq c
    rw [hn]
    exact ⟨hc.dueGap, hc.within⟩
  | refused n =>
    refine .of_ended hc.dueGap ?_ ?_ (terminate_remoteFinal _ _)
    · rw [terminate_recv]
    · rw [terminate_recv]
  | reset =>
    refine .of_ended hc.dueGap ?_ ?_ (terminate_remoteFinal _ _)
    · rw [terminate_recv]
    · rw [terminate_recv]
  | cancelled =>
    refine .of_ended hc.dueGap ?_ ?_ (setTerm_remoteFinal _ _)
    · rw [setTerm_recv]
    · rw [setTerm_recv]
  | finished final hnone hadmits =>
    refine ⟨by rw [setTerm_recv]; exact hc.dueGap, fun final' hsome => ?_⟩
    rw [setTerm_remoteFinal, mem_some_iff] at hsome
    rw [setTerm_recv, ← hsome]
    exact hadmits.within
  | aborted =>
    refine ⟨?_, fun final hsome => ?_⟩
    · show (c.setTerm .localAbort).recv.dueGap = none
      rw [setTerm_recv]
      exact hc.dueGap
    · change (c.setTerm .localAbort).remoteFinal = some final at hsome
      show (c.setTerm .localAbort).recv.Within final
      rw [setTerm_remoteFinal] at hsome
      rw [setTerm_recv]
      exact hc.within final hsome
  | acked | recorded | finalSent | retracted => exact ⟨hc.dueGap, hc.within⟩

/-! ## Runs -/

/-- An incoming FIN that would set a final offset is one that `FinalOk` admits. -/
def FinsCompared (r : SessionRun) : SessionEvent → Prop
  | .frame _ f => f.frameType = .fin →
      ∀ c ∈ r.session.streams[r.session.resolveStream f.streamId]?, c.remoteFinal = none →
        FinalOk c (f.byteOffset + f.payload.length)
  | _ => True

instance (r : SessionRun) : (e : SessionEvent) → Decidable (FinsCompared r e)
  | .frame _ f => by
    unfold FinsCompared
    infer_instance
  | .enqueue _ | .shut _ | .allocStream | .reserveStreamSlot _ | .sendOpen .. | .openFailed _
  | .localOp _ | .recv _ | .recvPop _ | .recvCommit _ | .recvReturn _ | .recvCheck _
  | .recvRecheck _ | .recvPhase _ | .recvDrop _ => .isTrue trivial

theorem FinsCompared.admits {e : SessionEvent} (h : FinsCompared r e) :
    e.Admits (fun _ => FinalOk) r.session := by
  cases e with
  | frame owner f =>
    intro hfin c final hc hnone hfinal
    obtain ⟨rfl, -⟩ := u64CheckedAdd_eq_some hfinal
    exact h hfin c hc hnone
  | _ => trivial

theorem settling_of_reachable (h : sessionMachine.ReachableUnder FinsCompared r) :
    ∀ (sid : Nat) (c : StreamCtx), r.session.streams[sid]? = some c → Settling c :=
  streams_invariant Settling.new (fun _ _ hguard => hguard.admits)
    (fun _ _ _ hI hchange => hchange.settling hI)
    (fun _ _ _ _ _ hI hfinal hfed => ⟨RecvWindow.dueGap_fedAs hI.dueGap hfed, fun final hsome =>
      RecvWindow.within_fedAs hI.dueGap (hI.within final hsome) (hfinal final hsome) hfed⟩)
    (fun _ _ hI => ⟨hI.dueGap, hI.within⟩) h

theorem recv_ends {i sid : Nat} {term : Option StreamTerm}
    (hplace : r.recvs[i]? = some (.popping sid)) (hempty : r.session.queued sid = [])
    (hended : r.session.recvEnded sid = (true, term)) :
    ∃ r', sessionMachine.run r [.recvPop i, .recvCheck i, .recvRecheck i] = some r'
      ∧ r'.recvs[i]? = some (.failed sid (SessionShared.recvEndText term)) := by
  have hi : i < r.recvs.length := (List.getElem?_eq_some_iff.mp hplace).1
  have hpop : r.session.recvPop sid = none := by
    unfold SessionShared.queued at hempty
    unfold SessionShared.recvPop
    cases hq : r.session.delivered[sid]? with
    | none => rfl
    | some q =>
      rw [hq] at hempty
      have hframes : q.frames = [] := hempty
      rw [bind_some, hframes]
  have hqueue : r.session.queueEmpty sid = true := by
    unfold SessionShared.queued at hempty
    unfold SessionShared.queueEmpty
    cases hq : r.session.delivered[sid]? with
    | none => rfl
    | some q =>
      rw [hq] at hempty
      have hframes : q.frames = [] := hempty
      rw [all_some, hframes]
      rfl
  let checking := r.moveRecv i (.checking sid)
  let rechecking := checking.moveRecv i (.rechecking sid term)
  have hchecking : checking.recvs[i]? = some (.checking sid) := List.getElem?_set_self hi
  have hrechecking : rechecking.recvs[i]? = some (.rechecking sid term) :=
    List.getElem?_set_self (by simpa [checking, SessionRun.moveRecv] using hi)
  have hpopped : sessionMachine.step r (.recvPop i) = some checking := by
    show sessionStep r (.recvPop i) = _
    simp only [sessionStep, hplace, hpop]
    rfl
  have hchecked : sessionMachine.step checking (.recvCheck i) = some rechecking := by
    show sessionStep checking (.recvCheck i) = _
    simp only [sessionStep, hchecking, show checking.session = r.session from rfl, hended]
    rfl
  have hrechecked : sessionMachine.step rechecking (.recvRecheck i)
      = some (rechecking.moveRecv i (.failed sid (SessionShared.recvEndText term))) := by
    show sessionStep rechecking (.recvRecheck i) = _
    simp only [sessionStep, hrechecking, show rechecking.session = r.session from rfl, hqueue,
      if_true]
  have hrun : sessionMachine.run r [.recvPop i, .recvCheck i, .recvRecheck i]
      = some (rechecking.moveRecv i (.failed sid (SessionShared.recvEndText term))) := by
    rw [Machine.run, hpopped, bind_some, Machine.run, hchecked, bind_some,
      Machine.run, hrechecked, bind_some, Machine.run]
  refine ⟨_, hrun, List.getElem?_set_self ?_⟩
  simpa [rechecking, checking, SessionRun.moveRecv] using hi

/-- **The receiving side settles.** In a run whose FINs are all compared, a stream with a final
offset delivers nothing beyond it; and once everything below it was received and popped, a call
of `recv` ends. -/
theorem receive_settles {r : SessionRun} (h : sessionMachine.ReachableUnder FinsCompared r)
    {sid : Nat} {c : StreamCtx} {final : Nat} (hc : r.session.streams[sid]? = some c)
    (hfinal : c.remoteFinal = some final) :
    c.recv.expectedOffset ≤ final
    ∧ (ofStream sid r.crossed).flatten.length ≤ final
    ∧ ∀ i, r.recvs[i]? = some (.popping sid) → final ≤ c.recv.expectedOffset →
        r.session.queued sid = [] →
          ∃ r', sessionMachine.run r [.recvPop i, .recvCheck i, .recvRecheck i] = some r'
            ∧ r'.recvs[i]? = some (.failed sid (SessionShared.recvEndText c.term)) := by
  have hle := ((settling_of_reachable h sid c hc).within final hfinal).le
  refine ⟨hle, ?_, fun i hplace hreceived hempty => ?_⟩
  · rw [← ((accounts h).tracks sid c hc).expectedOffset]
    exact hle
  · refine recv_ends hplace hempty ?_
    unfold SessionShared.recvEnded
    rw [hc]
    dsimp only
    rw [hfinal, Nat.le_antisymm hreceived hle, decide_eq_true rfl, Bool.true_or]

namespace SampleFinal

def client : SessionShared := .new (.ofNat 16 7) (.ofNat 16 9) true .default

theorem client_init : sessionMachine.init (.init client) := ⟨_, _, _, _, rfl⟩

def fromProvider (frameType : FrameType) (byteOffset : Nat) (payload : Bytes) : Frame where
  frameType := frameType
  flags := 0
  sessionId := .ofNat 16 7
  streamId := 1
  direction := .providerToClient
  byteOffset := byteOffset
  payload := payload

def endedAtZero : List SessionEvent :=
  [.allocStream, .reserveStreamSlot 1, .frame 0 (fromProvider .fin 0 []), .recv 1]

/-- Three bytes, read by a first call; then a FIN at offset 1, and a second call that finds
nothing. -/
def endedBelow : List SessionEvent :=
  [.allocStream, .reserveStreamSlot 1, .frame 0 (fromProvider .data 0 [1, 2, 3]), .enqueue 0,
    .recv 1, .recvPop 0, .recvCommit 0, .recvReturn 0, .frame 0 (fromProvider .fin 1 []),
    .recv 1, .recvPop 1, .recvCheck 1, .recvPhase 1]

def outcome (r : SessionRun) : Option (Nat × Option Nat) × List RecvPlace :=
  (r.session.streams[1]?.map fun c => (c.recv.expectedOffset, c.remoteFinal), r.recvs)

theorem zero_ends :
    ∃ r, sessionMachine.ReachableUnder FinsCompared r
      ∧ ∃ r', sessionMachine.run r [.recvPop 0, .recvCheck 0, .recvRecheck 0] = some r'
        ∧ r'.recvs[0]? = some (.failed 1 (SessionShared.recvEndText (some .fin))) := by
  have hrun : (sessionMachine.runUnder FinsCompared (.init client) endedAtZero).any
      (fun r => r.session.streams[1]?.any (fun c => c.recv.expectedOffset = 0
        && c.remoteFinal = some 0 && c.term = some .fin)
        && r.recvs = [.popping 1] && r.session.queued 1 = []) = true := by decide +kernel
  obtain ⟨r, hreach, hstate⟩ := Machine.exists_reachableUnder client_init hrun
  rw [Bool.and_eq_true, Bool.and_eq_true, any_eq_true] at hstate
  obtain ⟨⟨⟨c, hc, hfields⟩, hrecvs⟩, hempty⟩ := hstate
  simp only [Bool.and_eq_true, decide_eq_true_eq] at hfields hrecvs hempty
  obtain ⟨⟨hoffset, hfinal⟩, hterm⟩ := hfields
  have hplace : r.recvs[0]? = some (.popping 1) := by rw [hrecvs]; rfl
  obtain ⟨-, -, hends⟩ := receive_settles hreach hc hfinal
  exact ⟨r, hreach, hterm ▸ hends 0 hplace (Nat.zero_le _) hempty⟩

/-- **A stream that never ends**: its window stands at 3, its final offset is 1, all its bytes
were returned, and the next call of `recv` waits and begins anew. -/
theorem fin_below_received :
    ∃ r, sessionMachine.Reachable r
      ∧ outcome r = (some (3, some 1), [.returned 1 [1, 2, 3], .popping 1]) := by
  have hrun : (sessionMachine.runUnder (fun _ _ => True) (.init client) endedBelow).any
      (fun r => outcome r = (some (3, some 1), [.returned 1 [1, 2, 3], .popping 1])) = true := by
    decide +kernel
  obtain ⟨r, hreach, hstate⟩ := Machine.exists_reachableUnder client_init hrun
  exact ⟨r, hreach, of_decide_eq_true hstate⟩

end SampleFinal

end Dweb
