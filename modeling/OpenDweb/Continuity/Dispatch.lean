import OpenDweb.Lib.Machine
import OpenDweb.Continuity.OpenAdmission

/-!
# OpenDweb — a request is dispatched at most once

The provider dispatches a request for every stream `handle_frame` reports as newly opened.
Here any peer sends any frames to a provider session, between any local operations, and a log
keeps what was reported and what was cancelled.

* **`Dispatch`** — the session with its log; `dispatchMachine` is its runs.
* **`Dispatch.FreshId`** — an OPEN under a new key names a stream that is not there yet. The
  code looks only at the key.
* **`dispatch_at_most_once`** — as long as that holds, every stream is reported at most once,
  never after it was cancelled, and its metadata stays; the first step without it breaks this.
-/

namespace Dweb

open Std (ExtTreeMap)
open List Option

/-! ## Cancelled streams stay cancelled -/

namespace SessionShared

def cancelView (s : SessionShared) : ExtTreeMap Nat Unit × Bool :=
  (s.resetTombstones, s.peerStateExhausted)

theorem cancelView_applySummary (s : SessionShared) (summary : StreamSummary) :
    (s.applySummary summary).cancelView = s.cancelView := by
  unfold applySummary
  repeat' split
  all_goals rfl

theorem cancelView_advanceJournalFromSummary (s : SessionShared)
    (summaries : List StreamSummary) :
    (s.advanceJournalFromSummary summaries).cancelView = s.cancelView := by
  unfold advanceJournalFromSummary
  induction summaries generalizing s with
  | nil => rfl
  | cons summary rest ih => exact (ih _).trans (s.cancelView_applySummary summary)

theorem cancelView_localOp (s : SessionShared) (op : LocalOp) :
    (op.apply s).cancelView = s.cancelView := by
  cases op with
  | recordSend sid payload =>
    rw [LocalOp.apply]
    split
    · next offset s' h =>
      obtain ⟨ctx, journal, -, -, -, -, -, -, rfl⟩ := recordSend_eq_ok h
      rfl
    · rfl
  | finish sid =>
    rw [LocalOp.apply]
    split
    · next f s' h =>
      obtain ⟨ctx, -, -, -, -, rfl⟩ := finish_eq_ok h
      rfl
    · rfl
  | markLocalAbort sid =>
    rw [LocalOp.apply, markLocalAbort]
    split <;> rfl
  | recvPop sid =>
    rw [LocalOp.apply]
    cases h : s.recvPop sid with
    | none => rfl
    | some r =>
      obtain ⟨q, rest, -, -, hs⟩ := recvPop_eq_some h
      rw [map_some, getD_some, hs]
      rfl
  | recvCommit sid len =>
    rw [LocalOp.apply, recvCommit]
    split <;> rfl
  | tryMarkStarted sid =>
    rw [LocalOp.apply, tryMarkStarted]
    split <;> rfl
  | advanceJournal summaries => exact s.cancelView_advanceJournalFromSummary summaries
  | retractFinal sid => rfl
  | markCompleted sid => rfl
  | resumeControl control => rfl
  | close => rfl

theorem cancelView_handleData (s : SessionShared) (f : Frame) :
    (s.handleData f).1.cancelView = s.cancelView := by
  unfold handleData
  extract_lets sid reset sessionGapBytes
  repeat' split
  all_goals first | rfl | (dsimp only; split <;> rfl)

theorem cancelView_enqueueDelivered (s : SessionShared) (owner : Nat) (d : Delivery) :
    (s.enqueueDelivered owner d).1.cancelView = s.cancelView := by
  unfold enqueueDelivered
  split <;> rfl

theorem cancelView_handleAck (s : SessionShared) (owner : Nat) (f : Frame) :
    (s.handleAck owner f).1.cancelView = s.cancelView := by
  unfold handleAck
  extract_lets sid
  repeat' split
  all_goals rfl

theorem cancelView_handleFin (s : SessionShared) (f : Frame) :
    (s.handleFin f).1.cancelView = s.cancelView := by
  unfold handleFin
  extract_lets sid
  repeat' split
  all_goals rfl

/-! ### Barred streams -/

/-- No OPEN will report the stream, unless it names a stream that is there: it is there, or
its RESET has come, or the session commits no more frames. -/
def Barred (s : SessionShared) (sid : Nat) : Prop :=
  sid ∈ s.streams ∨ sid ∈ s.resetTombstones ∨ s.peerStateExhausted = true

variable {s : SessionShared} {sid : Nat}

theorem Barred.of_view {s' : SessionShared} (h : s.Barred sid)
    (hstreams : ∀ sid ∈ s.streams, sid ∈ s'.streams) (hview : s'.cancelView = s.cancelView) :
    s'.Barred sid := by
  obtain ⟨htombs, hexhausted⟩ := Prod.mk.inj hview
  rcases h with h | h | h
  · exact Or.inl (hstreams sid h)
  · exact Or.inr (Or.inl (htombs ▸ h))
  · exact Or.inr (Or.inr (hexhausted ▸ h))

theorem Barred.localOp (h : s.Barred sid) (op : LocalOp) : (op.apply s).Barred sid :=
  h.of_view (s.keeps_localOp op).1.streams (s.cancelView_localOp op)

theorem Barred.handleReset (h : s.Barred sid) (f : Frame) : (s.handleReset f).1.Barred sid := by
  have hstreams := (s.keeps_handleReset f).1.streams sid
  rcases h with h | h | h
  · exact Or.inl (hstreams h)
  all_goals
    unfold SessionShared.handleReset
    extract_lets target
    repeat' split
  · exact Or.inr (Or.inl h)
  · exact Or.inr (Or.inl h)
  · exact Or.inr (Or.inl h)
  · exact Or.inr (Or.inl (ExtTreeMap.mem_insert.mpr (Or.inr h)))
  all_goals first | exact Or.inr (Or.inr h) | exact Or.inr (Or.inr rfl)

theorem barred_handleReset (s : SessionShared) (f : Frame) :
    (s.handleReset f).1.Barred (s.resolveStream f.streamId) := by
  unfold SessionShared.handleReset
  extract_lets target
  split
  · exact Or.inl ExtTreeMap.mem_insert_self
  · split
    · next hmem => exact Or.inr (Or.inl hmem)
    · split
      · exact Or.inr (Or.inr rfl)
      · exact Or.inr (Or.inl ExtTreeMap.mem_insert_self)

/-- Only the OPEN of a cancelled stream takes its tombstone away, and then the stream is
there. -/
theorem Barred.handleOpen (h : s.Barred sid) (f : Frame) : (s.handleOpen f).1.Barred sid := by
  cases hkey : s.idemIndex[parseIdemKey f.payload]? with
  | some existing =>
    rw [SessionShared.handleOpen, onOpen_of_some hkey]
    dsimp only
    rw [if_neg Bool.false_ne_true]
    split <;> exact h
  | none =>
    obtain ⟨t, ht, hstreams, hview⟩ : ∃ t, s.onOpen f.streamId (parseIdemKey f.payload)
        = (t, f.streamId, true) ∧ t.streams = s.streams ∧ t.cancelView = s.cancelView := by
      unfold onOpen
      rw [hkey]
      exact ⟨_, rfl, rfl, rfl⟩
    have hbooked : t.Barred sid := h.of_view (fun _ h => hstreams ▸ h) hview
    rw [SessionShared.handleOpen, ht]
    dsimp only
    rw [if_pos rfl]
    split
    · exact hbooked
    · next u hu =>
      have hopened : f.streamId ∈ u.streams := by
        obtain ⟨-, ⟨hmem, rfl⟩ | ⟨-, rfl⟩⟩ := reserveStreamSlot_eq_ok hu
        · exact hmem
        · exact ExtTreeMap.mem_insert_self
      have hslotted : u.Barred sid := by
        obtain ⟨-, ⟨-, rfl⟩ | ⟨-, rfl⟩⟩ := reserveStreamSlot_eq_ok hu
        · exact hbooked
        · exact hbooked.of_view (fun _ h => ExtTreeMap.mem_insert.mpr (Or.inr h)) rfl
      split
      · rcases hslotted with hu | hu | hu
        · exact Or.inl (ExtTreeMap.mem_modify.mpr hu)
        · by_cases heq : f.streamId = sid
          · exact Or.inl (ExtTreeMap.mem_modify.mpr (heq ▸ hopened))
          · refine Or.inr (Or.inl (ExtTreeMap.mem_erase.mpr ⟨?_, hu⟩))
            simpa using heq
        · exact Or.inr (Or.inr hu)
      · exact hslotted

theorem handleFrame_elim (owner : Nat) (f : Frame) {P : SessionShared → Prop} (hsame : P s)
    (hstale : P { s with staleFrameCount := s.staleFrameCount + 1 })
    (hviolation : P s.countViolation) (hdata : P (s.handleData f).1)
    (hdeliver : ∀ d, P ((s.handleData f).1.enqueueDelivered owner d).1)
    (hack : P (s.handleAck owner f).1) (hfin : P (s.handleFin f).1) (hopen : P (s.handleOpen f).1)
    (hreset : P (s.handleReset f).1) : P (s.handleFrame owner f).1 := by
  unfold SessionShared.handleFrame beginFrame
  by_cases hsession : f.sessionId ≠ s.sessionId
  · rwa [if_pos hsession]
  rw [if_neg hsession]
  by_cases hexhausted : s.peerStateExhausted = true
  · rwa [if_pos hexhausted]
  rw [if_neg hexhausted]
  by_cases hdir : ¬s.directionOk f = true
  · rwa [if_pos hdir]
  rw [if_neg hdir]
  by_cases hparity : ¬s.parityOk f = true
  · rwa [if_pos hparity]
  rw [if_neg hparity]
  cases f.frameType with
  | data =>
    dsimp only
    split
    · next t o hstep => rwa [hstep] at hdata
    · next t d hstep =>
      have hd := hdeliver d
      rwa [hstep] at hd
  | ack => exact hack
  | fin => exact hfin
  | open_ => exact hopen
  | reset => exact hreset
  | _ => exact hsame

/-- **A barred stream stays barred**, whatever frame comes. -/
theorem Barred.handleFrame (h : s.Barred sid) (owner : Nat) (f : Frame) :
    (s.handleFrame owner f).1.Barred sid := by
  have hdata : (s.handleData f).1.Barred sid :=
    h.of_view (s.keeps_handleData f).1.streams (s.cancelView_handleData f)
  exact handleFrame_elim (P := fun t => t.Barred sid) owner f h h h hdata
    (fun d => hdata.of_view ((s.handleData f).1.keeps_enqueueDelivered owner d).1.streams
      ((s.handleData f).1.cancelView_enqueueDelivered owner d))
    (h.of_view (s.keeps_handleAck owner f).1.streams (s.cancelView_handleAck owner f))
    (h.of_view (s.keeps_handleFin f).1.streams (s.cancelView_handleFin f))
    (h.handleOpen f) (h.handleReset f)

/-! ## Runs -/

/-- The stream a RESET cancels, where the frame passes the gates of the session. -/
def cancels (s : SessionShared) (f : Frame) : Option Nat :=
  if f.frameType = .reset ∧ f.sessionId = s.sessionId ∧ s.directionOk f = true then
    some (s.resolveStream f.streamId)
  else none

theorem barred_of_cancels {f : Frame} (owner : Nat) (h : s.cancels f = some sid) :
    (s.handleFrame owner f).1.Barred sid := by
  unfold cancels at h
  split at h
  · next hgates =>
    obtain ⟨htype, hsession, hdir⟩ := hgates
    obtain rfl := some.inj h
    by_cases hexhausted : s.peerStateExhausted = true
    · have hbarred : s.Barred (s.resolveStream f.streamId) := Or.inr (Or.inr hexhausted)
      exact hbarred.handleFrame owner f
    · have hparity : s.parityOk f = true := by
        unfold parityOk
        rw [htype]
        rfl
      have heq : s.handleFrame owner f = s.handleReset f := by
        unfold SessionShared.handleFrame beginFrame
        rw [if_neg (not_not.mpr hsession), if_neg hexhausted, if_neg (not_not.mpr hdir),
          if_neg (not_not.mpr hparity), htype]
      rw [heq]
      exact s.barred_handleReset f
  · cases h

end SessionShared

inductive DispatchLog where
  /-- `new_open` was reported, with the metadata stored at that moment. -/
  | reported (streamId : Nat) (openMeta : Option Bytes)
  | cancelled (streamId : Nat)
  deriving DecidableEq

structure Dispatch where
  shared : SessionShared
  log : List DispatchLog

inductive DispatchEvent where
  | frame (owner : Nat) (f : Frame)
  | op (op : LocalOp)

namespace Dispatch

def ofFrame (s s' : SessionShared) (f : Frame) (newOpen : Option Nat) : List DispatchLog :=
  ((s.cancels f).map DispatchLog.cancelled).toList
    ++ (newOpen.map fun sid => DispatchLog.reported sid (s'.openMeta sid)).toList

def step (d : Dispatch) : DispatchEvent → Option Dispatch
  | .frame owner f =>
    let r := d.shared.handleFrame owner f
    some { shared := r.1, log := d.log ++ ofFrame d.shared r.1 f r.2.newOpen }
  | .op op => some { d with shared := op.apply d.shared }

def IsInit (d : Dispatch) : Prop :=
  ∃ sessionId token limits, d = { shared := .new sessionId token false limits, log := [] }

def FreshId (d : Dispatch) : DispatchEvent → Prop
  | .frame _ f => d.shared.AdmitsOpen f → f.streamId ∉ d.shared.streams
  | .op _ => True

instance (d : Dispatch) (e : DispatchEvent) : Decidable (d.FreshId e) := by
  unfold FreshId
  cases e <;> infer_instance

/-- The earlier entry rules the later one out: a stream is reported once, and not at all
after it was cancelled. -/
def Allows : DispatchLog → DispatchLog → Prop
  | .reported sid _, .reported sid' _ => sid ≠ sid'
  | .cancelled sid, .reported sid' _ => sid ≠ sid'
  | _, .cancelled _ => True

/-- At most one report a stream, none after a cancellation, and the metadata stays. -/
structure AtMostOnce (d : Dispatch) : Prop where
  once : d.log.Pairwise Allows
  metas : ∀ sid openMeta, DispatchLog.reported sid openMeta ∈ d.log →
    d.shared.openMeta sid = openMeta

end Dispatch

def dispatchMachine : Machine Dispatch DispatchEvent where
  init := Dispatch.IsInit
  step := Dispatch.step

/-! ## At most once -/

def DispatchLog.streamId : DispatchLog → Nat
  | .reported sid _ => sid
  | .cancelled sid => sid

namespace Dispatch

/-- What is logged is barred from being reported; what was reported is there. -/
structure Inv (d : Dispatch) : Prop extends AtMostOnce d where
  barred : ∀ e ∈ d.log, d.shared.Barred e.streamId
  there : ∀ sid openMeta, DispatchLog.reported sid openMeta ∈ d.log → sid ∈ d.shared.streams

theorem pairwise_append_cancelled {log : List DispatchLog} (h : log.Pairwise Allows)
    {added : List DispatchLog} (hadded : ∀ e ∈ added, ∃ sid, e = .cancelled sid) :
    (log ++ added).Pairwise Allows := by
  refine pairwise_append.mpr ⟨h, ?_, ?_⟩
  · refine List.Pairwise.imp_of_mem (R := fun _ _ => True) ?_
      (pairwise_of_forall fun _ _ => trivial)
    intro a b ha hb _
    obtain ⟨sid, rfl⟩ := hadded b hb
    cases a <;> trivial
  · intro a ha b hb
    obtain ⟨sid, rfl⟩ := hadded b hb
    cases a <;> trivial

theorem pairwise_append_reported {log : List DispatchLog} (h : log.Pairwise Allows) {sid : Nat}
    (hnew : ∀ e ∈ log, e.streamId ≠ sid) (openMeta : Option Bytes) :
    (log ++ [DispatchLog.reported sid openMeta]).Pairwise Allows := by
  refine pairwise_append.mpr ⟨h, pairwise_singleton _ _, ?_⟩
  intro a ha b hb
  obtain rfl := mem_singleton.mp hb
  have hne := hnew a ha
  cases a <;> exact hne

variable {d : Dispatch}

theorem Inv.quiet {s' : SessionShared} (h : d.Inv) (hkeeps : d.shared.Keeps s')
    (hmetas : s'.openMetas = d.shared.openMetas)
    (hbarred : ∀ sid, d.shared.Barred sid → s'.Barred sid) (added : List DispatchLog)
    (hadded : ∀ e ∈ added, ∃ sid, e = .cancelled sid ∧ s'.Barred sid) :
    Inv { shared := s', log := d.log ++ added } where
  once := pairwise_append_cancelled h.once fun e he => (hadded e he).imp fun _ h => h.1
  metas sid openMeta hmem := by
    rcases mem_append.mp hmem with hmem | hmem
    · rw [← h.metas sid openMeta hmem, SessionShared.openMeta, SessionShared.openMeta, hmetas]
    · obtain ⟨sid', heq, -⟩ := hadded _ hmem
      cases heq
  barred e he := by
    rcases mem_append.mp he with he | he
    · exact hbarred _ (h.barred e he)
    · obtain ⟨sid, rfl, hsid⟩ := hadded e he
      exact hsid
  there sid openMeta hmem := by
    rcases mem_append.mp hmem with hmem | hmem
    · exact hkeeps.streams sid (h.there sid openMeta hmem)
    · obtain ⟨sid', heq, -⟩ := hadded _ hmem
      cases heq

theorem Inv.admit (h : d.Inv) (owner : Nat) {f : Frame} (hadmits : d.shared.AdmitsOpen f)
    (hfresh : f.streamId ∉ d.shared.streams) :
    Inv { shared := (d.shared.handleFrame owner f).1
          log := d.log ++ ofFrame d.shared (d.shared.handleFrame owner f).1 f
            (d.shared.handleFrame owner f).2.newOpen } := by
  obtain ⟨hkeeps, hmetas, hnew, hthere, -⟩ := SessionShared.handleFrame_opens owner hadmits
  have hcancels : d.shared.cancels f = none := by
    unfold SessionShared.cancels
    rw [if_neg]
    rintro ⟨htype, -⟩
    exact absurd (hadmits.1.symm.trans htype) (by decide)
  have hbarred : ∀ e ∈ d.log, (d.shared.handleFrame owner f).1.Barred e.streamId := fun e he =>
    (h.barred e he).handleFrame owner f
  -- streams reported before are there, so their metadata is not the one that is written
  have hothers : ∀ sid openMeta, DispatchLog.reported sid openMeta ∈ d.log →
      (d.shared.handleFrame owner f).1.openMeta sid = openMeta := by
    intro sid openMeta hmem
    have hne : f.streamId ≠ sid := fun heq => hfresh (heq ▸ h.there sid openMeta hmem)
    rw [← h.metas sid openMeta hmem, SessionShared.openMeta, SessionShared.openMeta, hmetas,
      ExtTreeMap.getElem?_insert, if_neg (by simpa using hne)]
  have hstreams : ∀ sid openMeta, DispatchLog.reported sid openMeta ∈ d.log →
      sid ∈ (d.shared.handleFrame owner f).1.streams := fun sid openMeta hmem =>
    hkeeps.streams sid (h.there sid openMeta hmem)
  rw [ofFrame, hcancels, hnew]
  by_cases htomb : f.streamId ∈ d.shared.resetTombstones
  · rw [if_pos htomb, map_none, map_none, toList_none, append_nil,
      append_nil]
    exact ⟨⟨h.once, hothers⟩, hbarred, hstreams⟩
  · rw [if_neg htomb, map_none, map_some, toList_none, toList_some,
      nil_append]
    have hunbarred : ¬d.shared.Barred f.streamId := by
      rintro (hmem | hmem | hexhausted)
      · exact hfresh hmem
      · exact htomb hmem
      · exact absurd (hadmits.2.2.1.symm.trans hexhausted) (by decide)
    have hfirst : ∀ e ∈ d.log, e.streamId ≠ f.streamId := fun e he heq =>
      hunbarred (heq ▸ h.barred e he)
    refine ⟨⟨pairwise_append_reported h.once hfirst _, ?_⟩, ?_, ?_⟩
    · intro sid openMeta hmem
      rcases mem_append.mp hmem with hmem | hmem
      · exact hothers sid openMeta hmem
      · cases mem_singleton.mp hmem
        rfl
    · intro e he
      rcases mem_append.mp he with he | he
      · exact hbarred e he
      · obtain rfl := mem_singleton.mp he
        exact Or.inl hthere
    · intro sid openMeta hmem
      rcases mem_append.mp hmem with hmem | hmem
      · exact hstreams sid openMeta hmem
      · cases mem_singleton.mp hmem
        exact hthere

theorem Inv.step {d' : Dispatch} {e : DispatchEvent} (h : d.Inv) (hfresh : d.FreshId e)
    (hstep : d.step e = some d') : d'.Inv := by
  cases e with
  | op op =>
    obtain rfl := some.inj hstep
    have hop := d.shared.keeps_localOp op
    have hinv := h.quiet hop.1 hop.2 (fun sid hsid => hsid.localOp op) [] (by simp)
    rwa [append_nil] at hinv
  | frame owner f =>
    obtain rfl := some.inj hstep
    have hcancelled : ∀ e ∈ ((d.shared.cancels f).map DispatchLog.cancelled).toList,
        ∃ sid, e = .cancelled sid ∧ (d.shared.handleFrame owner f).1.Barred sid := by
      intro e he
      obtain ⟨sid, hsid, rfl⟩ := map_eq_some_iff.mp (mem_toList.mp he)
      exact ⟨sid, rfl, SessionShared.barred_of_cancels owner hsid⟩
    have hbarred : ∀ sid, d.shared.Barred sid → (d.shared.handleFrame owner f).1.Barred sid :=
      fun sid hsid => hsid.handleFrame owner f
    by_cases hadmits : d.shared.AdmitsOpen f
    · exact h.admit owner hadmits (hfresh hadmits)
    · obtain ⟨hkeeps, hmetas, hnone⟩ := SessionShared.handleFrame_ignores owner hadmits
      rw [ofFrame, hnone, map_none, toList_none, append_nil]
      exact h.quiet hkeeps hmetas hbarred _ hcancelled

end Dispatch

/-- **Requests are dispatched at most once**, as long as no OPEN under a new key names a
stream that is there already. -/
theorem dispatch_at_most_once {d : Dispatch}
    (h : dispatchMachine.ReachableUnder Dispatch.FreshId d) : d.AtMostOnce := by
  have hinv : d.Inv := by
    refine Machine.ReachableUnder.invariant ?_ (fun d e d' hinv hfresh hstep => ?_) h
    · rintro d ⟨sessionId, token, limits, rfl⟩
      exact ⟨⟨List.Pairwise.nil, by simp⟩, by simp, by simp⟩
    · exact hinv.step hfresh hstep
  exact hinv.toAtMostOnce

namespace Dispatch

def fresh : Dispatch :=
  { shared := .new (.ofNat 16 1) (.ofNat 16 2) false .default, log := [] }

theorem fresh_isInit : fresh.IsInit := ⟨_, _, _, rfl⟩

/-- A frame of the peer on the fresh session, without flags and at offset 0. -/
def peerFrame (frameType : FrameType) (streamId : Nat) (payload : Bytes) : DispatchEvent :=
  .frame 0 {
    frameType := frameType
    flags := 0
    sessionId := .ofNat 16 1
    streamId := streamId
    direction := .clientToProvider
    byteOffset := 0
    payload := payload }

end Dispatch

theorem dispatch_at_most_once_run :
    ∃ d, dispatchMachine.ReachableUnder Dispatch.FreshId d
      ∧ d.log = [.reported 1 (some (SessionShared.replayOpenPayload 1 "a")), .cancelled 3]
      ∧ d.AtMostOnce := by
  have hrun : (dispatchMachine.runUnder Dispatch.FreshId Dispatch.fresh
      [Dispatch.peerFrame .open_ 1 (SessionShared.replayOpenPayload 1 "a"),
       Dispatch.peerFrame .open_ 1 (SessionShared.replayOpenPayload 1 "a"),
       Dispatch.peerFrame .reset 3 [],
       Dispatch.peerFrame .open_ 3 (SessionShared.replayOpenPayload 3 "b")]).any
      (fun d => decide (d.log
        = [.reported 1 (some (SessionShared.replayOpenPayload 1 "a")), .cancelled 3])) = true := by
    decide +kernel
  obtain ⟨d, hd, hlog⟩ := Machine.exists_reachableUnder Dispatch.fresh_isInit hrun
  exact ⟨d, hd, of_decide_eq_true hlog, dispatch_at_most_once hd⟩

/-- The same stream id under a second key: the stream is reported again, its metadata is
replaced, and so it is after a RESET. -/
theorem reopened_under_new_key :
    ∃ d, dispatchMachine.Reachable d
      ∧ d.log = [.reported 1 (some (SessionShared.replayOpenPayload 1 "a")),
          .reported 1 (some (SessionShared.replayOpenPayload 1 "b")), .cancelled 1,
          .reported 1 (some (SessionShared.replayOpenPayload 1 "c"))]
      ∧ ¬d.AtMostOnce := by
  have hrun : (dispatchMachine.run Dispatch.fresh
      [Dispatch.peerFrame .open_ 1 (SessionShared.replayOpenPayload 1 "a"),
       Dispatch.peerFrame .open_ 1 (SessionShared.replayOpenPayload 1 "b"),
       Dispatch.peerFrame .reset 1 [],
       Dispatch.peerFrame .open_ 1 (SessionShared.replayOpenPayload 1 "c")]).any
      (fun d => decide (d.log
        = [.reported 1 (some (SessionShared.replayOpenPayload 1 "a")),
          .reported 1 (some (SessionShared.replayOpenPayload 1 "b")), .cancelled 1,
          .reported 1 (some (SessionShared.replayOpenPayload 1 "c"))])) = true := by
    decide +kernel
  obtain ⟨d, hd, hp⟩ := (Option.any_eq_true _ _).mp hrun
  have hlog := of_decide_eq_true hp
  refine ⟨d, Machine.reachable_of_run Dispatch.fresh_isInit hd, hlog, fun h => ?_⟩
  have hpair := h.once
  rw [hlog] at hpair
  exact (pairwise_cons.mp hpair).1 _ mem_cons_self rfl

end Dweb
