import OpenDweb.Continuity.HandleFrame

/-!
# OpenDweb — which frame opens a stream

Streams are opened by OPEN frames alone, and only by the first one under an idempotency key.

* **`Keeps`** — what no operation and no frame changes at an endpoint: streams stay, only an
  unknown stream gets a tombstone, and the keys of the streams an endpoint opens itself are
  not written by the peer.
* **`handleFrame_opens`**, **`handleFrame_ignores`** — a frame either opens a stream with its
  own payload, or leaves the metadata alone.
-/

namespace Dweb

open Std (ExtTreeMap)
open Std.ExtTreeMap

/-! ## Local operations -/

/-- An operation of an endpoint's application or of its resume driver that writes no OPEN. -/
inductive LocalOp where
  | recordSend (streamId : Nat) (payload : Bytes)
  | finish (streamId : Nat)
  | retractFinal (streamId : Nat)
  | markLocalAbort (streamId : Nat)
  | recvPop (streamId : Nat)
  | recvCommit (streamId len : Nat)
  | tryMarkStarted (streamId : Nat)
  | markCompleted (streamId : Nat)
  | advanceJournal (summaries : List SessionShared.StreamSummary)
  /-- Deciding, installing, rotating and confirming change the resume control alone. -/
  | resumeControl (control : ResumeCtl)
  | close

/-- The state after an operation; one that is refused changes nothing. -/
def LocalOp.apply (s : SessionShared) : LocalOp → SessionShared
  | .recordSend sid payload =>
    match s.recordSend sid payload with
    | .ok (_, s') => s'
    | .error _ => s
  | .finish sid =>
    match s.finish sid with
    | .ok (_, s') => s'
    | .error _ => s
  | .retractFinal sid => s.retractFinal sid
  | .markLocalAbort sid => s.markLocalAbort sid
  | .recvPop sid => ((s.recvPop sid).map Prod.snd).getD s
  | .recvCommit sid len => (s.recvCommit sid len).1
  | .tryMarkStarted sid => (s.tryMarkStarted sid).1
  | .markCompleted sid => s.markCompleted sid
  | .advanceJournal summaries => s.advanceJournalFromSummary summaries
  | .resumeControl control => { s with resumeControl := control }
  | .close => { s with closing := true }

/-! ## When a frame opens a stream -/

namespace SessionShared

/-- The frame passes every gate of an OPEN: it is the first under its key and the stream
gets a slot. -/
def AdmitsOpen (s : SessionShared) (f : Frame) : Prop :=
  f.frameType = .open_ ∧ f.sessionId = s.sessionId ∧ s.peerStateExhausted = false
    ∧ s.directionOk f = true ∧ s.parityOk f = true
    ∧ s.idemIndex[parseIdemKey f.payload]? = none
    ∧ (s.reserveStreamSlot f.streamId).isOk = true

instance (s : SessionShared) (f : Frame) : Decidable (s.AdmitsOpen f) := by
  unfold AdmitsOpen
  infer_instance

/-- `sid` has the parity of the streams this endpoint opens itself. -/
def OwnParity (s : SessionShared) (sid : Nat) : Prop := (sid % 2 = 1) ↔ s.isClient = true

structure Keeps (s s' : SessionShared) : Prop where
  isClient : s'.isClient = s.isClient
  streams : ∀ sid ∈ s.streams, sid ∈ s'.streams
  tombstones : ∀ sid ∈ s.streams, sid ∈ s'.resetTombstones → sid ∈ s.resetTombstones
  streamKeys : ∀ sid, s.OwnParity sid → s'.streamKeys[sid]? = s.streamKeys[sid]?

theorem Keeps.refl (s : SessionShared) : s.Keeps s :=
  ⟨rfl, fun _ h => h, fun _ _ h => h, fun _ _ => rfl⟩

variable {s s' : SessionShared} {sid : Nat} {f : Frame}

theorem Keeps.trans {t u : SessionShared} (h : s.Keeps t) (h' : t.Keeps u) : s.Keeps u where
  isClient := h'.isClient.trans h.isClient
  streams sid hs := h'.streams sid (h.streams sid hs)
  tombstones sid hs ht := h.tombstones sid hs (h'.tombstones sid (h.streams sid hs) ht)
  streamKeys sid hown :=
    have hown' : t.OwnParity sid := by
      unfold OwnParity
      rw [h.isClient]
      exact hown
    (h'.streamKeys sid hown').trans (h.streamKeys sid hown)

theorem Keeps.of_insert {ctx : StreamCtx} (hclient : s'.isClient = s.isClient)
    (hstreams : s'.streams = s.streams.insert sid ctx)
    (htombs : s'.resetTombstones = s.resetTombstones) (hkeys : s'.streamKeys = s.streamKeys) :
    s.Keeps s' where
  isClient := hclient
  streams sid' h := by
    rw [hstreams]
    exact ExtTreeMap.mem_insert.mpr (Or.inr h)
  tombstones _ _ h := htombs ▸ h
  streamKeys _ _ := by rw [hkeys]

theorem Keeps.of_eq (hclient : s'.isClient = s.isClient) (hstreams : s'.streams = s.streams)
    (htombs : s'.resetTombstones = s.resetTombstones) (hkeys : s'.streamKeys = s.streamKeys) :
    s.Keeps s' :=
  ⟨hclient, fun _ h => hstreams ▸ h, fun _ _ h => htombs ▸ h, fun _ _ => by rw [hkeys]⟩

theorem keeps_modifyStream (s : SessionShared) (sid : Nat) (g : StreamCtx → StreamCtx) :
    s.Keeps (s.modifyStream sid g) :=
  ⟨rfl, fun _ h => mem_modify.mpr h, fun _ _ h => h, fun _ _ => rfl⟩

theorem keeps_markLocalAbort (s : SessionShared) (sid : Nat) : s.Keeps (s.markLocalAbort sid) := by
  unfold markLocalAbort
  split
  · exact .refl s
  · exact .of_insert rfl rfl rfl rfl

theorem keeps_applySummary (s : SessionShared) (summary : StreamSummary) :
    s.Keeps (s.applySummary summary) := by
  unfold applySummary
  split
  · exact .refl s
  · split
    · exact .of_eq rfl rfl rfl rfl
    · exact .of_insert rfl rfl rfl rfl

theorem keeps_advanceJournalFromSummary (s : SessionShared) (summaries : List StreamSummary) :
    s.Keeps (s.advanceJournalFromSummary summaries) := by
  unfold advanceJournalFromSummary
  induction summaries generalizing s with
  | nil => exact .refl s
  | cons summary rest ih => exact (s.keeps_applySummary summary).trans (ih _)

theorem keeps_recvCommit (s : SessionShared) (sid len : Nat) :
    s.Keeps (s.recvCommit sid len).1 := by
  unfold recvCommit
  split
  · exact .refl s
  · exact .of_insert rfl rfl rfl rfl

theorem keeps_reserveStreamSlot (h : s.reserveStreamSlot sid = .ok s') : s.Keeps s' := by
  obtain ⟨-, ⟨-, rfl⟩ | ⟨-, rfl⟩⟩ := reserveStreamSlot_eq_ok h
  · exact .refl s'
  · exact .of_insert rfl rfl rfl rfl

theorem keeps_localOp (s : SessionShared) (op : LocalOp) :
    s.Keeps (op.apply s) ∧ (op.apply s).openMetas = s.openMetas := by
  cases op with
  | recordSend sid payload =>
    rw [LocalOp.apply]
    split
    · next offset s' h =>
      obtain ⟨ctx, journal, -, -, -, -, -, -, rfl⟩ := recordSend_eq_ok h
      exact ⟨.of_insert rfl rfl rfl rfl, rfl⟩
    · exact ⟨.refl s, rfl⟩
  | finish sid =>
    rw [LocalOp.apply]
    split
    · next f s' h =>
      obtain ⟨ctx, -, -, -, -, rfl⟩ := finish_eq_ok h
      exact ⟨.of_insert rfl rfl rfl rfl, rfl⟩
    · exact ⟨.refl s, rfl⟩
  | retractFinal sid => exact ⟨s.keeps_modifyStream sid _, rfl⟩
  | markLocalAbort sid =>
    refine ⟨s.keeps_markLocalAbort sid, ?_⟩
    show (s.markLocalAbort sid).openMetas = s.openMetas
    unfold markLocalAbort
    split <;> rfl
  | recvPop sid =>
    rw [LocalOp.apply]
    cases h : s.recvPop sid with
    | none => exact ⟨.refl s, rfl⟩
    | some r =>
      obtain ⟨q, rest, -, -, hs⟩ := recvPop_eq_some h
      rw [Option.map_some, Option.getD_some, hs]
      exact ⟨.of_eq rfl rfl rfl rfl, rfl⟩
  | recvCommit sid len =>
    refine ⟨s.keeps_recvCommit sid len, ?_⟩
    show (s.recvCommit sid len).1.openMetas = s.openMetas
    unfold recvCommit
    split <;> rfl
  | tryMarkStarted sid =>
    rw [LocalOp.apply, tryMarkStarted]
    split
    · exact ⟨.of_eq rfl rfl rfl rfl, rfl⟩
    · exact ⟨.refl s, rfl⟩
  | markCompleted sid => exact ⟨.of_eq rfl rfl rfl rfl, rfl⟩
  | advanceJournal summaries =>
    refine ⟨s.keeps_advanceJournalFromSummary summaries, ?_⟩
    show (s.advanceJournalFromSummary summaries).openMetas = s.openMetas
    unfold advanceJournalFromSummary
    induction summaries generalizing s with
    | nil => rfl
    | cons summary rest ih =>
      refine (ih _).trans ?_
      unfold applySummary
      repeat' split
      all_goals rfl
  | resumeControl control => exact ⟨.of_eq rfl rfl rfl rfl, rfl⟩
  | close => exact ⟨.of_eq rfl rfl rfl rfl, rfl⟩

/-! ### Frames that are no OPEN -/

theorem keeps_handleData (s : SessionShared) (f : Frame) :
    s.Keeps (s.handleData f).1 ∧ (s.handleData f).1.openMetas = s.openMetas
      ∧ ∀ o, (s.handleData f).2 = .done o → o.newOpen = none := by
  unfold handleData
  extract_lets sid reset sessionGapBytes
  split
  · exact ⟨.of_eq rfl rfl rfl rfl, rfl, fun o ho => (by cases ho; rfl)⟩
  · split
    · exact ⟨.of_eq rfl rfl rfl rfl, rfl, fun o ho => (by cases ho; rfl)⟩
    · split
      · exact ⟨.of_eq rfl rfl rfl rfl, rfl, fun o ho => (by cases ho; rfl)⟩
      · split
        · exact ⟨.of_insert rfl rfl rfl rfl, rfl, fun o ho => (by cases ho; rfl)⟩
        · dsimp only
          split <;> exact ⟨.of_insert rfl rfl rfl rfl, rfl, fun o ho => (by cases ho <;> rfl)⟩

theorem keeps_enqueueDelivered (s : SessionShared) (owner : Nat) (d : Delivery) :
    s.Keeps (s.enqueueDelivered owner d).1
      ∧ (s.enqueueDelivered owner d).1.openMetas = s.openMetas
      ∧ (s.enqueueDelivered owner d).2.newOpen = none := by
  unfold enqueueDelivered
  split
  · exact ⟨.of_eq rfl rfl rfl rfl, rfl, rfl⟩
  · exact ⟨(s.keeps_modifyStream d.streamId _).trans (.of_eq rfl rfl rfl rfl), rfl, rfl⟩

theorem keeps_handleAck (s : SessionShared) (owner : Nat) (f : Frame) :
    s.Keeps (s.handleAck owner f).1 ∧ (s.handleAck owner f).1.openMetas = s.openMetas
      ∧ (s.handleAck owner f).2.newOpen = none := by
  unfold handleAck
  extract_lets sid
  split
  · exact ⟨.of_eq rfl rfl rfl rfl, rfl, rfl⟩
  · split
    · exact ⟨.of_eq rfl rfl rfl rfl, rfl, rfl⟩
    · exact ⟨.of_insert rfl rfl rfl rfl, rfl, rfl⟩

theorem keeps_handleFin (s : SessionShared) (f : Frame) :
    s.Keeps (s.handleFin f).1 ∧ (s.handleFin f).1.openMetas = s.openMetas
      ∧ (s.handleFin f).2.newOpen = none := by
  unfold handleFin
  extract_lets sid
  split
  · exact ⟨.of_eq rfl rfl rfl rfl, rfl, rfl⟩
  · split
    · exact ⟨.of_eq rfl rfl rfl rfl, rfl, rfl⟩
    · split
      · dsimp only
        split <;> exact ⟨.of_eq rfl rfl rfl rfl, rfl, rfl⟩
      · exact ⟨.of_insert rfl rfl rfl rfl, rfl, rfl⟩

theorem keeps_handleReset (s : SessionShared) (f : Frame) :
    s.Keeps (s.handleReset f).1 ∧ (s.handleReset f).1.openMetas = s.openMetas
      ∧ (s.handleReset f).2.newOpen = none := by
  unfold handleReset
  extract_lets sid
  split
  · exact ⟨.of_insert rfl rfl rfl rfl, rfl, rfl⟩
  · next hnone =>
    split
    · exact ⟨.refl s, rfl, rfl⟩
    · split
      · exact ⟨.of_eq rfl rfl rfl rfl, rfl, rfl⟩
      · refine ⟨⟨rfl, fun _ h => h, fun sid' hs ht => ?_, fun _ _ => rfl⟩, rfl, rfl⟩
        rcases ExtTreeMap.mem_insert.mp ht with heq | ht
        · obtain rfl := compare_eq_iff_eq.mp heq
          rw [mem_iff_isSome_getElem?, hnone] at hs
          cases hs
        · exact ht

/-! ### OPEN -/

theorem onOpen_of_some {existing : Nat} {key : String} (h : s.idemIndex[key]? = some existing) :
    s.onOpen sid key = (s, existing, false) := by
  unfold onOpen
  rw [h]

theorem onOpen_of_none {key : String} (sid : Nat) (h : s.idemIndex[key]? = none) :
    ∃ t, s.onOpen sid key = (t, sid, true) ∧ t.isClient = s.isClient ∧ t.streams = s.streams
      ∧ t.resetTombstones = s.resetTombstones ∧ t.openMetas = s.openMetas
      ∧ t.streamKeys = s.streamKeys.insert sid key
      ∧ (t.reserveStreamSlot sid).isOk = (s.reserveStreamSlot sid).isOk := by
  unfold onOpen
  rw [h]
  refine ⟨_, rfl, rfl, rfl, rfl, rfl, rfl, ?_⟩
  unfold reserveStreamSlot
  dsimp only
  repeat' split
  all_goals rfl

theorem handleOpen_ignored (hown : ¬s.OwnParity f.streamId)
    (hnot : ¬(s.idemIndex[parseIdemKey f.payload]? = none ∧ (s.reserveStreamSlot f.streamId).isOk = true)) :
    s.Keeps (s.handleOpen f).1 ∧ (s.handleOpen f).1.openMetas = s.openMetas
      ∧ (s.handleOpen f).2.newOpen = none := by
  rw [handleOpen]
  cases hkey : s.idemIndex[parseIdemKey f.payload]? with
  | some existing =>
    rw [onOpen_of_some hkey]
    dsimp only
    rw [if_neg Bool.false_ne_true]
    split
    · exact ⟨.of_eq rfl rfl rfl rfl, rfl, rfl⟩
    · exact ⟨.refl s, rfl, rfl⟩
  | none =>
    obtain ⟨t, ht, hclient, hstreams, htombs, hmetas, hkeys, hslot⟩ :=
      onOpen_of_none f.streamId hkey
    rw [ht]
    dsimp only
    rw [if_pos rfl]
    split
    · refine ⟨⟨hclient, fun _ h => hstreams ▸ h, fun _ _ h => htombs ▸ h, fun sid hsid => ?_⟩,
        hmetas, rfl⟩
      have hne : f.streamId ≠ sid := fun heq => hown (heq ▸ hsid)
      show (t.streamKeys.erase f.streamId)[sid]? = s.streamKeys[sid]?
      rw [hkeys, getElem?_erase, getElem?_insert]
      simp [hne]
    · next u hu =>
      rw [hu] at hslot
      exact absurd ⟨hkey, hslot.symm⟩ hnot

/-- The first OPEN under its key, with a slot: the stream is there and carries its payload;
it is reported unless a RESET had come before it, and no tombstone is left for it. -/
theorem handleOpen_admitted (hown : ¬s.OwnParity f.streamId)
    (hkey : s.idemIndex[parseIdemKey f.payload]? = none)
    (hslot : (s.reserveStreamSlot f.streamId).isOk = true) :
    s.Keeps (s.handleOpen f).1
      ∧ (s.handleOpen f).1.openMetas = s.openMetas.insert f.streamId f.payload
      ∧ (s.handleOpen f).2.newOpen
          = (if f.streamId ∈ s.resetTombstones then none else some f.streamId)
      ∧ f.streamId ∈ (s.handleOpen f).1.streams
      ∧ f.streamId ∉ (s.handleOpen f).1.resetTombstones := by
  obtain ⟨t, ht, hclient, hstreams, htombs, hmetas, hkeys, hslot'⟩ :=
    onOpen_of_none f.streamId hkey
  rw [handleOpen, ht]
  dsimp only
  rw [if_pos rfl]
  rw [← hslot'] at hslot
  split
  · next e he =>
    rw [he] at hslot
    cases hslot
  · next u hu =>
    have hkeys' : ∀ sid, s.OwnParity sid → t.streamKeys[sid]? = s.streamKeys[sid]? := by
      intro sid hsid
      have hne : f.streamId ≠ sid := fun heq => hown (heq ▸ hsid)
      rw [hkeys, getElem?_insert]
      simp [hne]
    have hbooked : s.Keeps t :=
      ⟨hclient, fun _ h => hstreams ▸ h, fun _ _ h => htombs ▸ h, hkeys'⟩
    have hslotted : s.Keeps u := hbooked.trans (t.keeps_reserveStreamSlot hu)
    have hthere : f.streamId ∈ u.streams ∧ u.resetTombstones = s.resetTombstones
        ∧ u.openMetas = s.openMetas := by
      obtain ⟨-, ⟨hmem, rfl⟩ | ⟨-, rfl⟩⟩ := reserveStreamSlot_eq_ok hu
      · exact ⟨hmem, htombs, hmetas⟩
      · exact ⟨mem_insert_self, htombs, hmetas⟩
    obtain ⟨hmem, htombs', hmetas'⟩ := hthere
    split
    · next htomb =>
      refine ⟨hslotted.trans ⟨rfl, fun _ h => mem_modify.mpr h,
        fun _ _ h => (mem_erase.mp h).2, fun _ _ => rfl⟩, ?_, ?_, ?_, ?_⟩
      · show u.openMetas.insert _ _ = _
        rw [hmetas']
      · rw [if_pos (htombs' ▸ htomb)]
        rfl
      · exact mem_modify.mpr hmem
      · show f.streamId ∉ u.resetTombstones.erase f.streamId
        simp
    · next htomb =>
      refine ⟨hslotted.trans (.of_eq rfl rfl rfl rfl), ?_, ?_, hmem, htomb⟩
      · show u.openMetas.insert _ _ = _
        rw [hmetas']
      · rw [if_neg (htombs' ▸ htomb)]

theorem not_ownParity (hopen : f.frameType = .open_) (h : s.parityOk f = true) :
    ¬s.OwnParity f.streamId := by
  unfold parityOk at h
  unfold OwnParity
  rw [hopen] at h
  have hparity : decide (f.streamId % 2 = 1) = !s.isClient := by simpa using h
  have hiff : f.streamId % 2 = 1 ↔ (!s.isClient) = true := by rw [← hparity, decide_eq_true_iff]
  rw [hiff]
  cases s.isClient <;> simp

/-! ### Any frame -/

/-- **A frame that opens nothing** leaves the metadata alone and reports no stream. -/
theorem handleFrame_ignores (owner : Nat) (hnot : ¬s.AdmitsOpen f) :
    s.Keeps (s.handleFrame owner f).1 ∧ (s.handleFrame owner f).1.openMetas = s.openMetas
      ∧ (s.handleFrame owner f).2.newOpen = none := by
  unfold handleFrame beginFrame
  by_cases hsession : f.sessionId ≠ s.sessionId
  · rw [if_pos hsession]
    exact ⟨.of_eq rfl rfl rfl rfl, rfl, rfl⟩
  rw [if_neg hsession]
  by_cases hexhausted : s.peerStateExhausted = true
  · rw [if_pos hexhausted]
    exact ⟨.refl s, rfl, rfl⟩
  rw [if_neg hexhausted]
  by_cases hdir : s.directionOk f = true
  · rw [if_neg (not_not.mpr hdir)]
    by_cases hparity : s.parityOk f = true
    · rw [if_neg (not_not.mpr hparity)]
      cases htype : f.frameType with
      | data =>
        have hdata := s.keeps_handleData f
        dsimp only
        split
        · next t o hstep =>
          rw [hstep] at hdata
          exact ⟨hdata.1, hdata.2.1, hdata.2.2 o rfl⟩
        · next t d hstep =>
          rw [hstep] at hdata
          have henq := t.keeps_enqueueDelivered owner d
          exact ⟨hdata.1.trans henq.1, henq.2.1.trans hdata.2.1, henq.2.2⟩
      | ack => exact s.keeps_handleAck owner f
      | fin => exact s.keeps_handleFin f
      | reset => exact s.keeps_handleReset f
      | open_ =>
        have hclosed : ¬(s.idemIndex[parseIdemKey f.payload]? = none
            ∧ (s.reserveStreamSlot f.streamId).isOk = true) := fun h =>
          hnot ⟨htype, not_not.mp hsession, Bool.not_eq_true _ ▸ hexhausted, hdir, hparity, h⟩
        exact handleOpen_ignored (not_ownParity htype hparity) hclosed
      | _ => exact ⟨.refl s, rfl, rfl⟩
    · rw [if_pos hparity]
      exact ⟨.of_eq rfl rfl rfl rfl, rfl, rfl⟩
  · rw [if_pos hdir]
    exact ⟨.of_eq rfl rfl rfl rfl, rfl, rfl⟩

/-- **A frame that opens a stream** sets that stream's metadata to its own payload. -/
theorem handleFrame_opens (owner : Nat) (h : s.AdmitsOpen f) :
    s.Keeps (s.handleFrame owner f).1
      ∧ (s.handleFrame owner f).1.openMetas = s.openMetas.insert f.streamId f.payload
      ∧ (s.handleFrame owner f).2.newOpen
          = (if f.streamId ∈ s.resetTombstones then none else some f.streamId)
      ∧ f.streamId ∈ (s.handleFrame owner f).1.streams
      ∧ f.streamId ∉ (s.handleFrame owner f).1.resetTombstones := by
  obtain ⟨htype, hsession, hexhausted, hdir, hparity, hkey, hslot⟩ := h
  have heq : s.handleFrame owner f = s.handleOpen f := by
    unfold handleFrame beginFrame
    rw [if_neg (not_not.mpr hsession), if_neg (by simp [hexhausted]),
      if_neg (not_not.mpr hdir), if_neg (not_not.mpr hparity), htype]
  rw [heq]
  exact handleOpen_admitted (not_ownParity htype hparity) hkey hslot

theorem keeps_handleFrame (s : SessionShared) (owner : Nat) (f : Frame) :
    s.Keeps (s.handleFrame owner f).1 := by
  by_cases h : s.AdmitsOpen f
  · exact (handleFrame_opens owner h).1
  · exact (handleFrame_ignores owner h).1

end SessionShared

end Dweb
