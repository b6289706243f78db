import OpenDweb.Continuity.InOrder
import OpenDweb.Continuity.Session

/-!
# OpenDweb — one direction of one stream

What ties the sender of a stream to its receiver, in terms of the chunks the sender's journal
accepted and of the bytes the receiver's `recv` returned.

* **`SendInv`** — the sender's side: the journal holds chunks, among them, unless the stream
  ended in error, every chunk that has not been read as a whole.
* **`RecvInv`** — the receiver's side: what was read and what waits to be read is the string up
  to the window's expected offset, unless the window was shut before.

Each lemma is about one change of a `StreamCtx`, as one branch of the source makes it.
-/

namespace Dweb

open Std (ExtTreeMap)
open List

/-- Nothing is added to the stream any more: it is finished, or ended in error. -/
def StreamCtx.Frozen (c : StreamCtx) : Prop := c.finalSent.isSome = true ∨ isErrorTerm c.term = true

/-- The sender of the chunks `cs`, of which the peer has read `read` bytes. -/
structure SendInv (L : JournalLimits) (cs : List Bytes) (read : Nat) (c : StreamCtx) : Prop where
  fits : cs.flatten.length < 2 ^ 64
  limits : c.journal.limits = L
  next : c.journal.nextSendOffset = cs.flatten.length
  segments : ∀ (off : Nat) (p : Bytes), c.journal.segments[off]? = some p → IsChunk cs off p
  kept : isErrorTerm c.term = false → ∀ (off : Nat) (p : Bytes), IsChunk cs off p → p ≠ [] →
    off + p.length ≤ read ∨ c.journal.segments[off]? = some p
  final : ∀ n, c.finalSent = some n → n = cs.flatten.length
  room : cs.flatten.length ≤ read + L.maxStreamBytes

/-- The receiver of the chunks `cs`: `received` was returned by `recv`, `waiting` is on its way
there. `frozen` says that the sender adds nothing any more. -/
structure RecvInv (cs : List Bytes) (frozen : Prop) (received waiting : Bytes)
    (uncommitted : Nat) (c : StreamCtx) : Prop where
  window : InOrder cs c.recv
  inOrder : received ++ waiting <+: cs.flatten
  arrived : (received ++ waiting).length ≤ c.recv.expectedOffset
  complete : (received ++ waiting).length = c.recv.expectedOffset
    ∨ (c.remoteFinal = some c.recv.expectedOffset ∧ isErrorTerm c.term = true)
  committed : c.committedOffset + uncommitted = received.length
  fin : c.term = some .fin → c.remoteFinal = some cs.flatten.length ∧ frozen

/-! ## Terms -/

variable {c : StreamCtx}

theorem isErrorTerm_setTerm {t : StreamTerm} (ht : t.isError = true) :
    isErrorTerm (c.setTerm t).term = true := by
  unfold StreamCtx.setTerm
  split
  · assumption
  · exact ht

theorem isErrorTerm_setTerm_of {t : StreamTerm} (h : isErrorTerm c.term = true) :
    isErrorTerm (c.setTerm t).term = true := by
  unfold StreamCtx.setTerm
  rw [if_pos h]
  exact h

theorem term_setTerm (c : StreamCtx) (t : StreamTerm) :
    (c.setTerm t).term = c.term ∨ (c.setTerm t).term = some t := by
  unfold StreamCtx.setTerm
  split
  · exact Or.inl rfl
  · exact Or.inr rfl

@[simp] theorem setTerm_recv (c : StreamCtx) (t : StreamTerm) : (c.setTerm t).recv = c.recv := by
  unfold StreamCtx.setTerm
  split <;> rfl

@[simp] theorem setTerm_journal (c : StreamCtx) (t : StreamTerm) :
    (c.setTerm t).journal = c.journal := by
  unfold StreamCtx.setTerm
  split <;> rfl

@[simp] theorem setTerm_finalSent (c : StreamCtx) (t : StreamTerm) :
    (c.setTerm t).finalSent = c.finalSent := by
  unfold StreamCtx.setTerm
  split <;> rfl

@[simp] theorem setTerm_remoteFinal (c : StreamCtx) (t : StreamTerm) :
    (c.setTerm t).remoteFinal = c.remoteFinal := by
  unfold StreamCtx.setTerm
  split <;> rfl

@[simp] theorem setTerm_committedOffset (c : StreamCtx) (t : StreamTerm) :
    (c.setTerm t).committedOffset = c.committedOffset := by
  unfold StreamCtx.setTerm
  split <;> rfl

theorem noteAck_eq (c : StreamCtx) :
    ∃ n, c.noteAck = { c with lastAckedOffset := n } := by
  unfold StreamCtx.noteAck
  split
  · exact ⟨_, rfl⟩
  · exact ⟨c.lastAckedOffset, rfl⟩

theorem StreamCtx.Frozen.setTerm (h : c.Frozen) (t : StreamTerm) : (c.setTerm t).Frozen :=
  h.imp (fun hsome => by rwa [setTerm_finalSent]) isErrorTerm_setTerm_of

/-! ## Sending -/

namespace SendInv

variable {L : JournalLimits} {cs : List Bytes} {read : Nat} {c c' : StreamCtx}

theorem new (L : JournalLimits) (streamId read : Nat) :
    SendInv L [] read (StreamCtx.new streamId L) where
  fits := by simp
  limits := rfl
  next := rfl
  segments off p h := by simp [StreamCtx.new, StreamJournal.new] at h
  kept _ off p h hne := by
    have hle := h.end_le
    have hpos := length_pos_of_ne_nil hne
    simp only [flatten_nil, length_nil] at hle
    omega
  final n h := by cases h
  room := by simp

theorem of_eq (h : SendInv L cs read c) (hj : c'.journal = c.journal)
    (hterm : isErrorTerm c.term = true → isErrorTerm c'.term = true)
    (hfinal : ∀ n, c'.finalSent = some n → n = cs.flatten.length) : SendInv L cs read c' where
  fits := h.fits
  limits := hj ▸ h.limits
  next := hj ▸ h.next
  segments := hj ▸ h.segments
  kept hterm' := by
    rw [hj]
    exact h.kept (Bool.eq_false_iff.mpr fun herr => Bool.eq_false_iff.mp hterm' (hterm herr))
  final := hfinal
  room := h.room

theorem setTerm (h : SendInv L cs read c) (t : StreamTerm) : SendInv L cs read (c.setTerm t) :=
  h.of_eq (setTerm_journal c t) isErrorTerm_setTerm_of fun n hn =>
    h.final n (by rwa [setTerm_finalSent] at hn)

theorem mono (h : SendInv L cs read c) {read' : Nat} (hle : read ≤ read') :
    SendInv L cs read' c where
  fits := h.fits
  limits := h.limits
  next := h.next
  segments := h.segments
  kept hterm off p hp hne := by
    rcases h.kept hterm off p hp hne with hread | hheld
    · exact Or.inl (Nat.le_trans hread hle)
    · exact Or.inr hheld
  final := h.final
  room := Nat.le_trans h.room (Nat.add_le_add_right hle _)

theorem unread_le_held (h : SendInv L cs read c) (hterm : isErrorTerm c.term = false) :
    cs.flatten.length - read ≤ c.journal.heldBytes := by
  refine le_mapSum_length fun x hx hlt => ?_
  obtain ⟨off, p, hp, hle, hlt'⟩ := exists_isChunk hlt
  have hne : p ≠ [] := ne_nil_of_length_pos (by omega)
  rcases h.kept hterm off p hp hne with hread | hheld
  · omega
  · exact ⟨off, p, hheld, hle, hlt'⟩

theorem record (h : SendInv L cs read c) {p : Bytes} {off : Nat} {j : StreamJournal}
    (hterm : isErrorTerm c.term = false) (hopen : c.finalSent = none)
    (hrec : c.journal.record p false = .ok (off, j))
    (hfits : cs.flatten.length + p.length < 2 ^ 64) :
    off = cs.flatten.length ∧ SendInv L (cs ++ [p]) read { c with journal := j } := by
  obtain ⟨rfl, -, hcap, hnext, -, hlimits, hsegs⟩ := StreamJournal.record_eq_ok hrec
  have hlen : (cs ++ [p]).flatten.length = cs.flatten.length + p.length := by simp
  have hheld := h.unread_le_held hterm
  refine ⟨h.next, ⟨by rw [hlen]; exact hfits, hlimits.trans h.limits, ?_, fun off q hq => ?_,
    fun _ off q hq hne => ?_, fun n hn => ?_, ?_⟩⟩
  · show j.nextSendOffset = _
    rw [hnext, h.next, hlen, Nat.mod_eq_of_lt hfits]
  · change j.segments[off]? = some q at hq
    rw [hsegs] at hq
    rcases getElem?_insert_cases hq with ⟨rfl, rfl⟩ | ⟨-, hq⟩
    · rw [h.next]
      exact isChunk_last cs _
    · exact (h.segments off q hq).append [p]
  · show _ ∨ j.segments[off]? = some q
    rw [hsegs, ExtTreeMap.getElem?_insert, h.next]
    rcases hq.of_append_singleton with hold | ⟨rfl, rfl⟩
    · -- an old chunk with bytes in it begins before the new one
      have hend := hold.end_le
      have hpos := length_pos_of_ne_nil hne
      rw [if_neg fun heq => by have := compare_eq_iff_eq.mp heq; omega]
      exact h.kept hterm off q hold hne
    · exact Or.inr (if_pos (compare_eq_iff_eq.mpr rfl))
  · change c.finalSent = some n at hn
    rw [hopen] at hn
    cases hn
  · rw [hlen]
    rw [h.limits] at hcap
    omega

theorem advanceAck (h : SendInv L cs read c) {x : Nat} (hx : x ≤ read) :
    SendInv L cs read { c with journal := c.journal.advanceAck x } where
  fits := h.fits
  limits := (StreamJournal.advanceAck_limits c.journal x).trans h.limits
  next := (StreamJournal.advanceAck_nextSendOffset c.journal x).trans h.next
  segments off p hp := h.segments off p (StreamJournal.getElem?_of_advanceAck hp)
  kept hterm off p hp hne := by
    by_cases hread : off + p.length ≤ read
    · exact Or.inl hread
    · rcases h.kept hterm off p hp hne with hle | hheld
      · exact Or.inl hle
      · exact Or.inr (StreamJournal.getElem?_advanceAck_of_lt hheld (by omega))
  final := h.final
  room := h.room

theorem cleared (h : SendInv L cs read c) (hj : c'.journal = c.journal.advanceAck c.journal.nextOffset)
    (hterm : isErrorTerm c'.term = true)
    (hfinal : ∀ n, c'.finalSent = some n → n = cs.flatten.length) : SendInv L cs read c' where
  fits := h.fits
  limits := by rw [hj, StreamJournal.advanceAck_limits, h.limits]
  next := by rw [hj, StreamJournal.advanceAck_nextSendOffset, h.next]
  segments off p hp := h.segments off p (StreamJournal.getElem?_of_advanceAck (hj ▸ hp))
  kept hterm' := by
    rw [hterm] at hterm'
    cases hterm'
  final := hfinal
  room := h.room

end SendInv

/-! ## Receiving -/

namespace RecvInv

variable {cs : List Bytes} {frozen : Prop} {received waiting : Bytes} {uncommitted : Nat}
  {c c' : StreamCtx}

theorem new (frozen : Prop) (cs : List Bytes) (streamId : Nat) (L : JournalLimits) :
    RecvInv cs frozen [] [] 0 (StreamCtx.new streamId L) where
  window := .new cs
  inOrder := nil_prefix
  arrived := Nat.le_refl 0
  complete := Or.inl rfl
  committed := rfl
  fin h := by cases h

theorem of_eq (h : RecvInv cs frozen received waiting uncommitted c)
    (hrecv : c'.recv = c.recv) (hfinal : c'.remoteFinal = c.remoteFinal)
    (hcommitted : c'.committedOffset = c.committedOffset)
    (hterm : isErrorTerm c.term = true → isErrorTerm c'.term = true)
    (hfin : c'.term = some .fin → c.term = some .fin) :
    RecvInv cs frozen received waiting uncommitted c' where
  window := hrecv ▸ h.window
  inOrder := h.inOrder
  arrived := hrecv ▸ h.arrived
  complete := by
    rw [hrecv, hfinal]
    exact h.complete.imp_right fun hc => ⟨hc.1, hterm hc.2⟩
  committed := hcommitted ▸ h.committed
  fin hc := hfinal ▸ h.fin (hfin hc)

theorem append (h : RecvInv cs frozen received waiting uncommitted c) (hopen : ¬frozen)
    (ds : List Bytes) : RecvInv (cs ++ ds) frozen received waiting uncommitted c where
  window := h.window.append ds
  inOrder := h.inOrder.trans (by simp)
  arrived := h.arrived
  complete := h.complete
  committed := h.committed
  fin hc := absurd (h.fin hc).2 hopen

theorem of_frozen (h : RecvInv cs frozen received waiting uncommitted c) {frozen' : Prop}
    (hfrozen : frozen → frozen') : RecvInv cs frozen' received waiting uncommitted c :=
  ⟨h.window, h.inOrder, h.arrived, h.complete, h.committed, fun hc => ⟨(h.fin hc).1, hfrozen (h.fin hc).2⟩⟩

theorem pop {b rest : Bytes} (h : RecvInv cs frozen received (b ++ rest) uncommitted c) :
    RecvInv cs frozen (received ++ b) rest (uncommitted + b.length) c where
  window := h.window
  inOrder := by
    rw [append_assoc]
    exact h.inOrder
  arrived := by
    rw [append_assoc]
    exact h.arrived
  complete := by
    rw [append_assoc]
    exact h.complete
  committed := by
    have hcommitted := h.committed
    rw [length_append]
    omega
  fin := h.fin

variable {n : Nat}

theorem commit {len : Nat} (h : RecvInv cs frozen received waiting uncommitted c)
    (hle : len ≤ uncommitted) :
    RecvInv cs frozen received waiting (uncommitted - len)
      { c with committedOffset := c.committedOffset + len, lastAckedOffset := n } where
  window := h.window
  inOrder := h.inOrder
  arrived := h.arrived
  complete := h.complete
  committed := by
    have hcommitted := h.committed
    show c.committedOffset + len + (uncommitted - len) = received.length
    omega
  fin := h.fin

theorem shut (h : RecvInv cs frozen received waiting uncommitted c) {waiting' : Bytes}
    (hwaiting : waiting' <+: waiting) (hrecv : c'.recv = c.recv)
    (hfinal : c'.remoteFinal = some c.recv.expectedOffset)
    (hcommitted : c'.committedOffset = c.committedOffset) (hterm : isErrorTerm c'.term = true) :
    RecvInv cs frozen received waiting' uncommitted c' where
  window := hrecv ▸ h.window
  inOrder := ((prefix_append_right_inj received).mpr hwaiting).trans h.inOrder
  arrived := by
    rw [hrecv]
    exact Nat.le_trans ((prefix_append_right_inj received).mpr hwaiting).length_le h.arrived
  complete := Or.inr ⟨by rw [hfinal, hrecv], hterm⟩
  committed := hcommitted ▸ h.committed
  fin hc := by
    rw [hc] at hterm
    cases hterm

theorem finish (h : RecvInv cs frozen received waiting uncommitted c) (hfrozen : frozen)
    (hnone : c.remoteFinal = none) :
    RecvInv cs frozen received waiting uncommitted
      ({ c with remoteFinal := some cs.flatten.length }.setTerm .fin) where
  window := by simpa using h.window
  inOrder := h.inOrder
  arrived := by simpa using h.arrived
  complete := by
    rcases h.complete with hlen | ⟨hshut, -⟩
    · exact Or.inl (by simpa using hlen)
    · rw [hnone] at hshut
      cases hshut
  committed := by simpa using h.committed
  fin _ := ⟨by simp, hfrozen⟩

theorem buffer (h : RecvInv cs frozen received waiting uncommitted c) {w : RecvWindow}
    (hw : InOrder cs w) (hsame : w.expectedOffset = c.recv.expectedOffset) :
    RecvInv cs frozen received waiting uncommitted
      { c with recv := w, lastAckedOffset := n } where
  window := hw
  inOrder := h.inOrder
  arrived := Nat.le_trans h.arrived (Nat.le_of_eq hsame.symm)
  complete := by
    show (received ++ waiting).length = w.expectedOffset
      ∨ (c.remoteFinal = some w.expectedOffset ∧ _)
    rw [hsame]
    exact h.complete
  committed := h.committed
  fin := h.fin

theorem deliver (h : RecvInv cs frozen received waiting uncommitted c) {w : RecvWindow} {p : Bytes}
    {segments : List Bytes} (hw : InOrder cs w) (hle : c.recv.expectedOffset ≤ w.expectedOffset)
    (hflat : segments.flatten = slice cs.flatten c.recv.expectedOffset w.expectedOffset)
    (hempty : p = [] → w.expectedOffset = c.recv.expectedOffset)
    (hfinal : ∀ final, c.remoteFinal = some final → c.recv.expectedOffset + p.length ≤ final) :
    RecvInv cs frozen received (waiting ++ segments.flatten) uncommitted
      { c with recv := w, lastAckedOffset := n } := by
  have hlen : segments.flatten.length = w.expectedOffset - c.recv.expectedOffset := by
    rw [hflat, length_slice hw.boundary.le]
  rcases h.complete with hall | ⟨hshut, herr⟩
  · have hread : received ++ waiting = slice cs.flatten 0 c.recv.expectedOffset := by
      rw [← hall]
      unfold slice
      rw [drop_zero, Nat.sub_zero]
      exact prefix_iff_eq_take.mp h.inOrder
    have hstring : received ++ (waiting ++ segments.flatten)
        = slice cs.flatten 0 w.expectedOffset := by
      rw [← append_assoc, hread, hflat, slice_append_slice (Nat.zero_le _) hle]
    have hall' : (received ++ (waiting ++ segments.flatten)).length = w.expectedOffset := by
      rw [hstring, length_slice hw.boundary.le, Nat.sub_zero]
    refine ⟨hw, ?_, Nat.le_of_eq hall', Or.inl hall', h.committed, h.fin⟩
    rw [hstring]
    exact take_prefix _ _
  · -- a shut window takes empty chunks only
    have hp : p.length = 0 := by
      have := hfinal _ hshut
      omega
    have hsame := hempty (eq_nil_of_length_eq_zero hp)
    have hnil : segments.flatten = [] := by
      rw [hsame, Nat.sub_self] at hlen
      exact eq_nil_of_length_eq_zero hlen
    rw [hnil, append_nil]
    exact h.buffer hw hsame

end RecvInv

/-! ## Ending in error -/

section Ending

variable {L : JournalLimits} {cs : List Bytes} {read uncommitted : Nat} {frozen : Prop}
  {received waiting : Bytes} {c : StreamCtx} {t : StreamTerm}

theorem isErrorTerm_terminate (ht : t.isError = true) :
    isErrorTerm (c.terminate t).term = true := isErrorTerm_setTerm ht

theorem terminate_journal : (c.terminate t).journal = c.journal.advanceAck c.journal.nextOffset := by
  simp [StreamCtx.terminate, StreamCtx.clearJournal]

theorem frozen_terminate (ht : t.isError = true) : (c.terminate t).Frozen :=
  Or.inr (isErrorTerm_terminate ht)

theorem heldBytes_terminate_le : (c.terminate t).journal.heldBytes ≤ c.journal.heldBytes := by
  rw [terminate_journal]
  exact StreamJournal.heldBytes_advanceAck_le _ _

theorem term_terminate : (c.terminate t).term = c.term ∨ (c.terminate t).term = some t :=
  term_setTerm _ t

theorem SendInv.terminate (h : SendInv L cs read c) (ht : t.isError = true) :
    SendInv L cs read (c.terminate t) := by
  refine h.cleared terminate_journal (isErrorTerm_terminate ht) fun n hn => h.final n ?_
  simpa [StreamCtx.terminate, StreamCtx.clearJournal] using hn

theorem RecvInv.terminate (h : RecvInv cs frozen received waiting uncommitted c)
    {waiting' : Bytes} (hwaiting : waiting' <+: waiting) (ht : t.isError = true) :
    RecvInv cs frozen received waiting' uncommitted (c.terminate t) := by
  refine h.shut hwaiting ?_ ?_ ?_ (isErrorTerm_terminate ht)
  · simp [StreamCtx.terminate, StreamCtx.clearJournal]
  · simp [StreamCtx.terminate, StreamCtx.clearJournal]
  · simp [StreamCtx.terminate, StreamCtx.clearJournal]

/-- A local abort: as `terminate`, but the window stays open and the FIN is taken back. -/
def StreamCtx.abort (c : StreamCtx) : StreamCtx :=
  { c.setTerm .localAbort with finalSent := none }.clearJournal

theorem isErrorTerm_abort : isErrorTerm c.abort.term = true := isErrorTerm_setTerm rfl

theorem abort_journal : c.abort.journal = c.journal.advanceAck c.journal.nextOffset := by
  simp [StreamCtx.abort, StreamCtx.clearJournal]

theorem SendInv.abort (h : SendInv L cs read c) : SendInv L cs read c.abort :=
  h.cleared abort_journal isErrorTerm_abort fun n hn => (by cases hn)

theorem RecvInv.abort (h : RecvInv cs frozen received waiting uncommitted c) :
    RecvInv cs frozen received waiting uncommitted c.abort := by
  refine h.of_eq ?_ ?_ ?_ (fun _ => isErrorTerm_abort) fun hfin => ?_
  · simp [StreamCtx.abort, StreamCtx.clearJournal]
  · simp [StreamCtx.abort, StreamCtx.clearJournal]
  · simp [StreamCtx.abort, StreamCtx.clearJournal]
  · have herr := isErrorTerm_abort (c := c)
    rw [hfin] at herr
    cases herr

end Ending

end Dweb
