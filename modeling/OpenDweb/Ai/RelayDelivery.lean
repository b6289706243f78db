import OpenDweb.Ai.Relay

/-!
# OpenDweb — delivery by the response relay

* **`RelayDelivery`** — the cursors are in order, the ring holds what was produced and not
  confirmed, answers carry what was produced under their number, a summary comes when all was
  served, confirmed and ended, and nobody sleeps who could go on.
* **`RelayStepSafe`** — cursors do not go back, a piece leaves a living ring when it was served and
  a later pull confirms it, a pull that is rejected changes nothing.
* **`InReach`** — no pull asks beyond what it was served while something served is unconfirmed.
* **`relay_delivers`** — then both hold, in every interleaving.
* **`SampleRelay.conflict_confirms`** — without it, a pull that is rejected empties the ring.
-/

namespace Dweb

open List Option Bool

/-! ## The ring -/

/-- The pieces from the `start`th on, with their numbers. -/
def IsRing (produced : List Bytes) (start : Nat) (pending : List (Int × Bytes)) : Prop :=
  ∀ i, pending[i]? = (produced[start + i]?).map fun buf => (((start + i : Nat) : Int), buf)

def pendingBytes (pending : List (Int × Bytes)) : Nat := (pending.map (·.2.length)).sum

section

variable {produced : List Bytes} {start m n : Nat} {pending : List (Int × Bytes)} {piece : Bytes}

theorem IsRing.nil (h : produced.length ≤ start) : IsRing produced start [] := by
  intro i
  rw [getElem?_eq_none (by omega : produced.length ≤ start + i)]
  rfl

theorem IsRing.length_le (h : IsRing produced start []) : produced.length ≤ start := by
  have := h 0
  simpa using this.symm

theorem IsRing.head {seq : Int} {buf : Bytes} (h : IsRing produced start ((seq, buf) :: pending)) :
    seq = start ∧ produced[start]? = some buf := by
  have h0 := h 0
  simp only [getElem?_cons_zero, Nat.add_zero] at h0
  cases hp : produced[start]? with
  | none =>
    rw [hp] at h0
    cases h0
  | some b =>
    rw [hp] at h0
    cases h0
    exact ⟨rfl, rfl⟩

theorem IsRing.tail {slot : Int × Bytes} (h : IsRing produced start (slot :: pending)) :
    IsRing produced (start + 1) pending := by
  intro i
  have := h (i + 1)
  rw [getElem?_cons_succ] at this
  rw [this, show start + 1 + i = start + (i + 1) by omega]

theorem IsRing.add_length (h : IsRing produced start pending) (hle : start ≤ produced.length) :
    start + pending.length = produced.length := by
  induction pending generalizing start with
  | nil =>
    have := h.length_le
    simp only [length_nil]
    omega
  | cons slot pending ih =>
    obtain ⟨seq, buf⟩ := slot
    have hlt := (List.getElem?_eq_some_iff.mp h.head.2).1
    have := ih h.tail hlt
    simp only [length_cons]
    omega

theorem IsRing.push (piece : Bytes) (h : IsRing produced start pending)
    (hle : start ≤ produced.length) :
    IsRing (produced ++ [piece]) start (pending ++ [((produced.length : Int), piece)]) := by
  have hlen := h.add_length hle
  intro i
  by_cases hi : i < pending.length
  · rw [getElem?_append_left hi, getElem?_append_left (by omega)]
    exact h i
  · by_cases hlast : i = pending.length
    · subst hlast
      rw [hlen]
      simp
    · rw [getElem?_eq_none (by simp; omega), getElem?_eq_none (by simp; omega)]
      rfl

theorem shiftPending_ring (h : IsRing produced start pending) (hle : start ≤ m) :
    let left := ResponseState.shiftPending ((m : Int) - 1) pending (pendingBytes pending)
    IsRing produced m left.1 ∧ left.2 = pendingBytes left.1 := by
  induction pending generalizing start with
  | nil =>
    have := h.length_le
    exact ⟨.nil (by omega), rfl⟩
  | cons slot pending ih =>
    obtain ⟨seq, buf⟩ := slot
    have hseq := h.head.1
    have hbytes : pendingBytes ((seq, buf) :: pending) - buf.length = pendingBytes pending := by
      simp only [pendingBytes, map_cons, sum_cons]
      omega
    rw [ResponseState.shiftPending]
    by_cases hgone : seq ≤ (m : Int) - 1
    · simp only [if_pos hgone, hbytes]
      exact ih h.tail (by omega)
    · simp only [if_neg hgone]
      have hstart : start = m := by omega
      exact ⟨hstart ▸ h, trivial⟩

theorem shiftPending_bytes_le (c : Int) (pending : List (Int × Bytes)) (bytes : Nat) :
    (ResponseState.shiftPending c pending bytes).2 ≤ bytes := by
  induction pending generalizing bytes with
  | nil => exact Nat.le_refl _
  | cons slot pending ih =>
    obtain ⟨seq, buf⟩ := slot
    rw [ResponseState.shiftPending]
    split
    · exact Nat.le_trans (ih _) (Nat.sub_le _ _)
    · exact Nat.le_refl _

theorem mem_shiftPending (c : Int) {slot : Int × Bytes} {bytes : Nat} (hmem : slot ∈ pending)
    (hgone : slot ∉ (ResponseState.shiftPending c pending bytes).1) : slot.1 ≤ c := by
  induction pending generalizing bytes with
  | nil => cases hmem
  | cons head pending ih =>
    obtain ⟨seq, buf⟩ := head
    rw [ResponseState.shiftPending] at hgone
    split at hgone
    · next hle =>
      rcases mem_cons.mp hmem with heq | hmem
      · exact heq ▸ hle
      · exact ih hmem hgone
    · exact absurd hmem hgone

end

/-! ## What is to hold -/

/-- **Delivery**, in a state. -/
structure RelayDelivery (config : ResponseConfig) (s : ResponseState) : Prop where
  order : s.entry.committedSeq ≤ s.entry.servedSeq ∧ s.entry.servedSeq ≤ s.entry.producedSeq
  bytes : s.entry.bufferBytes = pendingBytes s.entry.pending
  limit : s.entry.bufferBytes ≤ config.perRidBufferBytes
  ring : s.entry.terminal = none →
    IsRing s.produced (s.entry.committedSeq + 1).toNat s.entry.pending
  pieces : ∀ d ∈ s.decisions, ∀ seq body fin, d.answer = .piece seq body fin →
    0 ≤ seq ∧ s.produced[seq.toNat]? = some body
  served : ∀ seq : Nat, (seq : Int) ≤ s.entry.servedSeq →
    ∃ d ∈ s.decisions, ∃ body fin, d.answer = .piece seq body fin
  confirmed : ∀ seq : Nat, (seq : Int) ≤ s.entry.committedSeq →
    ∃ call ∈ s.pulls, (seq : Int) < call.fromSeq
  summaries : ∀ d ∈ s.decisions, ∀ seq head, d.answer = .summary seq head →
    s.entry.eof = true ∧ s.entry.committedSeq = s.entry.producedSeq
  pullsSleep : ∀ call ∈ s.pulls, ∀ aborted, call.phase = .held false aborted →
    (s.decideReady config call.fromSeq).1 = none
  chunksSleep : ∀ call ∈ s.chunks, call.woken = false → s.tryChunk config call.piece = none

def ResponseLabel.pull? : ResponseLabel → Option Nat
  | .first k => some k
  | .second k => some k
  | _ => none

def PullCall.rejected (call : PullCall) : Bool :=
  match call.phase with
  | .releasing (some (.conflict _)) => true
  | .replayed (.conflict _) => true
  | .answered (some (.conflict _)) => true
  | _ => false

def ResponseState.rejections (s : ResponseState) : Nat := s.pulls.countP PullCall.rejected

/-- **Delivery**, over a step. -/
structure RelayStepSafe (s s' : ResponseState) (l : ResponseLabel) : Prop where
  committed : s.entry.committedSeq ≤ s'.entry.committedSeq
  served : s.entry.servedSeq ≤ s'.entry.servedSeq
  produced : s.entry.producedSeq ≤ s'.entry.producedSeq
  leaves : s'.entry.terminal = none → ∀ slot ∈ s.entry.pending, slot ∉ s'.entry.pending →
    slot.1 ≤ s.entry.servedSeq ∧
      ∃ k ∈ l.pull?, ∃ call ∈ s.pulls[k]?, slot.1 < call.fromSeq
  conflicts : s.rejections < s'.rejections →
    s'.record = s.record ∧ s'.produced = s.produced ∧ s'.chunks = s.chunks ∧
      { s'.entry with pullInFlight := s.entry.pullInFlight } = s.entry

/-- A pull that asks beyond what it was served, while something served is unconfirmed. -/
def ResponseState.Overreaches (s : ResponseState) (call : PullCall) : Prop :=
  s.entry.terminal = none ∧ s.entry.pullInFlight = false ∧
    s.entry.committedSeq < s.entry.servedSeq ∧ s.entry.servedSeq < call.fromSeq - 1

/-- **The condition on a step.** -/
def InReach (s : ResponseState) : ResponseLabel → Prop
  | .first k => ∀ call ∈ s.pulls[k]?, ¬ s.Overreaches call
  | _ => True

instance ResponseState.decidableOverreaches (s : ResponseState) (call : PullCall) :
    Decidable (s.Overreaches call) :=
  inferInstanceAs (Decidable (_ ∧ _ ∧ _ ∧ _))

instance InReach.decidable (s : ResponseState) : (l : ResponseLabel) → Decidable (InReach s l)
  | .first k => inferInstanceAs (Decidable (∀ call ∈ s.pulls[k]?, ¬ s.Overreaches call))
  | .tick _ | .setMeta _ | .chunk _ | .rechunk _ | .endOfBody | .error _ _ | .abortLocal
  | .pull _ _ _ | .signal _ | .timeout _ | .resume _ | .second _ | .release _ | .cancel _
  | .cancelLocked _ | .sweep | .expire | .drain | .close _ _ | .evict => isTrue trivial

/-! ## The invariant -/

def PullCall.occupies (call : PullCall) : Bool :=
  match call.phase with
  | .held _ _ => true
  | .second _ => true
  | .releasing _ => true
  | _ => false

def PullCall.waits (call : PullCall) : Bool :=
  match call.phase with
  | .held _ _ => true
  | .second _ => true
  | _ => false

structure RingInv (config : ResponseConfig) (entry : ResponseEntry) (produced : List Bytes) :
    Prop where
  first : -1 ≤ entry.committedSeq
  order : entry.committedSeq ≤ entry.servedSeq ∧ entry.servedSeq ≤ entry.producedSeq
  close : entry.servedSeq ≤ entry.committedSeq + 1
  log : (produced.length : Int) = entry.producedSeq + 1
  ring : entry.terminal = none → IsRing produced (entry.committedSeq + 1).toNat entry.pending
  cleared : entry.terminal ≠ none → entry.pending = []
  bytes : entry.bufferBytes = pendingBytes entry.pending
  limit : entry.bufferBytes ≤ config.perRidBufferBytes

structure WaitInv (config : ResponseConfig) (s : ResponseState) : Prop where
  next : ∀ call ∈ s.pulls, call.waits → s.entry.terminal = none →
    call.fromSeq = s.entry.committedSeq + 1
  pulls : ∀ call ∈ s.pulls, ∀ aborted, call.phase = .held false aborted →
    s.entry.terminal = none ∧ s.entry.pending = [] ∧ s.entry.eof = false
  chunks : ∀ call ∈ s.chunks, call.woken = false → s.entry.terminal = none ∧
    s.entry.eof = false ∧ config.perRidBufferBytes < s.entry.bufferBytes + call.piece.length

def ResponseEntry.Complete (entry : ResponseEntry) : Prop :=
  entry.eof = true ∧ entry.committedSeq = entry.producedSeq

structure AnswerInv (s : ResponseState) : Prop where
  pieces : ∀ d ∈ s.decisions, ∀ seq body fin, d.answer = .piece seq body fin →
    0 ≤ seq ∧ s.produced[seq.toNat]? = some body
  served : ∀ seq : Nat, (seq : Int) ≤ s.entry.servedSeq →
    ∃ d ∈ s.decisions, ∃ body fin, d.answer = .piece seq body fin
  confirmed : ∀ seq : Nat, (seq : Int) ≤ s.entry.committedSeq →
    ∃ call ∈ s.pulls, (seq : Int) < call.fromSeq
  summaries : ∀ d ∈ s.decisions, ∀ seq head, d.answer = .summary seq head →
    s.entry.terminal ≠ none ∧ s.entry.Complete
  record : ∀ record, s.record = some record →
    s.entry.terminal ≠ none ∧ (record.terminal.kind = .done → s.entry.Complete)

def SingleFlight (s : ResponseState) : Prop :=
  s.pulls.countP PullCall.occupies = if s.entry.pullInFlight then 1 else 0

structure RelayInv (config : ResponseConfig) (s : ResponseState) : Prop where
  ring : RingInv config s.entry s.produced
  wait : WaitInv config s
  answer : AnswerInv s

/-! ## The decision -/

section

variable {config : ResponseConfig} {s s' t : ResponseState} {fromSeq : Int} {k : Nat}

theorem confirm_of_le (h : min (fromSeq - 1) s.entry.servedSeq ≤ s.entry.committedSeq) :
    s.confirm fromSeq = s := by
  rw [ResponseState.confirm]
  simp only
  rw [if_neg (by omega)]

theorem confirm_of_lt (h : s.entry.committedSeq < min (fromSeq - 1) s.entry.servedSeq) :
    s.confirm fromSeq =
      ({ s with entry := { s.entry with
          committedSeq := min (fromSeq - 1) s.entry.servedSeq
          pending := (ResponseState.shiftPending (min (fromSeq - 1) s.entry.servedSeq)
            s.entry.pending s.entry.bufferBytes).1
          bufferBytes := (ResponseState.shiftPending (min (fromSeq - 1) s.entry.servedSeq)
            s.entry.pending s.entry.bufferBytes).2 } } : ResponseState).wakeChunks := by
  rw [ResponseState.confirm]
  simp only
  rw [if_pos h]

theorem confirm_frame (s : ResponseState) (fromSeq : Int) :
    (s.confirm fromSeq).pulls = s.pulls ∧ (s.confirm fromSeq).produced = s.produced ∧
    (s.confirm fromSeq).record = s.record ∧ (s.confirm fromSeq).decisions = s.decisions ∧
    (s.confirm fromSeq).entry.terminal = s.entry.terminal ∧
    (s.confirm fromSeq).entry.eof = s.entry.eof ∧
    (s.confirm fromSeq).entry.servedSeq = s.entry.servedSeq ∧
    (s.confirm fromSeq).entry.producedSeq = s.entry.producedSeq ∧
    (s.confirm fromSeq).entry.pullInFlight = s.entry.pullInFlight := by
  by_cases h : s.entry.committedSeq < min (fromSeq - 1) s.entry.servedSeq
  · rw [confirm_of_lt h]
    exact ⟨rfl, rfl, rfl, rfl, rfl, rfl, rfl, rfl, rfl⟩
  · rw [confirm_of_le (by omega)]
    exact ⟨rfl, rfl, rfl, rfl, rfl, rfl, rfl, rfl, rfl⟩

theorem confirm_committedSeq (s : ResponseState) (fromSeq : Int) :
    (s.confirm fromSeq).entry.committedSeq =
      max s.entry.committedSeq (min (fromSeq - 1) s.entry.servedSeq) := by
  by_cases h : s.entry.committedSeq < min (fromSeq - 1) s.entry.servedSeq
  · rw [confirm_of_lt h]
    show min (fromSeq - 1) s.entry.servedSeq = _
    omega
  · rw [confirm_of_le (by omega)]
    omega

theorem RingInv.confirm (h : RingInv config s.entry s.produced) (hliving : s.entry.terminal = none)
    (fromSeq : Int) : RingInv config (s.confirm fromSeq).entry s.produced := by
  by_cases hlt : s.entry.committedSeq < min (fromSeq - 1) s.entry.servedSeq
  · rw [confirm_of_lt hlt]
    have hfirst := h.first
    obtain ⟨m, hm⟩ : ∃ m : Nat, min (fromSeq - 1) s.entry.servedSeq = (m : Int) - 1 :=
      ⟨(min (fromSeq - 1) s.entry.servedSeq + 1).toNat, by omega⟩
    have hle : (s.entry.committedSeq + 1).toNat ≤ m := by omega
    obtain ⟨hring, hbytes⟩ := shiftPending_ring (h.ring hliving) hle
    rw [← h.bytes, ← hm] at hring hbytes
    have hstart : (min (fromSeq - 1) s.entry.servedSeq + 1).toNat = m := by omega
    exact {
      first := by
        show -1 ≤ min (fromSeq - 1) s.entry.servedSeq
        omega
      order := ⟨Int.min_le_right _ _, h.order.2⟩
      close := by
        have hclose := h.close
        show s.entry.servedSeq ≤ min (fromSeq - 1) s.entry.servedSeq + 1
        omega
      log := h.log
      ring := fun _ => by
        show IsRing s.produced (min (fromSeq - 1) s.entry.servedSeq + 1).toNat _
        rw [hstart]
        exact hring
      cleared := fun hterminal => absurd hliving hterminal
      bytes := hbytes
      limit := Nat.le_trans (shiftPending_bytes_le _ _ _) h.limit }
  · rw [confirm_of_le (by omega)]
    exact h

/-- **What a decision does.** -/
inductive ResponseState.DecidesAs (config : ResponseConfig) (s : ResponseState) (fromSeq : Int) :
    Option ResponseAnswer → ResponseState → Prop where
  | replay (hended : s.entry.terminal ≠ none) :
      DecidesAs config s fromSeq (some (s.terminalReplay config s.entry.keyId).1)
        (s.terminalReplay config s.entry.keyId).2
  | conflict (hliving : s.entry.terminal = none)
      (hother : fromSeq ≠ (s.confirm fromSeq).entry.committedSeq + 1) :
      DecidesAs config s fromSeq (some (.conflict .invalid_from_seq)) (s.confirm fromSeq)
  | piece (hliving : s.entry.terminal = none)
      (hnext : fromSeq = (s.confirm fromSeq).entry.committedSeq + 1)
      {buf : Bytes} {rest : List (Int × Bytes)} (fin : Bool)
      (hpending : (s.confirm fromSeq).entry.pending = (fromSeq, buf) :: rest) :
      DecidesAs config s fromSeq (some (.piece fromSeq buf fin))
        { s.confirm fromSeq with entry := { (s.confirm fromSeq).entry with
            servedSeq := fromSeq, lastActivityAt := (s.confirm fromSeq).now } }
  | summary (hliving : s.entry.terminal = none)
      (hnext : fromSeq = (s.confirm fromSeq).entry.committedSeq + 1)
      (heof : (s.confirm fromSeq).entry.eof = true)
      (hlast : (s.confirm fromSeq).entry.producedSeq < fromSeq)
      (seq : Int) (head : Option ResponseMeta) :
      DecidesAs config s fromSeq (some (.summary seq head))
        (ResponseState.applyTerminal config { s.confirm fromSeq with
          entry := { (s.confirm fromSeq).entry with
            committedSeq := (s.confirm fromSeq).entry.producedSeq
            lastActivityAt := (s.confirm fromSeq).now } } ⟨.done, "", ""⟩)
  | hold (hliving : s.entry.terminal = none)
      (hnext : fromSeq = (s.confirm fromSeq).entry.committedSeq + 1)
      (hhead : ∀ buf rest, (s.confirm fromSeq).entry.pending ≠ (fromSeq, buf) :: rest)
      (hgoes : ¬ ((s.confirm fromSeq).entry.eof = true ∧
        (s.confirm fromSeq).entry.producedSeq < fromSeq)) :
      DecidesAs config s fromSeq none (s.confirm fromSeq)

variable {answer : Option ResponseAnswer} {call call' : PullCall} {l : ResponseLabel}
    {terminal : Terminal} {record : Option ResponseRecord} {piece : Bytes} {b : Bool}
    {d : ResponseDecision}

theorem decides_as (h : s.decideReady config fromSeq = (answer, t)) :
    ResponseState.DecidesAs config s fromSeq answer t := by
  rw [ResponseState.decideReady] at h
  split at h
  · next hended =>
    cases h
    exact .replay hended
  · next hliving =>
    have hliving : s.entry.terminal = none := by simpa using hliving
    simp only at h
    split at h
    · next hother =>
      cases h
      exact .conflict hliving hother
    · next hnext =>
      have hnext := not_not.mp hnext
      split at h
      -- the head of the ring is the piece that is asked for
      · next buf hready =>
        cases h
        split at hready
        · next seq _ rest hpending =>
          obtain ⟨rfl, hbuf⟩ := ite_none_right_eq_some.mp hready
          cases hbuf
          exact .piece hliving hnext _ hpending
        · cases hready
      · next hready =>
        have hhead : ∀ buf rest, (s.confirm fromSeq).entry.pending ≠ (fromSeq, buf) :: rest := by
          intro buf rest hpending
          rw [hpending] at hready
          simp at hready
        split at h
        · next hdone =>
          cases h
          exact .summary hliving hnext hdone.1 hdone.2 _ _
        · next hgoes =>
          cases h
          exact .hold hliving hnext hhead hgoes

/-! ## What a step does -/

/-- A pull goes on: it keeps its place and what it was told, and does not begin to wait. -/
structure PullCall.GoesOn (call call' : PullCall) : Prop where
  fromSeq : call'.fromSeq = call.fromSeq
  occupies : call'.occupies = call.occupies
  rejected : call'.rejected = call.rejected
  waits : call'.waits → call.waits
  asleep : ∀ aborted, call'.phase = .held false aborted → call.phase = .held false aborted

theorem PullCall.GoesOn.of_waits (hfrom : call'.fromSeq = call.fromSeq) (hwaits : call.waits)
    (hoccupies : call'.occupies) (hrejected : call'.rejected = false)
    (hawake : ∀ aborted, call'.phase ≠ .held false aborted) : call.GoesOn call' where
  fromSeq := hfrom
  occupies := by
    obtain ⟨seq, keyId, signalled, phase⟩ := call
    rw [hoccupies]
    cases phase <;> first | rfl | cases hwaits
  rejected := by
    obtain ⟨seq, keyId, signalled, phase⟩ := call
    rw [hrejected]
    cases phase <;> first | rfl | cases hwaits
  waits _ := hwaits
  asleep aborted hasleep := absurd hasleep (hawake aborted)

/-- **What a step does.** -/
inductive ResponseState.StepAs (config : ResponseConfig) (s : ResponseState) :
    ResponseLabel → ResponseState → Prop where
  | idle (l : ResponseLabel) : StepAs config s l s
  | tick (ms : Nat) : StepAs config s (.tick ms) { s with now := s.now + ms }
  | head (head : ResponseMeta) (hliving : s.entry.terminal = none) :
      StepAs config s (.setMeta head) { s with entry := { s.entry with head := some head } }
  | chunk {piece : Bytes} {t : ResponseState} (htry : s.tryChunk config piece = some t) :
      StepAs config s (.chunk piece) t
  | chunkWaits {piece : Bytes} (htry : s.tryChunk config piece = none) :
      StepAs config s (.chunk piece) { s with chunks := ⟨piece, false⟩ :: s.chunks }
  | rechunk (i : Nat) {piece : Bytes} {t : ResponseState}
      (htry : { s with chunks := s.chunks.eraseIdx i }.tryChunk config piece = some t) :
      StepAs config s (.rechunk i) t
  | rechunkWaits (i : Nat) {piece : Bytes}
      (htry : { s with chunks := s.chunks.eraseIdx i }.tryChunk config piece = none) :
      StepAs config s (.rechunk i) { s with chunks := s.chunks.set i ⟨piece, false⟩ }
  | endOfBody (hliving : s.entry.terminal = none) : StepAs config s .endOfBody
      (wakeChunks (wakePulls { s with entry := { s.entry with eof := true } }))
  | drop (l : ResponseLabel) : StepAs config s l s.dropEntry
  | terminate (l : ResponseLabel) (terminal : Terminal) (hkind : terminal.kind ≠ .done) :
      StepAs config s l (s.applyTerminal config terminal)
  | arrive {call : PullCall} (hwaits : call.waits = false) (hoccupies : call.occupies = false)
      (hrejected : call.rejected = false) (signalled : Bool) :
      StepAs config s (.pull call.fromSeq call.keyId signalled)
        { s with pulls := call :: s.pulls }
  | replay (fromSeq : Int) (keyId : String) (hended : s.entry.terminal ≠ none) :
      StepAs config s (.pull fromSeq keyId false)
        (if s.entry.keyId = keyId then
          s.decided (s.summaryAnswer config keyId) (s.pullSummary config fromSeq keyId)
        else s.pullSummary config fromSeq keyId)
  | busy {k : Nat} {call : PullCall} (hcall : s.pulls[k]? = some call)
      (hqueued : call.phase = .queued) (htaken : s.entry.pullInFlight = true) :
      StepAs config s (.first k) (s.decided (.conflict .pull_in_flight)
        (s.setPull k call (.answered (some (.conflict .pull_in_flight)))))
  | firstDecided {k : Nat} {call : PullCall} {answer : ResponseAnswer} {t : ResponseState}
      (hcall : s.pulls[k]? = some call) (hqueued : call.phase = .queued)
      (hfree : s.entry.pullInFlight = false)
      (hdecide : { s with entry := { s.entry with pullInFlight := true } }.decideReady config
        call.fromSeq = (some answer, t)) :
      StepAs config s (.first k) (s.decided answer (t.setPull k call (.releasing (some answer))))
  | hold {k : Nat} {call : PullCall} {t : ResponseState}
      (hcall : s.pulls[k]? = some call) (hqueued : call.phase = .queued)
      (hfree : s.entry.pullInFlight = false)
      (hdecide : { s with entry := { s.entry with pullInFlight := true } }.decideReady config
        call.fromSeq = (none, t)) :
      StepAs config s (.first k) (t.setPull k call (.held call.signalled call.signalled))
  | move (l : ResponseLabel) {k : Nat} {call call' : PullCall} (hcall : s.pulls[k]? = some call)
      (hmove : call.GoesOn call') : StepAs config s l { s with pulls := s.pulls.set k call' }
  | secondDecided {k : Nat} {call : PullCall} {answer : ResponseAnswer} {t : ResponseState}
      (hcall : s.pulls[k]? = some call) (hphase : call.phase = .second false)
      (hdecide : s.decideReady config call.fromSeq = (some answer, t)) :
      StepAs config s (.second k) (s.decided answer (t.setPull k call (.releasing (some answer))))
  | holdOver {k : Nat} {call : PullCall} (t : ResponseState)
      (hcall : s.pulls[k]? = some call) (hphase : call.phase = .second false)
      (hdecide : s.decideReady config call.fromSeq = (none, t)) :
      StepAs config s (.second k) (s.decided (.hold (t.entry.committedSeq + 1))
        (t.setPull k call (.releasing (some (.hold (t.entry.committedSeq + 1))))))
  | release {k : Nat} (call : PullCall) (answer : Option ResponseAnswer)
      (hcall : s.pulls[k]? = some call) (hphase : call.phase = .releasing answer) :
      StepAs config s (.release k)
        ({ s with entry := { s.entry with pullInFlight := false } }.setPull k call
          (.answered answer))
  | releaseReplay {k : Nat} (call : PullCall) (answer : ResponseAnswer)
      (hcall : s.pulls[k]? = some call) (hphase : call.phase = .replayed answer) :
      StepAs config s (.release k)
        ({ s with replayInFlight := false }.setPull k call (.answered (some answer)))
  | cancel (keyId : String) (call : CancelCall) :
      StepAs config s (.cancel keyId) { s with cancels := call :: s.cancels }
  | cancelReplay (keyId : String) (hended : s.entry.terminal ≠ none) {t : ResponseState}
      (ht : t = { (s.cancelSummary config keyId).2 with
        cancels := .answered (s.cancelSummary config keyId).1 ::
          (s.cancelSummary config keyId).2.cancels }) :
      StepAs config s (.cancel keyId)
        (if s.entry.keyId = keyId then s.decided (s.cancelSummary config keyId).1 t else t)
  | cancelLocked {c : Nat} (hqueued : s.cancels[c]? = some .queued) {t : ResponseState}
      (ht : t = s.applyTerminal config ⟨.cancelled, "", ""⟩) :
      StepAs config s (.cancelLocked c) (s.decided (.status .cancelled)
        { t with cancels := t.cancels.set c (.answered (.status .cancelled)) })
  | sweep (expiring : Bool) : StepAs config s .sweep { s.expireSummary with expiring }
  | expire : StepAs config s .expire
      (applyTerminal config { s with expiring := false } ⟨.expired, "", ""⟩)
  | evict (hended : s.entry.terminal ≠ none) : StepAs config s .evict { s with record := none }

theorem relay_step_as (hstep : s.step config l = some s') : ResponseState.StepAs config s l s' := by
  cases l with
  | tick ms =>
    cases hstep
    exact .tick ms
  | setMeta head =>
    simp only [ResponseState.step] at hstep
    split at hstep
    · cases hstep
      exact .idle _
    · next hliving =>
      cases hstep
      exact .head head (not_not.mp hliving)
  | chunk piece =>
    simp only [ResponseState.step] at hstep
    split at hstep
    · next htry =>
      cases hstep
      exact .chunk htry
    · next htry =>
      cases hstep
      exact .chunkWaits htry
  | rechunk i =>
    simp only [ResponseState.step] at hstep
    split at hstep
    · split at hstep
      · next htry =>
        cases hstep
        exact .rechunk i htry
      · next htry =>
        cases hstep
        exact .rechunkWaits i htry
    · cases hstep
  | endOfBody =>
    simp only [ResponseState.step] at hstep
    split at hstep
    · cases hstep
      exact .idle _
    · next hliving =>
      cases hstep
      exact .endOfBody (not_not.mp hliving)
  | error code message =>
    simp only [ResponseState.step] at hstep
    split at hstep
    · cases hstep
      exact .idle _
    · split at hstep
      · cases hstep
        exact .drop _
      · cases hstep
        exact .terminate _ _ nofun
  | abortLocal =>
    simp only [ResponseState.step] at hstep
    split at hstep
    · cases hstep
      exact .idle _
    · cases hstep
      exact .drop _
  | pull fromSeq keyId signalled =>
    simp only [ResponseState.step] at hstep
    split at hstep
    · cases hstep
      exact @ResponseState.StepAs.arrive config s ⟨fromSeq, keyId, true, .answered none⟩ rfl rfl rfl _
    · next hsignalled =>
      rw [not_eq_true] at hsignalled
      subst hsignalled
      split at hstep
      · next hended =>
        cases hstep
        exact .replay fromSeq keyId hended
      · split at hstep
        · cases hstep
          exact @ResponseState.StepAs.arrive config s ⟨fromSeq, keyId, false, _⟩ rfl rfl rfl _
        · cases hstep
          exact @ResponseState.StepAs.arrive config s ⟨fromSeq, keyId, false, _⟩ rfl rfl rfl _
  | first k =>
    simp only [ResponseState.step] at hstep
    split at hstep
    · next call hcall =>
      split at hstep
      · cases hstep
      · next hqueued =>
        have hqueued := not_not.mp hqueued
        split at hstep
        · next htaken =>
          cases hstep
          exact .busy hcall hqueued htaken
        · next hfree =>
          rw [not_eq_true] at hfree
          split at hstep
          · next hdecide =>
            cases hstep
            exact .firstDecided hcall hqueued hfree hdecide
          · next hdecide =>
            cases hstep
            exact .hold hcall hqueued hfree hdecide
    · cases hstep
  | signal k =>
    simp only [ResponseState.step] at hstep
    split at hstep
    · next call hcall =>
      split at hstep
      · next hphase =>
        cases hstep
        exact .move _ hcall (.of_waits rfl (by rw [PullCall.waits, hphase]) rfl rfl nofun)
      · next phase hheld =>
        cases hstep
        exact .move _ hcall ⟨rfl, rfl, rfl, id, fun _ => id⟩
    · cases hstep
  | timeout k =>
    simp only [ResponseState.step] at hstep
    split at hstep
    · next call hcall =>
      split at hstep
      · next hphase =>
        cases hstep
        exact .move _ hcall (.of_waits rfl (by rw [PullCall.waits, hphase]) rfl rfl nofun)
      · cases hstep
    · cases hstep
  | resume k =>
    simp only [ResponseState.step] at hstep
    split at hstep
    · next call hcall =>
      split at hstep
      · next hphase =>
        cases hstep
        exact .move _ hcall (.of_waits rfl (by rw [PullCall.waits, hphase]) rfl rfl nofun)
      · cases hstep
    · cases hstep
  | second k =>
    simp only [ResponseState.step] at hstep
    split at hstep
    · next call hcall =>
      split at hstep
      · next hphase =>
        cases hstep
        exact .move _ hcall (.of_waits rfl (by rw [PullCall.waits, hphase]) rfl rfl nofun)
      · next hphase =>
        split at hstep
        · next hdecide =>
          cases hstep
          exact .secondDecided hcall hphase hdecide
        · next hdecide =>
          cases hstep
          exact .holdOver _ hcall hphase hdecide
      · cases hstep
    · cases hstep
  | release k =>
    simp only [ResponseState.step] at hstep
    split at hstep
    · next call hcall =>
      split at hstep
      · next hphase =>
        cases hstep
        exact .release _ _ hcall hphase
      · next hphase =>
        cases hstep
        exact .releaseReplay _ _ hcall hphase
      · cases hstep
    · cases hstep
  | cancel keyId =>
    simp only [ResponseState.step] at hstep
    split at hstep
    · next hended =>
      cases hstep
      exact .cancelReplay keyId hended rfl
    · split at hstep <;> cases hstep <;> exact .cancel keyId _
  | cancelLocked c =>
    simp only [ResponseState.step] at hstep
    split at hstep
    · next hqueued =>
      cases hstep
      exact .cancelLocked hqueued rfl
    · cases hstep
  | sweep =>
    cases hstep
    exact .sweep _
  | expire =>
    simp only [ResponseState.step] at hstep
    split at hstep
    · cases hstep
      exact .expire
    · cases hstep
  | drain =>
    cases hstep
    exact .terminate _ _ nofun
  | close code message =>
    cases hstep
    exact .terminate _ _ nofun
  | evict =>
    simp only [ResponseState.step] at hstep
    split at hstep
    · next hended =>
      cases hstep
      exact .evict hended
    · cases hstep

/-! ## Wakes and terminals -/

theorem PullCall.wake_occupies (call : PullCall) : call.wake.occupies = call.occupies := by
  obtain ⟨seq, keyId, signalled, phase⟩ := call
  cases phase <;> rfl

theorem PullCall.wake_waits (call : PullCall) : call.wake.waits = call.waits := by
  obtain ⟨seq, keyId, signalled, phase⟩ := call
  cases phase <;> rfl

theorem PullCall.wake_fromSeq (call : PullCall) : call.wake.fromSeq = call.fromSeq := by
  obtain ⟨seq, keyId, signalled, phase⟩ := call
  cases phase <;> rfl

theorem PullCall.wake_ne_asleep (call : PullCall) (aborted : Bool) :
    call.wake.phase ≠ .held false aborted := by
  obtain ⟨seq, keyId, signalled, phase⟩ := call
  cases phase <;> simp [PullCall.wake]

theorem PullCall.wake_rejected (call : PullCall) : call.wake.rejected = call.rejected := by
  obtain ⟨seq, keyId, signalled, phase⟩ := call
  cases phase <;> rfl

theorem countP_wake {p : PullCall → Bool} (hp : ∀ call, p call.wake = p call)
    (pulls : List PullCall) : (pulls.map PullCall.wake).countP p = pulls.countP p := by
  rw [countP_map]
  exact congrArg (List.countP · pulls) (funext hp)

theorem exists_call_wake {pulls : List PullCall} {seq : Int}
    (h : ∃ call ∈ pulls, seq < call.fromSeq) :
    ∃ call ∈ pulls.map PullCall.wake, seq < call.fromSeq := by
  obtain ⟨call, hmem, hlt⟩ := h
  exact ⟨call.wake, List.mem_map_of_mem hmem, by rwa [PullCall.wake_fromSeq]⟩

theorem WaitInv.of_woken (hpulls : t.pulls = s.pulls.map PullCall.wake)
    (hchunks : ∀ call ∈ t.chunks, call.woken = true)
    (hnext : ∀ call ∈ s.pulls, call.waits → t.entry.terminal = none →
      call.fromSeq = t.entry.committedSeq + 1) : WaitInv config t where
  next call hmem hwaits hliving := by
    rw [hpulls] at hmem
    obtain ⟨call', hmem', heq⟩ := List.mem_map.mp hmem
    subst heq
    rw [PullCall.wake_waits] at hwaits
    rw [PullCall.wake_fromSeq]
    exact hnext call' hmem' hwaits hliving
  pulls call hmem aborted hphase := by
    rw [hpulls] at hmem
    obtain ⟨call', -, heq⟩ := List.mem_map.mp hmem
    exact absurd hphase (heq ▸ PullCall.wake_ne_asleep call' aborted)
  chunks call hmem hwoken := by
    rw [hchunks call hmem] at hwoken
    cases hwoken

theorem woken_of_mem_wakeChunks {chunks : List ChunkCall} {call : ChunkCall}
    (h : call ∈ chunks.map fun call => { call with woken := true }) : call.woken = true := by
  obtain ⟨call', -, heq⟩ := List.mem_map.mp h
  rw [← heq]

theorem RelayInv.terminate {n : Nat} (h : RelayInv config s)
    (hrecord : ∀ r, record = some r → r.terminal.kind = .done → s.entry.Complete) :
    RelayInv config (ResponseState.wakeChunks (ResponseState.wakePulls { s with
      record
      entry := { s.entry with terminal := some terminal, pending := [], bufferBytes := 0 }
      onTerminals := n })) where
  ring := {
    first := h.ring.first
    order := h.ring.order
    close := h.ring.close
    log := h.ring.log
    ring := nofun
    cleared := fun _ => rfl
    bytes := rfl
    limit := Nat.zero_le _ }
  wait := .of_woken rfl (fun _ => woken_of_mem_wakeChunks)
    nofun
  answer := {
    pieces := h.answer.pieces
    served := h.answer.served
    confirmed := fun seq hle => exists_call_wake (h.answer.confirmed seq hle)
    summaries := fun d hd seq head hanswer =>
      ⟨nofun, (h.answer.summaries d hd seq head hanswer).2⟩
    record := fun r hr => ⟨nofun, hrecord r hr⟩ }

theorem applyTerminal_of_living (hliving : s.entry.terminal = none) :
    s.applyTerminal config terminal =
      ResponseState.wakeChunks (ResponseState.wakePulls { s.putSummary config terminal with
        entry := { s.entry with terminal := some terminal, pending := [], bufferBytes := 0 }
        onTerminals := s.onTerminals + 1 }) := by
  rw [ResponseState.applyTerminal, if_neg (fun hterminal => hterminal hliving)]
  rfl

theorem RelayInv.applyTerminal (terminal : Terminal) (h : RelayInv config s)
    (hdone : terminal.kind = .done → s.entry.Complete) :
    RelayInv config (s.applyTerminal config terminal) := by
  rw [ResponseState.applyTerminal]
  split
  · exact h
  · refine h.terminate fun r hr hkind => hdone ?_
    cases hr
    exact hkind

theorem RelayInv.dropEntry (h : RelayInv config s) : RelayInv config s.dropEntry := by
  rw [ResponseState.dropEntry]
  split
  · exact h
  · exact h.terminate fun r hr hkind => (h.answer.record r hr).2 hkind

theorem RelayInv.setRecord (h : RelayInv config s)
    (hrecord : ∀ r, record = some r → s.entry.terminal ≠ none ∧ (r.terminal.kind = .done → s.entry.Complete)) :
    RelayInv config { s with record } where
  ring := h.ring
  wait := { h.wait with }
  answer := { h.answer with record := hrecord }

theorem RelayInv.expireSummary (h : RelayInv config s) : RelayInv config s.expireSummary := by
  refine h.setRecord fun r hr => ?_
  obtain ⟨record, hrecord, heq⟩ := map_eq_some_iff.mp hr
  obtain ⟨hterminal, hdone⟩ := h.answer.record record hrecord
  refine ⟨hterminal, fun hkind => ?_⟩
  subst heq
  split at hkind
  · cases hkind
  · exact hdone hkind

theorem RelayInv.touchSummary (h : RelayInv config s) :
    RelayInv config (s.touchSummary config) := by
  refine h.setRecord fun r hr => ?_
  obtain ⟨record, hrecord, heq⟩ := map_eq_some_iff.mp hr
  subst heq
  exact h.answer.record record hrecord

theorem terminalReplay_frame (config : ResponseConfig) (s : ResponseState) (keyId : String) :
    ∃ record, (s.terminalReplay config keyId).2 = { s with record } := by
  rw [ResponseState.terminalReplay]
  split
  · exact ⟨s.record, rfl⟩
  · split
    · exact ⟨s.record, rfl⟩
    · split
      · exact ⟨_, rfl⟩
      · exact ⟨_, rfl⟩

theorem terminalReplay_entry (config : ResponseConfig) (s : ResponseState) (keyId : String) :
    (s.terminalReplay config keyId).2.entry = s.entry := by
  obtain ⟨record, heq⟩ := terminalReplay_frame config s keyId
  rw [heq]

theorem RelayInv.terminalReplay (h : RelayInv config s) (keyId : String) :
    RelayInv config (s.terminalReplay config keyId).2 ∧
    (∀ seq body fin, (s.terminalReplay config keyId).1 ≠ .piece seq body fin) ∧
    (∀ code, (s.terminalReplay config keyId).1 ≠ .conflict code) ∧
    ∀ seq head, (s.terminalReplay config keyId).1 = .summary seq head →
      s.entry.terminal ≠ none ∧ s.entry.Complete := by
  rw [ResponseState.terminalReplay]
  cases hrecord : s.record with
  | none =>
    exact ⟨h, by simp, by simp, by simp⟩
  | some record =>
    simp only
    by_cases hkey : record.keyId ≠ keyId
    · rw [if_pos hkey]
      exact ⟨h, by simp, by simp, by simp⟩
    · rw [if_neg hkey]
      by_cases hdue : record.isDue s.now = true
      · rw [if_pos hdue]
        exact ⟨h.expireSummary, by simp, by simp, by simp⟩
      · rw [if_neg hdue]
        refine ⟨h.touchSummary, ?_, ?_, ?_⟩
        · cases record.terminal.kind <;> simp
        · cases record.terminal.kind <;> simp
        · intro seq head hsummary
          obtain ⟨hterminal, hdone⟩ := h.answer.record record hrecord
          cases hkind : record.terminal.kind with
          | done => exact ⟨hterminal, hdone hkind⟩
          | _ =>
            rw [hkind] at hsummary
            cases hsummary

/-! ## The producer -/

theorem tryChunk_eq_none : s.tryChunk config piece = none ↔
    s.entry.terminal = none ∧ s.entry.eof = false ∧
      config.perRidBufferBytes < s.entry.bufferBytes + piece.length := by
  rw [ResponseState.tryChunk]
  by_cases hover : s.entry.terminal ≠ none ∨ s.entry.eof = true
  · rw [if_pos hover]
    refine iff_of_false (by simp) ?_
    rintro ⟨hliving, heof, -⟩
    rcases hover with hterminal | hended
    · exact hterminal hliving
    · rw [heof] at hended
      cases hended
  · rw [if_neg hover]
    have hliving : s.entry.terminal = none := by
      by_contra hterminal
      exact hover (.inl hterminal)
    have heof : s.entry.eof = false := by
      rw [← not_eq_true]
      exact fun hended => hover (.inr hended)
    by_cases hfits : s.entry.bufferBytes + piece.length ≤ config.perRidBufferBytes
    · rw [if_pos hfits]
      refine iff_of_false (by simp) ?_
      omega
    · rw [if_neg hfits]
      exact iff_of_true rfl ⟨hliving, heof, Nat.lt_of_not_le hfits⟩

theorem tryChunk_eq_some (h : s.tryChunk config piece = some t) :
    t = s ∨ s.entry.terminal = none ∧ s.entry.eof = false ∧
      s.entry.bufferBytes + piece.length ≤ config.perRidBufferBytes ∧
      t = ResponseState.wakePulls { s with
        entry := { s.entry with
          producedSeq := s.entry.producedSeq + 1
          pending := s.entry.pending ++ [(s.entry.producedSeq + 1, piece)]
          bufferBytes := s.entry.bufferBytes + piece.length }
        produced := s.produced ++ [piece] } := by
  rw [ResponseState.tryChunk] at h
  split at h
  · exact .inl (some.inj h).symm
  · next hover =>
    split at h
    · next hfits =>
      refine .inr ⟨?_, ?_, hfits, (some.inj h).symm⟩
      · by_contra hterminal
        exact hover (.inl hterminal)
      · rw [← not_eq_true]
        exact fun hended => hover (.inr hended)
    · cases h

theorem RelayInv.tryChunk (h : RelayInv config s) (htry : s.tryChunk config piece = some t) :
    RelayInv config t := by
  rcases tryChunk_eq_some htry with heq | ⟨hliving, heof, hfits, heq⟩
  · exact heq ▸ h
  · subst heq
    have hfirst := h.ring.first
    have horder := h.ring.order
    have hlog := h.ring.log
    have hstart : (s.entry.committedSeq + 1).toNat ≤ s.produced.length := by omega
    have hincomplete : ¬ s.entry.Complete := fun hcomplete => by
      rw [hcomplete.1] at heof
      cases heof
    exact {
      ring := {
        first := hfirst
        order := ⟨horder.1, Int.le_trans horder.2 (Int.le_add_of_nonneg_right (by decide))⟩
        close := h.ring.close
        log := by
          show ((s.produced ++ [piece]).length : Int) = s.entry.producedSeq + 1 + 1
          rw [length_append, length_singleton]
          omega
        ring := fun _ => by
          have hpush := (h.ring.ring hliving).push piece hstart
          rw [hlog] at hpush
          exact hpush
        cleared := fun hterminal => absurd hliving hterminal
        bytes := by
          show s.entry.bufferBytes + piece.length = pendingBytes (s.entry.pending ++ _)
          rw [h.ring.bytes, pendingBytes, pendingBytes, map_append, sum_append]
          rfl
        limit := hfits }
      wait := {
        next := by
          intro call hmem hwaits _
          obtain ⟨call', hmem', heq⟩ := List.mem_map.mp hmem
          subst heq
          rw [PullCall.wake_waits] at hwaits
          rw [PullCall.wake_fromSeq]
          exact h.wait.next call' hmem' hwaits hliving
        pulls := by
          intro call hmem aborted hphase
          obtain ⟨call', -, heq⟩ := List.mem_map.mp hmem
          exact absurd hphase (heq ▸ PullCall.wake_ne_asleep call' aborted)
        chunks := by
          intro call hmem hwoken
          obtain ⟨-, -, hfull⟩ := h.wait.chunks call hmem hwoken
          refine ⟨hliving, heof, ?_⟩
          show _ < s.entry.bufferBytes + piece.length + call.piece.length
          omega }
      answer := {
        pieces := by
          intro d hd seq body fin hanswer
          obtain ⟨hnonneg, hpiece⟩ := h.answer.pieces d hd seq body fin hanswer
          refine ⟨hnonneg, ?_⟩
          show (s.produced ++ [piece])[seq.toNat]? = some body
          rw [getElem?_append_left (List.getElem?_eq_some_iff.mp hpiece).1]
          exact hpiece
        served := h.answer.served
        confirmed := fun seq hle => exists_call_wake (h.answer.confirmed seq hle)
        summaries := fun d hd seq head hanswer =>
          absurd hliving (h.answer.summaries d hd seq head hanswer).1
        record := fun r hr => absurd hliving (h.answer.record r hr).1 } }

theorem RelayInv.setChunks {chunks : List ChunkCall} (h : RelayInv config s)
    (hchunks : ∀ call ∈ chunks, call ∈ s.chunks ∨ s.tryChunk config call.piece = none) :
    RelayInv config { s with chunks } where
  ring := h.ring
  wait := { h.wait with
    chunks := by
      intro call hmem hwoken
      rcases hchunks call hmem with hmem | hnone
      · exact h.wait.chunks call hmem hwoken
      · have hfacts := tryChunk_eq_none.mp hnone
        exact hfacts }
  answer := { h.answer with }

theorem RelayInv.endOfBody (h : RelayInv config s) (hliving : s.entry.terminal = none) :
    RelayInv config (ResponseState.wakeChunks (ResponseState.wakePulls
      { s with entry := { s.entry with eof := true } })) where
  ring := { h.ring with }
  wait := .of_woken rfl (fun _ => woken_of_mem_wakeChunks) h.wait.next
  answer := {
    pieces := h.answer.pieces
    served := h.answer.served
    confirmed := fun seq hle => exists_call_wake (h.answer.confirmed seq hle)
    summaries := fun d hd seq head hanswer =>
      absurd hliving (h.answer.summaries d hd seq head hanswer).1
    record := fun r hr => absurd hliving (h.answer.record r hr).1 }

/-! ## The pulls -/

theorem RelayInv.setFlight (h : RelayInv config s) :
    RelayInv config { s with entry := { s.entry with pullInFlight := b } } where
  ring := { h.ring with }
  wait := { h.wait with }
  answer := { h.answer with }

theorem RelayInv.setActivity {now : Nat} (h : RelayInv config s) :
    RelayInv config { s with entry := { s.entry with lastActivityAt := now } } where
  ring := { h.ring with }
  wait := { h.wait with }
  answer := { h.answer with }

theorem RelayInv.movePull (h : RelayInv config s) (hcall : s.pulls[k]? = some call)
    (hseq : call'.fromSeq = call.fromSeq)
    (hwaits : call'.waits → s.entry.terminal = none → call'.fromSeq = s.entry.committedSeq + 1)
    (hsleep : ∀ aborted, call'.phase = .held false aborted → s.entry.terminal = none ∧ s.entry.pending = [] ∧ s.entry.eof = false) :
    RelayInv config { s with pulls := s.pulls.set k call' } where
  ring := h.ring
  wait := {
    next := by
      intro c hmem hw hliving
      rcases mem_or_eq_of_mem_set hmem with hmem | heq
      · exact h.wait.next c hmem hw hliving
      · subst heq
        exact hwaits hw hliving
    pulls := by
      intro c hmem aborted hphase
      rcases mem_or_eq_of_mem_set hmem with hmem | heq
      · exact h.wait.pulls c hmem aborted hphase
      · subst heq
        exact hsleep aborted hphase
    chunks := h.wait.chunks }
  answer := { h.answer with
    confirmed := by
      intro seq hle
      obtain ⟨c, hmem, hlt⟩ := h.answer.confirmed seq hle
      obtain ⟨i, hi⟩ := mem_iff_getElem?.mp hmem
      obtain ⟨hk, -⟩ := List.getElem?_eq_some_iff.mp hcall
      by_cases hik : i = k
      · subst hik
        rw [hcall] at hi
        cases hi
        exact ⟨call', mem_set hk _, by omega⟩
      · refine ⟨c, mem_iff_getElem?.mpr ⟨i, ?_⟩, hlt⟩
        show (s.pulls.set k call')[i]? = _
        rw [getElem?_set_ne (fun heq => hik heq.symm)]
        exact hi }

theorem RelayInv.addPull (h : RelayInv config s) (hwaits : call.waits = false) :
    RelayInv config { s with pulls := call :: s.pulls } where
  ring := h.ring
  wait := {
    next := by
      intro c hmem hw hliving
      rcases mem_cons.mp hmem with heq | hmem
      · rw [heq, hwaits] at hw
        cases hw
      · exact h.wait.next c hmem hw hliving
    pulls := by
      intro c hmem aborted hphase
      rcases mem_cons.mp hmem with heq | hmem
      · rw [← heq, PullCall.waits, hphase] at hwaits
        cases hwaits
      · exact h.wait.pulls c hmem aborted hphase
    chunks := h.wait.chunks }
  answer := { h.answer with
    confirmed := by
      intro seq hle
      obtain ⟨c, hmem, hlt⟩ := h.answer.confirmed seq hle
      exact ⟨c, mem_cons_of_mem _ hmem, hlt⟩ }

theorem RelayInv.addDecision (h : RelayInv config s)
    (hpiece : ∀ seq body fin, d.answer ≠ .piece seq body fin)
    (hsummary : ∀ seq head, d.answer = .summary seq head → s.entry.terminal ≠ none ∧ s.entry.Complete) :
    RelayInv config { s with decisions := d :: s.decisions } where
  ring := h.ring
  wait := { h.wait with }
  answer := { h.answer with
    pieces := by
      intro d' hd seq body fin hanswer
      rcases mem_cons.mp hd with heq | hd
      · exact absurd (heq ▸ hanswer) (hpiece seq body fin)
      · exact h.answer.pieces d' hd seq body fin hanswer
    served := by
      intro seq hle
      obtain ⟨d', hd, hserved⟩ := h.answer.served seq hle
      exact ⟨d', mem_cons_of_mem _ hd, hserved⟩
    summaries := by
      intro d' hd seq head hanswer
      rcases mem_cons.mp hd with heq | hd
      · exact hsummary seq head (heq ▸ hanswer)
      · exact h.answer.summaries d' hd seq head hanswer }

theorem RelayInv.confirm (h : RelayInv config s) (hliving : s.entry.terminal = none)
    (hasked : ∃ call ∈ s.pulls, call.fromSeq = fromSeq)
    (hnext : ∀ call ∈ s.pulls, call.waits → fromSeq = s.entry.committedSeq + 1) :
    RelayInv config (s.confirm fromSeq) := by
  by_cases hlt : s.entry.committedSeq < min (fromSeq - 1) s.entry.servedSeq
  · have hring := h.ring.confirm hliving fromSeq
    rw [confirm_of_lt hlt] at hring ⊢
    have hnone : ∀ call ∈ s.pulls, call.waits = false := fun call hmem => by
      rw [← not_eq_true]
      intro hwaits
      have := hnext call hmem hwaits
      omega
    exact {
      ring := hring
      wait := {
        next := by
          intro call hmem hwaits
          have := hnone call hmem
          rw [hwaits] at this
          cases this
        pulls := by
          intro call hmem aborted hphase
          have := hnone call hmem
          rw [PullCall.waits, hphase] at this
          cases this
        chunks := by
          intro call hmem hwoken
          rw [woken_of_mem_wakeChunks hmem] at hwoken
          cases hwoken }
      answer := {
        pieces := h.answer.pieces
        served := h.answer.served
        confirmed := by
          intro seq hle
          have hle : (seq : Int) ≤ min (fromSeq - 1) s.entry.servedSeq := hle
          obtain ⟨call, hmem, heq⟩ := hasked
          exact ⟨call, hmem, by omega⟩
        summaries := fun d hd seq head hanswer =>
          absurd hliving (h.answer.summaries d hd seq head hanswer).1
        record := fun r hr => absurd hliving (h.answer.record r hr).1 } }
  · rw [confirm_of_le (by omega)]
    exact h

theorem RelayInv.serve {buf : Bytes} {rest : List (Int × Bytes)} {fin : Bool} {now : Nat}
    (h : RelayInv config s) (hliving : s.entry.terminal = none)
    (hnext : fromSeq = s.entry.committedSeq + 1)
    (hpending : s.entry.pending = (fromSeq, buf) :: rest)
    (hanswer : d.answer = .piece fromSeq buf fin) :
    RelayInv config { s with
      entry := { s.entry with servedSeq := fromSeq, lastActivityAt := now }
      decisions := d :: s.decisions } := by
  have hfirst := h.ring.first
  have horder := h.ring.order
  have hclose := h.ring.close
  have hring := h.ring.ring hliving
  rw [hpending] at hring
  obtain ⟨-, hbuf⟩ := hring.head
  have hlength := (List.getElem?_eq_some_iff.mp hbuf).1
  have hlog := h.ring.log
  exact {
    ring := { h.ring with
      order := by
        show s.entry.committedSeq ≤ fromSeq ∧ fromSeq ≤ s.entry.producedSeq
        omega
      close := by
        show fromSeq ≤ s.entry.committedSeq + 1
        omega }
    wait := { h.wait with }
    answer := { h.answer with
      pieces := by
        intro d' hd seq body fin' hanswer'
        rcases mem_cons.mp hd with heq | hd
        · rw [heq, hanswer] at hanswer'
          cases hanswer'
          refine ⟨by omega, ?_⟩
          rw [hnext]
          exact hbuf
        · exact h.answer.pieces d' hd seq body fin' hanswer'
      served := by
        intro seq hle
        have hle : (seq : Int) ≤ fromSeq := hle
        by_cases hlast : (seq : Int) = fromSeq
        · exact ⟨d, mem_cons_self, buf, fin, by rw [hanswer, hlast]⟩
        · obtain ⟨d', hd, hserved⟩ := h.answer.served seq (by omega)
          exact ⟨d', mem_cons_of_mem _ hd, hserved⟩
      summaries := by
        intro d' hd seq head hanswer'
        rcases mem_cons.mp hd with heq | hd
        · rw [heq, hanswer] at hanswer'
          cases hanswer'
        · exact h.answer.summaries d' hd seq head hanswer' } }

theorem RelayInv.complete (h : RelayInv config s) (hnext : fromSeq = s.entry.committedSeq + 1)
    (hlast : s.entry.producedSeq < fromSeq) :
    s.entry.committedSeq = s.entry.producedSeq ∧ s.entry.servedSeq = s.entry.producedSeq := by
  have horder := h.ring.order
  omega

/-- **A decision with an answer.** -/
theorem RelayInv.decideReady {answer : ResponseAnswer} (h : RelayInv config s)
    (hasked : ∃ call ∈ s.pulls, call.fromSeq = fromSeq)
    (hnext : ∀ call ∈ s.pulls, call.waits → s.entry.terminal = none → fromSeq = s.entry.committedSeq + 1)
    (hdecide : s.decideReady config fromSeq = (some answer, t)) (hd : d.answer = answer) :
    RelayInv config { t with decisions := d :: t.decisions } := by
  have hconfirm := fun hliving =>
    h.confirm hliving hasked fun call hmem hwaits => hnext call hmem hwaits hliving
  have hterminal := (confirm_frame s fromSeq).2.2.2.2.1
  cases decides_as hdecide with
  | replay hended =>
    obtain ⟨hinv, hpiece, -, hsummary⟩ := h.terminalReplay s.entry.keyId
    refine hinv.addDecision ?_ ?_
    · rw [hd]
      exact hpiece
    · rw [hd, terminalReplay_entry]
      exact hsummary
  | conflict hliving =>
    refine (hconfirm hliving).addDecision ?_ ?_
    · rw [hd]
      simp
    · rw [hd]
      simp
  | piece hliving hseq fin hpending =>
    exact (hconfirm hliving).serve (hterminal.trans hliving) hseq hpending hd
  | summary hliving hseq heof hlast =>
    have hinv := hconfirm hliving
    obtain ⟨hcommitted, -⟩ := hinv.complete hseq hlast
    have htouched : RelayInv config { s.confirm fromSeq with
        entry := { (s.confirm fromSeq).entry with
          committedSeq := (s.confirm fromSeq).entry.producedSeq
          lastActivityAt := (s.confirm fromSeq).now } } := by
      rw [← hcommitted]
      exact hinv.setActivity
    have hdone := htouched.applyTerminal ⟨.done, "", ""⟩ fun _ => ⟨heof, rfl⟩
    refine hdone.addDecision ?_ ?_
    · rw [hd]
      simp
    · intro _ _ _
      rw [applyTerminal_of_living (by exact hterminal.trans hliving)]
      exact ⟨nofun, heof, rfl⟩

/-- **A decision without an answer**: there is nothing, and the upstream goes on. -/
theorem RelayInv.decideReady_none (h : RelayInv config s)
    (hasked : ∃ call ∈ s.pulls, call.fromSeq = fromSeq)
    (hnext : ∀ call ∈ s.pulls, call.waits → s.entry.terminal = none →
      fromSeq = s.entry.committedSeq + 1)
    (hdecide : s.decideReady config fromSeq = (none, t)) :
    RelayInv config t ∧ t = s.confirm fromSeq ∧ t.entry.terminal = none ∧
      fromSeq = t.entry.committedSeq + 1 ∧ t.entry.pending = [] ∧ t.entry.eof = false := by
  cases decides_as hdecide with
  | hold hliving hseq hhead hgoes =>
    have hconfirm := h.confirm hliving hasked fun call hmem hwaits => hnext call hmem hwaits hliving
    have hconfirmed : (s.confirm fromSeq).entry.terminal = none :=
      (confirm_frame s fromSeq).2.2.2.2.1.trans hliving
    have hfirst := hconfirm.ring.first
    have hlog := hconfirm.ring.log
    have hring := hconfirm.ring.ring hconfirmed
    have hempty : (s.confirm fromSeq).entry.pending = [] := by
      cases hpending : (s.confirm fromSeq).entry.pending with
      | nil => rfl
      | cons slot rest =>
        obtain ⟨seq, buf⟩ := slot
        rw [hpending] at hring
        have hslot := hring.head.1
        have hfrom : seq = fromSeq := by omega
        exact absurd (hfrom ▸ hpending) (hhead buf rest)
    refine ⟨hconfirm, rfl, hconfirmed, hseq, hempty, ?_⟩
    rw [hempty] at hring
    have hlength := hring.length_le
    rw [← not_eq_true]
    exact fun heof => hgoes ⟨heof, by omega⟩

theorem decideReady_pulls (hdecide : s.decideReady config fromSeq = (answer, t)) :
    (t.pulls = s.pulls ∨ t.pulls = s.pulls.map PullCall.wake) ∧
      t.entry.pullInFlight = s.entry.pullInFlight := by
  have hframe := confirm_frame s fromSeq
  cases decides_as hdecide with
  | replay =>
    obtain ⟨record, heq⟩ := terminalReplay_frame config s s.entry.keyId
    rw [heq]
    exact ⟨.inl rfl, rfl⟩
  | summary hliving =>
    rw [applyTerminal_of_living (by exact hframe.2.2.2.2.1.trans hliving)]
    refine ⟨.inr ?_, hframe.2.2.2.2.2.2.2.2⟩
    show (s.confirm fromSeq).pulls.map PullCall.wake = _
    rw [hframe.1]
  | _ => exact ⟨.inl hframe.1, hframe.2.2.2.2.2.2.2.2⟩

theorem decideReady_call (hdecide : s.decideReady config fromSeq = (answer, t))
    (hcall : s.pulls[k]? = some call) :
    ∃ call', t.pulls[k]? = some call' ∧ call'.fromSeq = call.fromSeq ∧
      call'.occupies = call.occupies := by
  rcases (decideReady_pulls hdecide).1 with heq | heq
  · exact ⟨call, heq ▸ hcall, rfl, rfl⟩
  · refine ⟨call.wake, ?_, call.wake_fromSeq, call.wake_occupies⟩
    rw [heq, getElem?_map, hcall]
    rfl

theorem RelayInv.answerPull (h : RelayInv config s) (hcall : s.pulls[k]? = some call')
    (hseq : call'.fromSeq = call.fromSeq) :
    RelayInv config (s.setPull k call (.releasing answer)) :=
  h.movePull hcall hseq.symm nofun nofun

theorem SingleFlight.no_waits (h : SingleFlight s) (hfree : s.entry.pullInFlight = false) :
    ∀ call ∈ s.pulls, ¬ call.waits := by
  intro call hmem
  rw [SingleFlight, hfree, if_neg (by decide), countP_eq_zero] at h
  have hnone := h call hmem
  obtain ⟨seq, keyId, signalled, phase⟩ := call
  cases phase <;> first | exact fun _ => hnone rfl | nofun

theorem RelayInv.pullSummary (h : RelayInv config s) (fromSeq : Int) (keyId : String) :
    RelayInv config (s.pullSummary config fromSeq keyId) := by
  rw [ResponseState.pullSummary]
  split
  · exact h.addPull rfl
  · split
    · exact h.addPull rfl
    · have hadded : RelayInv config { (s.terminalReplay config keyId).2 with
          pulls := ⟨fromSeq, keyId, false, .replayed (s.terminalReplay config keyId).1⟩ ::
            (s.terminalReplay config keyId).2.pulls } := (h.terminalReplay keyId).1.addPull rfl
      exact ⟨hadded.ring, { hadded.wait with }, { hadded.answer with }⟩

theorem pullSummary_entry (config : ResponseConfig) (s : ResponseState) (fromSeq : Int)
    (keyId : String) : (s.pullSummary config fromSeq keyId).entry = s.entry := by
  rw [ResponseState.pullSummary]
  split
  · rfl
  · split
    · rfl
    · exact terminalReplay_entry config s keyId

theorem RelayInv.replay (h : RelayInv config s) (fromSeq : Int) (keyId : String) :
    RelayInv config (s.decided (s.summaryAnswer config keyId)
      (s.pullSummary config fromSeq keyId)) := by
  obtain ⟨-, hpiece, -, hsummary⟩ := h.terminalReplay keyId
  refine (h.pullSummary fromSeq keyId).addDecision ?_ ?_
  · show ∀ seq body fin, s.summaryAnswer config keyId ≠ .piece seq body fin
    rw [ResponseState.summaryAnswer]
    split
    · simp
    · exact hpiece
  · show ∀ seq head, s.summaryAnswer config keyId = .summary seq head → _
    rw [ResponseState.summaryAnswer, pullSummary_entry]
    split
    · simp
    · exact hsummary

theorem RelayInv.cancelSummary (keyId : String) (h : RelayInv config s) :
    RelayInv config (s.cancelSummary config keyId).2 ∧
      (∀ seq body fin, (s.cancelSummary config keyId).1 ≠ .piece seq body fin) ∧
      ∀ seq head, (s.cancelSummary config keyId).1 ≠ .summary seq head := by
  rw [ResponseState.cancelSummary]
  split
  · exact ⟨h, by simp, by simp⟩
  · split
    · exact ⟨h, by simp, by simp⟩
    · split
      · exact ⟨h.expireSummary, by simp, by simp⟩
      · refine ⟨h.touchSummary, ?_, ?_⟩
        · simp only
          split <;> simp
        · simp only
          split <;> simp

theorem RelayInv.asks_next (h : RelayInv config s) (hcall : s.pulls[k]? = some call)
    (hphase : call.phase = .second false) :
    ∀ c ∈ s.pulls, c.waits → s.entry.terminal = none →
      call.fromSeq = s.entry.committedSeq + 1 :=
  fun _ _ _ => h.wait.next call (mem_of_getElem? hcall) (by rw [PullCall.waits, hphase])

/-- **Each step keeps the invariant.** -/
theorem RelayInv.step (h : RelayInv config s) (hsingle : SingleFlight s)
    (hstep : s.step config l = some s') : RelayInv config s' := by
  cases relay_step_as hstep with
  | idle => exact h
  | tick | cancel => exact ⟨h.ring, { h.wait with }, { h.answer with }⟩
  | head => exact ⟨{ h.ring with }, { h.wait with }, { h.answer with }⟩
  | chunk htry => exact h.tryChunk htry
  | chunkWaits htry =>
    refine h.setChunks fun call hmem => ?_
    rcases mem_cons.mp hmem with heq | hmem
    · exact .inr (heq ▸ htry)
    · exact .inl hmem
  | rechunk i htry =>
    refine RelayInv.tryChunk (h.setChunks fun call hmem => .inl ?_) htry
    exact mem_of_mem_eraseIdx hmem
  | rechunkWaits i htry =>
    refine h.setChunks fun call hmem => ?_
    rcases mem_or_eq_of_mem_set hmem with hmem | heq
    · exact .inl hmem
    · have hfacts := tryChunk_eq_none.mp htry
      exact .inr (heq ▸ tryChunk_eq_none.mpr hfacts)
  | endOfBody hliving => exact h.endOfBody hliving
  | drop => exact h.dropEntry
  | terminate _ terminal hkind => exact h.applyTerminal _ fun hdone => absurd hdone hkind
  | arrive hwaits => exact h.addPull hwaits
  | replay fromSeq keyId =>
    split
    · exact h.replay fromSeq keyId
    · exact h.pullSummary fromSeq keyId
  | busy hcall =>
    refine RelayInv.addDecision (s := s.setPull _ _ _) ?_ (by simp) (by simp)
    exact h.movePull hcall rfl nofun nofun
  | firstDecided hcall hqueued hfree hdecide =>
    obtain ⟨call', hcall', hseq, -⟩ := decideReady_call hdecide hcall
    have hdecided := (h.setFlight (b := true)).decideReady
      (d := ⟨s.entry, s.record, s.now, _⟩) ⟨_, mem_of_getElem? hcall, rfl⟩
      (fun c hmem hwaits => absurd hwaits (hsingle.no_waits hfree c hmem)) hdecide rfl
    exact hdecided.answerPull hcall' hseq
  | hold hcall hqueued hfree hdecide =>
    obtain ⟨call', hcall', hseq, -⟩ := decideReady_call hdecide hcall
    obtain ⟨hinv, -, hliving, hfrom, hempty, hgoes⟩ := (h.setFlight (b := true)).decideReady_none
      ⟨_, mem_of_getElem? hcall, rfl⟩
      (fun c hmem hwaits => absurd hwaits (hsingle.no_waits hfree c hmem)) hdecide
    exact hinv.movePull hcall' hseq.symm (fun _ _ => hfrom) fun _ _ => ⟨hliving, hempty, hgoes⟩
  | move _ hcall hmove =>
    have hmem := mem_of_getElem? hcall
    refine h.movePull hcall hmove.fromSeq ?_ ?_
    · exact fun hwaits => hmove.fromSeq ▸ h.wait.next _ hmem (hmove.waits hwaits)
    · exact fun aborted hasleep => h.wait.pulls _ hmem aborted (hmove.asleep aborted hasleep)
  | secondDecided hcall hphase hdecide =>
    obtain ⟨call', hcall', hseq, -⟩ := decideReady_call hdecide hcall
    have hdecided := h.decideReady (d := ⟨s.entry, s.record, s.now, _⟩)
      ⟨_, mem_of_getElem? hcall, rfl⟩ (h.asks_next hcall hphase) hdecide rfl
    exact hdecided.answerPull hcall' hseq
  | holdOver t hcall hphase hdecide =>
    obtain ⟨call', hcall', hseq, -⟩ := decideReady_call hdecide hcall
    obtain ⟨hinv, -⟩ := h.decideReady_none ⟨_, mem_of_getElem? hcall, rfl⟩
      (h.asks_next hcall hphase) hdecide
    have hdecided := hinv.addDecision (by simp) (by simp)
      (d := ⟨s.entry, s.record, s.now, .hold (t.entry.committedSeq + 1)⟩)
    exact hdecided.answerPull hcall' hseq
  | release call answer hcall =>
    exact RelayInv.movePull (h.setFlight (b := false)) hcall rfl nofun nofun
  | releaseReplay call answer hcall =>
    have hmoved : RelayInv config (s.setPull _ call (.answered (some answer))) :=
      h.movePull hcall rfl nofun nofun
    exact ⟨hmoved.ring, { hmoved.wait with }, { hmoved.answer with }⟩
  | cancelReplay keyId hended ht =>
    obtain ⟨hinv, hpiece, hsummary⟩ := h.cancelSummary keyId
    have hadded : RelayInv config { (s.cancelSummary config keyId).2 with
        cancels := .answered (s.cancelSummary config keyId).1 ::
          (s.cancelSummary config keyId).2.cancels } :=
      ⟨hinv.ring, { hinv.wait with }, { hinv.answer with }⟩
    subst ht
    split
    · exact hadded.addDecision hpiece fun seq head hanswer => absurd hanswer (hsummary seq head)
    · exact hadded
  | cancelLocked hqueued ht =>
    have hcancelled := h.applyTerminal ⟨.cancelled, "", ""⟩ nofun
    subst ht
    refine RelayInv.addDecision ?_ (by simp) (by simp)
    exact ⟨hcancelled.ring, { hcancelled.wait with }, { hcancelled.answer with }⟩
  | sweep =>
    have hswept := h.expireSummary
    exact ⟨hswept.ring, { hswept.wait with }, { hswept.answer with }⟩
  | expire =>
    have hcleared : RelayInv config { s with expiring := false } :=
      ⟨h.ring, { h.wait with }, { h.answer with }⟩
    exact hcleared.applyTerminal _ nofun
  | evict => exact h.setRecord nofun

/-! ## The single flight -/

theorem countP_set_pull (p : PullCall → Bool) {pulls : List PullCall} (call' : PullCall)
    (hcall : pulls[k]? = some call) :
    (pulls.set k call').countP p + (if p call then 1 else 0) =
      pulls.countP p + (if p call' then 1 else 0) := by
  obtain ⟨hk, hget⟩ := List.getElem?_eq_some_iff.mp hcall
  have hset := countP_set (p := p) (a := call') hk
  rw [hget] at hset
  have hpos : (if p call then 1 else 0) ≤ pulls.countP p := by
    split
    · next hp => exact countP_pos_iff.mpr ⟨call, mem_of_getElem? hcall, hp⟩
    · exact Nat.zero_le _
  omega

theorem SingleFlight.movePull (h : SingleFlight s) (hpulls : t.pulls = s.pulls.set k call')
    (hcall : s.pulls[k]? = some call) (hflight : t.entry.pullInFlight = b)
    (hplace : (if s.entry.pullInFlight then 1 else 0) + (if call'.occupies then 1 else 0) = (if b then 1 else 0) + (if call.occupies then 1 else 0)) :
    SingleFlight t := by
  have hset := countP_set_pull PullCall.occupies call' hcall
  rw [SingleFlight] at h ⊢
  rw [hpulls, hflight]
  omega

theorem SingleFlight.of_pulls (h : SingleFlight s)
    (hpulls : t.pulls = s.pulls ∨ t.pulls = s.pulls.map PullCall.wake)
    (hflight : t.entry.pullInFlight = s.entry.pullInFlight) : SingleFlight t := by
  rw [SingleFlight] at h ⊢
  rw [hflight, ← h]
  rcases hpulls with heq | heq
  · rw [heq]
  · rw [heq, countP_wake PullCall.wake_occupies]

theorem SingleFlight.addPull (h : SingleFlight s) (hpulls : t.pulls = call :: s.pulls)
    (hocc : call.occupies = false) (hflight : t.entry.pullInFlight = s.entry.pullInFlight) :
    SingleFlight t := by
  rw [SingleFlight] at h ⊢
  rw [hpulls, hflight, countP_cons, hocc, ← h]
  rfl

theorem SingleFlight.applyTerminal (terminal : Terminal) (h : SingleFlight s) :
    SingleFlight (s.applyTerminal config terminal) := by
  rw [ResponseState.applyTerminal]
  split
  · exact h
  · exact h.of_pulls (.inr rfl) rfl

theorem SingleFlight.dropEntry (h : SingleFlight s) : SingleFlight s.dropEntry := by
  rw [ResponseState.dropEntry]
  split
  · exact h
  · exact h.of_pulls (.inr rfl) rfl

theorem SingleFlight.tryChunk (h : SingleFlight s) (htry : s.tryChunk config piece = some t) :
    SingleFlight t := by
  rcases tryChunk_eq_some htry with heq | ⟨-, -, -, heq⟩
  · exact heq ▸ h
  · subst heq
    exact h.of_pulls (.inr rfl) rfl

theorem SingleFlight.taken (h : SingleFlight s) (hcall : s.pulls[k]? = some call)
    (hocc : call.occupies = true) : s.entry.pullInFlight = true := by
  by_contra hfree
  rw [SingleFlight, if_neg hfree, countP_eq_zero] at h
  exact h call (mem_of_getElem? hcall) hocc

theorem SingleFlight.keepPlace (h : SingleFlight s) (hpulls : t.pulls = s.pulls.set k call')
    (hcall : s.pulls[k]? = some call) (hflight : t.entry.pullInFlight = s.entry.pullInFlight)
    (hocc : call'.occupies = call.occupies) : SingleFlight t :=
  h.movePull hpulls hcall hflight (by rw [hocc])

theorem SingleFlight.afterDecision
    (h : s.pulls.countP PullCall.occupies + (if call'.occupies then 1 else 0) = 1 + (if call.occupies then 1 else 0))
    (hflight : s.entry.pullInFlight = true) (hcall : s.pulls[k]? = some call)
    (hdecide : s.decideReady config fromSeq = (answer, t)) (hpulls : s'.pulls = t.pulls.set k call')
    (hflight' : s'.entry.pullInFlight = t.entry.pullInFlight) : SingleFlight s' := by
  obtain ⟨hwoken, hkept⟩ := decideReady_pulls hdecide
  obtain ⟨call'', hcall'', -, hocc⟩ := decideReady_call hdecide hcall
  have hset := countP_set_pull PullCall.occupies call' hcall''
  have hcount : t.pulls.countP PullCall.occupies = s.pulls.countP PullCall.occupies := by
    rcases hwoken with heq | heq
    · rw [heq]
    · rw [heq, countP_wake PullCall.wake_occupies]
  rw [SingleFlight, hpulls, hflight', hkept, hflight, if_pos rfl]
  rw [hocc, hcount] at hset
  omega

theorem SingleFlight.begin (h : SingleFlight s) (hcall : s.pulls[k]? = some call)
    (hqueued : call.phase = .queued) (hfree : s.entry.pullInFlight = false)
    (hdecide : { s with entry := { s.entry with pullInFlight := true } }.decideReady config fromSeq = (answer, t))
    (hpulls : s'.pulls = t.pulls.set k call')
    (hflight : s'.entry.pullInFlight = t.entry.pullInFlight) (hocc' : call'.occupies = true) :
    SingleFlight s' := by
  have hocc : call.occupies = false := by rw [PullCall.occupies, hqueued]
  rw [SingleFlight, hfree] at h
  refine .afterDecision (s := { s with entry := { s.entry with pullInFlight := true } }) ?_ rfl
    hcall hdecide hpulls hflight
  show s.pulls.countP PullCall.occupies + _ = _
  rw [h, hocc, hocc']
  rfl

theorem SingleFlight.second (h : SingleFlight s) (hcall : s.pulls[k]? = some call)
    (hphase : call.phase = .second false) (hdecide : s.decideReady config fromSeq = (answer, t))
    (hpulls : s'.pulls = t.pulls.set k call')
    (hflight : s'.entry.pullInFlight = t.entry.pullInFlight) (hocc' : call'.occupies = true) :
    SingleFlight s' := by
  have hocc : call.occupies = true := by rw [PullCall.occupies, hphase]
  have htaken := h.taken hcall hocc
  rw [SingleFlight, htaken, if_pos rfl] at h
  exact .afterDecision (by rw [h, hocc, hocc']) htaken hcall hdecide hpulls hflight

/-- **Each step keeps the flight.** -/
theorem SingleFlight.step (h : SingleFlight s) (hstep : s.step config l = some s') :
    SingleFlight s' := by
  cases relay_step_as hstep with
  | chunk htry => exact h.tryChunk htry
  | rechunk i htry => exact SingleFlight.tryChunk (s := { s with chunks := s.chunks.eraseIdx i }) h htry
  | endOfBody => exact h.of_pulls (.inr rfl) rfl
  | drop => exact h.dropEntry
  | terminate => exact h.applyTerminal _
  | arrive _ hoccupies => exact h.addPull rfl hoccupies rfl
  | replay fromSeq keyId =>
    have hsummary : SingleFlight (s.pullSummary config fromSeq keyId) := by
      rw [ResponseState.pullSummary]
      split
      · exact h.addPull rfl rfl rfl
      · split
        · exact h.addPull rfl rfl rfl
        · obtain ⟨record, heq⟩ := terminalReplay_frame config s keyId
          simp only [heq]
          exact h.addPull rfl rfl rfl
    split
    · exact hsummary
    · exact hsummary
  | busy hcall hqueued =>
    exact h.keepPlace rfl hcall rfl (by simp only [PullCall.occupies, hqueued])
  | firstDecided hcall hqueued hfree hdecide => exact h.begin hcall hqueued hfree hdecide rfl rfl rfl
  | hold hcall hqueued hfree hdecide => exact h.begin hcall hqueued hfree hdecide rfl rfl rfl
  | move _ hcall hmove => exact h.keepPlace rfl hcall rfl hmove.occupies
  | secondDecided hcall hphase hdecide => exact h.second hcall hphase hdecide rfl rfl rfl
  | holdOver t hcall hphase hdecide => exact h.second hcall hphase hdecide rfl rfl rfl
  | release call answer hcall hphase =>
    have hocc : call.occupies = true := by rw [PullCall.occupies, hphase]
    exact h.movePull rfl hcall rfl (by rw [h.taken hcall hocc, hocc]; rfl)
  | releaseReplay call answer hcall hphase =>
    exact h.keepPlace rfl hcall rfl (by simp only [PullCall.occupies, hphase])
  | cancelReplay keyId hended ht =>
    have hsummary : SingleFlight (s.cancelSummary config keyId).2 := by
      rw [ResponseState.cancelSummary]
      split
      · exact h
      · split
        · exact h
        · split <;> exact h
    subst ht
    split
    · exact hsummary
    · exact hsummary
  | cancelLocked hqueued ht =>
    subst ht
    exact h.applyTerminal ⟨.cancelled, "", ""⟩
  | expire => exact SingleFlight.applyTerminal (s := { s with expiring := false }) _ h
  | _ => exact h

/-! ## Delivery -/

theorem confirm_next (h : RelayInv config s) (hnext : fromSeq = s.entry.committedSeq + 1) :
    s.confirm fromSeq = s := by
  refine confirm_of_le ?_
  have horder := h.ring.order
  omega

theorem RelayInv.delivered (h : RelayInv config s) : RelayDelivery config s where
  order := h.ring.order
  bytes := h.ring.bytes
  limit := h.ring.limit
  ring := h.ring.ring
  pieces := h.answer.pieces
  served := h.answer.served
  confirmed := h.answer.confirmed
  summaries d hd seq head hanswer := (h.answer.summaries d hd seq head hanswer).2
  pullsSleep call hmem aborted hphase := by
    obtain ⟨hliving, hempty, hgoes⟩ := h.wait.pulls call hmem aborted hphase
    have hwaits : call.waits := by rw [PullCall.waits, hphase]
    have hnext := h.wait.next call hmem hwaits hliving
    have hconfirm := confirm_next h hnext
    cases hdecide : s.decideReady config call.fromSeq with
    | mk answer t =>
      cases decides_as hdecide with
      | replay hended => exact absurd hliving hended
      | conflict _ hother =>
        rw [hconfirm] at hother
        exact absurd hnext hother
      | piece _ _ _ hpending =>
        rw [hconfirm, hempty] at hpending
        cases hpending
      | summary _ _ heof =>
        rw [hconfirm, hgoes] at heof
        cases heof
      | hold => rfl
  chunksSleep call hmem hwoken := tryChunk_eq_none.mpr (h.wait.chunks call hmem hwoken)

structure CalmStep (s s' : ResponseState) : Prop where
  committed : s'.entry.committedSeq = s.entry.committedSeq
  served : s'.entry.servedSeq = s.entry.servedSeq
  produced : s.entry.producedSeq ≤ s'.entry.producedSeq
  keeps : s'.entry.terminal = none → ∀ slot ∈ s.entry.pending, slot ∈ s'.entry.pending
  rejects : s'.rejections ≤ s.rejections

theorem CalmStep.safe (h : CalmStep s s') : RelayStepSafe s s' l where
  committed := h.committed ▸ Int.le_refl _
  served := h.served ▸ Int.le_refl _
  produced := h.produced
  leaves hliving slot hmem hgone := absurd (h.keeps hliving slot hmem) hgone
  conflicts hlt := by
    have hle := h.rejects
    omega

theorem CalmStep.of_frame (hcommitted : t.entry.committedSeq = s.entry.committedSeq)
    (hserved : t.entry.servedSeq = s.entry.servedSeq)
    (hproduced : t.entry.producedSeq = s.entry.producedSeq)
    (hpending : t.entry.pending = s.entry.pending) (hrejects : t.rejections ≤ s.rejections) :
    CalmStep s t where
  committed := hcommitted
  served := hserved
  produced := Int.le_of_eq hproduced.symm
  keeps _ _ hmem := hpending ▸ hmem
  rejects := hrejects

theorem CalmStep.refl (s : ResponseState) : CalmStep s s :=
  .of_frame rfl rfl rfl rfl (Nat.le_refl _)

theorem rejections_wake (h : t.pulls = s.pulls.map PullCall.wake) :
    t.rejections = s.rejections := by
  rw [ResponseState.rejections, h, countP_wake PullCall.wake_rejected]
  rfl

theorem rejections_set (hcall : s.pulls[k]? = some call) (h : t.pulls = s.pulls.set k call') :
    t.rejections + (if call.rejected then 1 else 0) =
      s.rejections + (if call'.rejected then 1 else 0) := by
  rw [ResponseState.rejections, h]
  exact countP_set_pull PullCall.rejected call' hcall

theorem CalmStep.movePull (hcall : s.pulls[k]? = some call) (hpulls : t.pulls = s.pulls.set k call')
    (hentry : t.entry = s.entry) (hrejected : call'.rejected = call.rejected) : CalmStep s t := by
  refine .of_frame ?_ ?_ ?_ ?_ ?_
  · rw [hentry]
  · rw [hentry]
  · rw [hentry]
  · rw [hentry]
  · have hset := rejections_set hcall hpulls
    rw [hrejected] at hset
    omega

theorem CalmStep.terminate {n : Nat} :
    CalmStep s (ResponseState.wakeChunks (ResponseState.wakePulls { s with
      record
      entry := { s.entry with terminal := some terminal, pending := [], bufferBytes := 0 }
      onTerminals := n })) where
  committed := rfl
  served := rfl
  produced := Int.le_refl _
  keeps hliving := by cases hliving
  rejects := Nat.le_of_eq (rejections_wake rfl)

theorem CalmStep.applyTerminal : CalmStep s (s.applyTerminal config terminal) := by
  rw [ResponseState.applyTerminal]
  split
  · exact .refl s
  · exact .terminate

theorem CalmStep.dropEntry : CalmStep s s.dropEntry := by
  rw [ResponseState.dropEntry]
  split
  · exact .refl s
  · exact .terminate

theorem CalmStep.tryChunk (htry : s.tryChunk config piece = some t) : CalmStep s t := by
  rcases tryChunk_eq_some htry with heq | ⟨-, -, -, heq⟩
  · exact heq ▸ .refl s
  · subst heq
    exact {
      committed := rfl
      served := rfl
      produced := Int.le_add_of_nonneg_right (by decide)
      keeps := fun _ slot hmem => mem_append_left _ hmem
      rejects := Nat.le_of_eq (rejections_wake rfl) }

/-- **A decision**: what moves, what leaves, and that a conflict changes nothing. -/
structure DecisionSafe (s t : ResponseState) (fromSeq : Int) (answer : Option ResponseAnswer) :
    Prop where
  committed : s.entry.committedSeq ≤ t.entry.committedSeq
  served : s.entry.servedSeq ≤ t.entry.servedSeq
  produced : t.entry.producedSeq = s.entry.producedSeq
  leaves : t.entry.terminal = none → ∀ slot ∈ s.entry.pending, slot ∉ t.entry.pending →
    slot.1 ≤ s.entry.servedSeq ∧ slot.1 < fromSeq
  rejects : t.rejections = s.rejections
  conflicts : ∀ code, answer = some (.conflict code) → t = s

theorem confirm_leaves {slot : Int × Bytes} (hmem : slot ∈ s.entry.pending)
    (hgone : slot ∉ (s.confirm fromSeq).entry.pending) :
    slot.1 ≤ s.entry.servedSeq ∧ slot.1 < fromSeq := by
  by_cases hlt : s.entry.committedSeq < min (fromSeq - 1) s.entry.servedSeq
  · rw [confirm_of_lt hlt] at hgone
    have hle := mem_shiftPending _ hmem hgone
    omega
  · rw [confirm_of_le (by omega)] at hgone
    exact absurd hmem hgone

theorem RelayInv.decisionSafe (h : RelayInv config s)
    (hreach : ¬ (s.entry.terminal = none ∧ s.entry.committedSeq < s.entry.servedSeq ∧ s.entry.servedSeq < fromSeq - 1))
    (hdecide : s.decideReady config fromSeq = (answer, t)) : DecisionSafe s t fromSeq answer := by
  have hrejects : t.rejections = s.rejections := by
    rcases (decideReady_pulls hdecide).1 with heq | heq
    · rw [ResponseState.rejections, heq]
      rfl
    · exact rejections_wake heq
  have horder := h.ring.order
  have hclose := h.ring.close
  have hcommitted := confirm_committedSeq s fromSeq
  obtain ⟨-, -, -, -, hterminal, -, hserved, hproduced, -⟩ := confirm_frame s fromSeq
  cases decides_as hdecide with
  | replay hended =>
    obtain ⟨-, -, hconflict, -⟩ := h.terminalReplay s.entry.keyId
    have hentry := terminalReplay_entry config s s.entry.keyId
    exact {
      committed := by rw [hentry]
      served := by rw [hentry]
      produced := by rw [hentry]
      leaves := fun _ _ hmem hgone => by
        rw [hentry] at hgone
        exact absurd hmem hgone
      rejects := hrejects
      conflicts := fun code hcode => absurd (some.inj hcode) (hconflict code) }
  -- with nothing confirmed
  | conflict hliving hother =>
    have hconfirm : s.confirm fromSeq = s := by
      refine confirm_of_le ?_
      by_contra hlt
      exact hreach ⟨hliving, by omega, by omega⟩
    rw [hconfirm]
    exact {
      committed := Int.le_refl _
      served := Int.le_refl _
      produced := rfl
      leaves := fun _ _ hmem hgone => absurd hmem hgone
      rejects := rfl
      conflicts := fun _ _ => rfl }
  | piece hliving hseq =>
    exact {
      committed := by
        show _ ≤ (s.confirm fromSeq).entry.committedSeq
        omega
      served := by
        show _ ≤ fromSeq
        omega
      produced := hproduced
      leaves := fun _ slot hmem hgone => confirm_leaves hmem hgone
      rejects := hrejects
      conflicts := nofun }
  | summary hliving hseq heof hlast =>
    rw [applyTerminal_of_living (by exact hterminal.trans hliving)] at hrejects ⊢
    exact {
      committed := by
        show _ ≤ (s.confirm fromSeq).entry.producedSeq
        omega
      served := by
        show _ ≤ (s.confirm fromSeq).entry.servedSeq
        omega
      produced := hproduced
      leaves := nofun
      rejects := hrejects
      conflicts := nofun }
  | hold hliving hseq =>
    exact {
      committed := by omega
      served := by omega
      produced := hproduced
      leaves := fun _ slot hmem hgone => confirm_leaves hmem hgone
      rejects := hrejects
      conflicts := nofun }

theorem DecisionSafe.stepSafe (hl : l.pull? = some k) (hcall : s.pulls[k]? = some call)
    (hdecide : ({ s with entry := { s.entry with pullInFlight := b } } : ResponseState).decideReady config call.fromSeq = (answer, t))
    (h : DecisionSafe { s with entry := { s.entry with pullInFlight := b } } t call.fromSeq answer)
    (hentry : s'.entry = t.entry) (hrecord : s'.record = t.record)
    (hproduced : s'.produced = t.produced) (hchunks : s'.chunks = t.chunks)
    (hpulls : s'.pulls = t.pulls.set k call')
    (hrejected : call'.rejected = true → ∃ code, answer = some (.conflict code)) :
    RelayStepSafe s s' l where
  committed := hentry ▸ h.committed
  served := hentry ▸ h.served
  produced := by
    rw [hentry, h.produced]
  leaves hliving slot hmem hgone := by
    rw [hentry] at hliving hgone
    obtain ⟨hserved, hbeyond⟩ := h.leaves hliving slot hmem hgone
    exact ⟨hserved, k, hl, call, hcall, hbeyond⟩
  conflicts hlt := by
    obtain ⟨call'', hcall'', -, -⟩ := decideReady_call hdecide hcall
    have hset := rejections_set hcall'' hpulls
    have hsame : t.rejections = s.rejections := h.rejects
    have hnew : call'.rejected = true := by
      by_contra hnot
      rw [if_neg hnot] at hset
      omega
    obtain ⟨code, hcode⟩ := hrejected hnew
    have ht := h.conflicts code hcode
    rw [hrecord, hproduced, hchunks, hentry, ht]
    exact ⟨rfl, rfl, rfl, rfl⟩

theorem conflict_of_rejected {fromSeq : Int} {keyId : String} {signalled : Bool}
    (h : (⟨fromSeq, keyId, signalled, .releasing answer⟩ : PullCall).rejected = true) :
    ∃ code, answer = some (.conflict code) := by
  rw [PullCall.rejected] at h
  split at h
  · next code hphase =>
    cases hphase
    exact ⟨code, rfl⟩
  · next hphase => cases hphase
  · next hphase => cases hphase
  · cases h

theorem CalmStep.addPull (hpulls : t.pulls = call :: s.pulls) (hentry : t.entry = s.entry)
    (hrejected : call.rejected = false) : CalmStep s t := by
  refine .of_frame (by rw [hentry]) (by rw [hentry]) (by rw [hentry]) (by rw [hentry]) ?_
  rw [ResponseState.rejections, hpulls, countP_cons, hrejected]
  exact Nat.le_refl _

theorem RelayStepSafe.of_rejected (hentry : s'.entry = s.entry) (hrecord : s'.record = s.record)
    (hproduced : s'.produced = s.produced) (hchunks : s'.chunks = s.chunks) :
    RelayStepSafe s s' l where
  committed := hentry ▸ Int.le_refl _
  served := hentry ▸ Int.le_refl _
  produced := hentry ▸ Int.le_refl _
  leaves _ _ hmem hgone := absurd (hentry ▸ hmem) hgone
  conflicts _ := ⟨hrecord, hproduced, hchunks, by rw [hentry]⟩

theorem RelayInv.pullSummary_safe (h : RelayInv config s) (fromSeq : Int) (keyId : String) :
    RelayStepSafe s (s.pullSummary config fromSeq keyId) (.pull fromSeq keyId false) := by
  rw [ResponseState.pullSummary]
  split
  · exact CalmStep.safe (.addPull rfl rfl rfl)
  · split
    · exact .of_rejected rfl rfl rfl rfl
    · obtain ⟨record, heq⟩ := terminalReplay_frame config s keyId
      obtain ⟨-, -, hconflict, -⟩ := h.terminalReplay keyId
      simp only [heq]
      refine CalmStep.safe (.addPull rfl rfl ?_)
      cases hanswer : (s.terminalReplay config keyId).1 with
      | conflict code => exact absurd hanswer (hconflict code)
      | _ => rfl

theorem PullCall.rejected_answered
    (hphase : call.phase = .releasing answer ∨ ∃ a, answer = some a ∧ call.phase = .replayed a) :
    ({ call with phase := .answered answer } : PullCall).rejected = call.rejected := by
  rcases hphase with hphase | ⟨a, ha, hphase⟩
  · simp only [PullCall.rejected, hphase]
    cases answer with
    | none => rfl
    | some a => cases a <;> rfl
  · subst ha
    simp only [PullCall.rejected, hphase]
    cases a <;> rfl

theorem RelayInv.within (h : RelayInv config s) (hcall : s.pulls[k]? = some call)
    (hphase : call.phase = .second false) :
    ¬ (s.entry.terminal = none ∧ s.entry.committedSeq < s.entry.servedSeq ∧
      s.entry.servedSeq < call.fromSeq - 1) := by
  intro hover
  have hnext := h.asks_next hcall hphase call (mem_of_getElem? hcall)
    (by rw [PullCall.waits, hphase]) hover.1
  omega

/-- **Each step is safe.** -/
theorem RelayInv.step_safe (h : RelayInv config s) (hreach : InReach s l)
    (hstep : s.step config l = some s') : RelayStepSafe s s' l := by
  cases relay_step_as hstep with
  | idle => exact (CalmStep.refl s).safe
  | chunk htry => exact (CalmStep.tryChunk htry).safe
  | rechunk i htry =>
    have hcalm := CalmStep.tryChunk htry
    exact CalmStep.safe ⟨hcalm.committed, hcalm.served, hcalm.produced, hcalm.keeps, hcalm.rejects⟩
  | endOfBody =>
    exact CalmStep.safe (.of_frame rfl rfl rfl rfl (Nat.le_of_eq (rejections_wake rfl)))
  | drop => exact CalmStep.dropEntry.safe
  | terminate => exact CalmStep.applyTerminal.safe
  | arrive _ _ hrejected => exact CalmStep.safe (.addPull rfl rfl hrejected)
  | replay fromSeq keyId =>
    have hsummary := h.pullSummary_safe fromSeq keyId
    split
    · exact ⟨hsummary.committed, hsummary.served, hsummary.produced, hsummary.leaves,
        hsummary.conflicts⟩
    · exact hsummary
  | busy => exact .of_rejected rfl rfl rfl rfl
  | firstDecided hcall hqueued hfree hdecide =>
    have hwithin : ¬ (s.entry.terminal = none ∧ s.entry.committedSeq < s.entry.servedSeq ∧ _) :=
      fun hover => hreach _ hcall ⟨hover.1, hfree, hover.2⟩
    exact ((h.setFlight (b := true)).decisionSafe hwithin hdecide).stepSafe rfl hcall hdecide
      rfl rfl rfl rfl rfl conflict_of_rejected
  | hold hcall hqueued hfree hdecide =>
    have hwithin : ¬ (s.entry.terminal = none ∧ s.entry.committedSeq < s.entry.servedSeq ∧ _) :=
      fun hover => hreach _ hcall ⟨hover.1, hfree, hover.2⟩
    exact ((h.setFlight (b := true)).decisionSafe hwithin hdecide).stepSafe rfl hcall hdecide
      rfl rfl rfl rfl rfl nofun
  | move _ hcall hmove => exact CalmStep.safe (.movePull hcall rfl rfl hmove.rejected)
  | secondDecided hcall hphase hdecide =>
    exact (h.decisionSafe (h.within hcall hphase) hdecide).stepSafe rfl hcall hdecide
      rfl rfl rfl rfl rfl conflict_of_rejected
  | holdOver t hcall hphase hdecide =>
    exact (h.decisionSafe (h.within hcall hphase) hdecide).stepSafe rfl hcall hdecide
      rfl rfl rfl rfl rfl nofun
  | release call answer hcall hphase =>
    have hset := rejections_set (t := s.setPull _ call (.answered answer)) hcall rfl
    rw [PullCall.rejected_answered (.inl hphase)] at hset
    exact CalmStep.safe (.of_frame rfl rfl rfl rfl (Nat.le_of_add_le_add_right hset.le))
  | releaseReplay call answer hcall hphase =>
    have hset := rejections_set (t := s.setPull _ call (.answered (some answer))) hcall rfl
    rw [PullCall.rejected_answered (.inr ⟨answer, rfl, hphase⟩)] at hset
    exact CalmStep.safe (.of_frame rfl rfl rfl rfl (Nat.le_of_add_le_add_right hset.le))
  | cancelReplay keyId hended ht =>
    have hcalm : CalmStep s (s.cancelSummary config keyId).2 := by
      rw [ResponseState.cancelSummary]
      split
      · exact .refl s
      · split
        · exact .refl s
        · split <;> exact .of_frame rfl rfl rfl rfl (Nat.le_refl _)
    subst ht
    split <;> exact CalmStep.safe
      ⟨hcalm.committed, hcalm.served, hcalm.produced, hcalm.keeps, hcalm.rejects⟩
  | cancelLocked hqueued ht =>
    have hcalm : CalmStep s (s.applyTerminal config ⟨.cancelled, "", ""⟩) := .applyTerminal
    subst ht
    exact CalmStep.safe ⟨hcalm.committed, hcalm.served, hcalm.produced, hcalm.keeps, hcalm.rejects⟩
  | expire =>
    have hcalm : CalmStep { s with expiring := false }
      (ResponseState.applyTerminal config { s with expiring := false } ⟨.expired, "", ""⟩) :=
      .applyTerminal
    exact CalmStep.safe ⟨hcalm.committed, hcalm.served, hcalm.produced, hcalm.keeps, hcalm.rejects⟩
  | _ => exact CalmStep.safe (.of_frame rfl rfl rfl rfl (Nat.le_refl _))

theorem RelayInv.init (h : (responseMachine config).init s) :
    RelayInv config s ∧ SingleFlight s := by
  obtain ⟨hcommitted, hproduced, hserved, hpending, hbytes, heof, hliving, hflight, hrecord, -, -,
    hpulls, hchunks, -, hlog, -, hdecisions⟩ := h
  have hring : RingInv config s.entry s.produced := {
    first := by omega
    order := by omega
    close := by omega
    log := by
      rw [hlog, hproduced]
      rfl
    ring := fun _ => by
      rw [hlog, hpending]
      exact .nil (Nat.zero_le _)
    cleared := fun _ => hpending
    bytes := by
      rw [hbytes, hpending]
      rfl
    limit := hbytes ▸ Nat.zero_le _ }
  refine ⟨⟨hring, ?_, ?_⟩, ?_⟩
  · exact {
      next := fun call hmem => by simp [hpulls] at hmem
      pulls := fun call hmem => by simp [hpulls] at hmem
      chunks := fun call hmem => by simp [hchunks] at hmem }
  · exact {
      pieces := fun d hd => by simp [hdecisions] at hd
      served := fun seq hle => by omega
      confirmed := fun seq hle => by omega
      summaries := fun d hd => by simp [hdecisions] at hd
      record := fun r hr => by simp [hrecord] at hr }
  · rw [SingleFlight, hpulls, hflight]
    rfl

/-- **Delivery by the relay**, in every interleaving in which pulls are in reach: in each state,
and over each step. -/
theorem relay_delivers (config : ResponseConfig) (s : ResponseState)
    (h : (responseMachine config).ReachableUnder InReach s) :
    RelayDelivery config s ∧ ∀ l s', InReach s l → s.step config l = some s' →
      RelayStepSafe s s' l := by
  have hinv : RelayInv config s ∧ SingleFlight s :=
    h.invariant (I := fun s => RelayInv config s ∧ SingleFlight s) (fun _ => RelayInv.init)
      fun _ _ _ hinv _ hstep => ⟨hinv.1.step hinv.2 hstep, hinv.2.step hstep⟩
  exact ⟨hinv.1.delivered, fun l s' hreach hstep => hinv.1.step_safe hreach hstep⟩

end

/-! ## Runs of a small ring -/

namespace SampleRelay

def config : ResponseConfig where
  perRidBufferBytes := 2
  idleTtlMs := 600
  absoluteLifetimeMs := 3600

def start : ResponseState where
  now := 0
  entry := {
    keyId := "k"
    createdAt := 0
    lastActivityAt := 0
    committedSeq := -1
    producedSeq := -1
    servedSeq := -1
    pending := []
    bufferBytes := 0
    eof := false
    head := none
    terminal := none
    pullInFlight := false }
  record := none
  replayInFlight := false
  expiring := false
  pulls := []
  chunks := []
  cancels := []
  produced := []
  onTerminals := 0
  decisions := []

theorem init_start : (responseMachine config).init start := by
  refine ⟨rfl, rfl, rfl, rfl, rfl, rfl, rfl, rfl, rfl, rfl, rfl, rfl, rfl, rfl, rfl, rfl, rfl⟩

theorem retried_and_held : ∃ s,
    (RelayDelivery config s ∧ ∀ l s', InReach s l → s.step config l = some s' →
      RelayStepSafe s s' l) ∧
    s.decisions.map (·.answer) =
      [.summary 1 none, .piece 1 [8] false, .piece 0 [7] false, .piece 0 [7] false] := by
  have hrun : ((responseMachine config).runUnder InReach start
      [.chunk [7], .pull 0 "k" false, .first 0, .release 0, .pull 0 "k" false, .first 0, .release 0,
        .pull 1 "k" false, .first 0, .chunk [8], .resume 0, .second 0, .release 0, .endOfBody,
        .pull 2 "k" false, .first 0, .release 0]).any
      (fun s => s.decisions.map (·.answer) =
        [.summary 1 none, .piece 1 [8] false, .piece 0 [7] false, .piece 0 [7] false]) =
        true := by decide
  obtain ⟨s, hreach, hs⟩ := Machine.exists_reachableUnder init_start hrun
  exact ⟨s, relay_delivers config s hreach, by simpa using hs⟩

/-- **A pull that is rejected** confirms the piece before it: the piece leaves the ring, and a
retry of it is rejected too. -/
theorem conflict_confirms : ∃ s s',
    (responseMachine config).Reachable s ∧ s.step config (.first 0) = some s' ∧
    ¬ RelayStepSafe s s' (.first 0) ∧
    s'.rejections = 1 ∧ s.entry.committedSeq = -1 ∧ s'.entry.committedSeq = 0 ∧
    (0, [7]) ∈ s.entry.pending ∧ (0, [7]) ∉ s'.entry.pending ∧
    (s'.decideReady config 0).1 = some (.conflict .invalid_from_seq) := by
  have hrun : ((responseMachine config).runUnder (fun _ _ => True) start
      [.chunk [7], .chunk [8], .pull 0 "k" false, .first 0, .release 0, .pull 5 "k" false]).any
      (fun s => s.rejections = 0 && s.entry.committedSeq = -1 && (0, [7]) ∈ s.entry.pending &&
        (s.step config (.first 0)).any fun s' =>
          s'.rejections = 1 && s'.entry.committedSeq = 0 && (0, [7]) ∉ s'.entry.pending &&
            (s'.decideReady config 0).1 = some (.conflict .invalid_from_seq)) = true := by decide
  obtain ⟨s, hreach, hs⟩ := Machine.exists_reachableUnder init_start hrun
  simp only [and_eq_true, decide_eq_true_eq, Option.any_eq_true] at hs
  obtain ⟨⟨⟨hnone, hcommitted⟩, hmem⟩, s', hstep, ⟨⟨hrejected, hmoved⟩, hgone⟩, hretry⟩ := hs
  refine ⟨s, s', hreach, hstep, fun hsafe => ?_, hrejected, hcommitted, hmoved, hmem, hgone, hretry⟩
  obtain ⟨-, -, -, hentry⟩ := hsafe.conflicts (by omega)
  have hsame : s'.entry.committedSeq = s.entry.committedSeq := congrArg (·.committedSeq) hentry
  omega

end SampleRelay

end Dweb
