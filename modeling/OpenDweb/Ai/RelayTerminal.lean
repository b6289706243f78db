import OpenDweb.Ai.RelayDelivery

/-!
# OpenDweb — the terminal of a response

* **`Terminal.ReportedBy`** — the answers that tell a terminal; **`ResponseDecision.Truthful`** — a
  decision made after it tells it, or that the record is over.
* **`TerminalOnce`** — one terminal, one call of `onTerminal`, all woken, all answers truthful;
  **`ResponseEntry.FrozenTo`** — the entry does not change behind it.
* **`Exclusive`** — no cancel comes to the lock behind another terminal, and no two pulls meet there
  behind any.
* **`terminal_exclusive`** — then this holds, in every interleaving.
* **`SampleTerminal.cancelled_when_done`** — a cancel that waited for the lock is told `cancelled`
  of a response that is done.
-/

namespace Dweb

/-! ## What is to hold -/

/-- The answers that tell a terminal; a summary has what the upstream gave. -/
def Terminal.ReportedBy (terminal : Terminal) (entry : ResponseEntry) : ResponseAnswer → Prop
  | .summary committedSeq head =>
    terminal.kind = .done ∧ committedSeq = entry.producedSeq ∧ head = entry.head
  | .status kind => terminal.kind = kind
  | .notFound => terminal.kind = .cancelled
  | .expired => terminal.kind = .expired
  | .failed code message =>
    terminal.kind = .error ∧ terminal.code = code ∧ terminal.message = message
  | .piece _ _ _ | .hold _ | .conflict _ => False

def ResponseRecord.Over (record : ResponseRecord) (now : Nat) : Prop :=
  record.isDue now = true ∨ record.expiresAt = none

/-- A decision behind the terminal tells it, or that the record is over or gone. -/
def ResponseDecision.Truthful (d : ResponseDecision) : Prop :=
  ∀ terminal, d.entry.terminal = some terminal →
    terminal.ReportedBy d.entry d.answer ∨
    (d.answer = .expired ∧ ∃ record, d.record = some record ∧ record.Over d.now) ∨
    (d.answer = .notFound ∧ d.record = none)

/-- **One terminal**, in a state. -/
structure TerminalOnce (s : ResponseState) : Prop where
  once : s.onTerminals = if s.entry.terminal = none then 0 else 1
  pulls : s.entry.terminal ≠ none → ∀ call ∈ s.pulls, ∀ aborted, call.phase ≠ .held false aborted
  chunks : s.entry.terminal ≠ none → ∀ call ∈ s.chunks, call.woken = true
  answers : ∀ d ∈ s.decisions, d.Truthful

/-- The cursors, the ring and all else are as they were; a pull may give the flight free. -/
def ResponseEntry.FrozenTo (entry entry' : ResponseEntry) : Prop :=
  ∃ b, entry' = { entry with pullInFlight := b }

/-- **The condition on a step.** -/
def Exclusive (s : ResponseState) : ResponseLabel → Prop
  | .cancelLocked c => s.cancels[c]? = some .queued → ∀ terminal ∈ s.entry.terminal,
    terminal.kind = .cancelled
  | .first _ => s.entry.terminal ≠ none → s.entry.pullInFlight = false
  | .pull _ keyId _ => s.entry.terminal ≠ none → s.entry.keyId = keyId → s.replayInFlight = false
  | _ => True

instance Exclusive.decidable (s : ResponseState) : (l : ResponseLabel) → Decidable (Exclusive s l)
  | .cancelLocked c => inferInstanceAs (Decidable (s.cancels[c]? = some .queued →
      ∀ terminal ∈ s.entry.terminal, terminal.kind = .cancelled))
  | .first _ => inferInstanceAs (Decidable (s.entry.terminal ≠ none →
      s.entry.pullInFlight = false))
  | .pull _ keyId _ => inferInstanceAs (Decidable (s.entry.terminal ≠ none →
      s.entry.keyId = keyId → s.replayInFlight = false))
  | .tick _ | .setMeta _ | .chunk _ | .rechunk _ | .endOfBody | .error _ _ | .abortLocal
  | .signal _ | .timeout _ | .resume _ | .second _ | .release _ | .cancel _ | .sweep | .expire
  | .drain | .close _ _ | .evict => isTrue trivial

/-! ## The record -/

/-- A record is that of the terminal, or its tombstone. -/
def ResponseRecord.Of (record : ResponseRecord) (entry : ResponseEntry) : Prop :=
  ∃ terminal, entry.terminal = some terminal ∧ record.keyId = entry.keyId ∧
    (record.terminal = terminal ∧ record.expiresAt ≠ none ∧
      record.committedSeq = entry.producedSeq ∧ record.head = entry.head ∨
    record.terminal.kind = .expired ∧ record.expiresAt = none)

structure EndedInv (s : ResponseState) : Prop where
  once : s.onTerminals = if s.entry.terminal = none then 0 else 1
  record : ∀ record, s.record = some record → record.Of s.entry
  answers : ∀ d ∈ s.decisions, d.Truthful

section

variable {config : ResponseConfig} {s s' t : ResponseState} {fromSeq : Int} {k : Nat}

theorem EndedInv.of_same (h : EndedInv s) (hterminal : t.entry.terminal = s.entry.terminal)
    (hkey : t.entry.keyId = s.entry.keyId)
    (hfrozen : s.entry.terminal ≠ none →
      t.entry.producedSeq = s.entry.producedSeq ∧ t.entry.head = s.entry.head)
    (hrecord : t.record = s.record) (honce : t.onTerminals = s.onTerminals)
    (hdecisions : t.decisions = s.decisions) : EndedInv t where
  once := by
    rw [honce, hterminal]
    exact h.once
  record record hr := by
    rw [hrecord] at hr
    obtain ⟨terminal, hsome, howner, hcases⟩ := h.record record hr
    obtain ⟨hproduced, hhead⟩ := hfrozen (by rw [hsome]; exact nofun)
    refine ⟨terminal, hterminal.trans hsome, howner.trans hkey.symm, ?_⟩
    rw [hproduced, hhead]
    exact hcases
  answers := by
    rw [hdecisions]
    exact h.answers

theorem EndedInv.addDecision {d : ResponseDecision} (h : EndedInv s) (hd : d.Truthful) :
    EndedInv { s with decisions := d :: s.decisions } where
  once := h.once
  record := h.record
  answers d' hmem := by
    rcases List.mem_cons.mp hmem with heq | hmem
    · exact heq ▸ hd
    · exact h.answers d' hmem

theorem ResponseDecision.Truthful.of_living {d : ResponseDecision} (h : d.entry.terminal = none) :
    d.Truthful := by
  intro terminal hsome
  rw [h] at hsome
  cases hsome

theorem EndedInv.record_none (h : EndedInv s) (hliving : s.entry.terminal = none) :
    s.record = none := by
  cases hrecord : s.record with
  | none => rfl
  | some record =>
    obtain ⟨terminal, hsome, -⟩ := h.record record hrecord
    rw [hliving] at hsome
    cases hsome

theorem EndedInv.applyTerminal (terminal : Terminal) (h : EndedInv s) :
    EndedInv (s.applyTerminal config terminal) := by
  by_cases hliving : s.entry.terminal = none
  · rw [applyTerminal_of_living hliving]
    refine ⟨?_, ?_, h.answers⟩
    · show s.onTerminals + 1 = if some terminal = none then 0 else 1
      rw [h.once, if_pos hliving, if_neg (by simp)]
    · intro record hr
      cases hr
      exact ⟨terminal, rfl, rfl, .inl ⟨rfl, (by simp), rfl, rfl⟩⟩
  · rw [ResponseState.applyTerminal, if_pos hliving]
    exact h

theorem EndedInv.dropEntry (h : EndedInv s) : EndedInv s.dropEntry := by
  rw [ResponseState.dropEntry]
  split
  · exact h
  · next hliving =>
    have hliving : s.entry.terminal = none := by simpa using hliving
    have hnone := h.record_none hliving
    refine ⟨?_, ?_, h.answers⟩
    · show s.onTerminals + 1 = if some _ = none then 0 else 1
      rw [h.once, if_pos hliving, if_neg (by simp)]
    · intro record hr
      have hr : s.record = some record := hr
      rw [hnone] at hr
      cases hr

theorem EndedInv.tryChunk {piece : Bytes} (h : EndedInv s)
    (htry : s.tryChunk config piece = some t) : EndedInv t := by
  rcases tryChunk_eq_some htry with heq | ⟨hliving, -, -, heq⟩
  · exact heq ▸ h
  · subst heq
    exact h.of_same rfl rfl (fun hended => absurd hliving hended) rfl rfl rfl

theorem EndedInv.setRecord {record : Option ResponseRecord} (h : EndedInv s)
    (hrecord : ∀ r, record = some r → r.Of s.entry) : EndedInv { s with record } where
  once := h.once
  record := hrecord
  answers := h.answers

theorem EndedInv.expireSummary (h : EndedInv s) : EndedInv s.expireSummary := by
  refine h.setRecord fun r hr => ?_
  obtain ⟨record, hrecord, heq⟩ := Option.map_eq_some_iff.mp hr
  obtain ⟨terminal, hsome, howner, hcases⟩ := h.record record hrecord
  subst heq
  split
  · exact ⟨terminal, hsome, howner, .inr ⟨rfl, rfl⟩⟩
  · exact ⟨terminal, hsome, howner, hcases⟩

theorem EndedInv.touchSummary (h : EndedInv s) : EndedInv (s.touchSummary config) := by
  refine h.setRecord fun r hr => ?_
  obtain ⟨record, hrecord, heq⟩ := Option.map_eq_some_iff.mp hr
  obtain ⟨terminal, hsome, howner, hcases⟩ := h.record record hrecord
  subst heq
  refine ⟨terminal, hsome, howner, ?_⟩
  rcases hcases with ⟨hsame, hdated, hrest⟩ | ⟨hexpired, htomb⟩
  · refine .inl ⟨hsame, ?_, hrest⟩
    show record.expiresAt.map _ ≠ none
    simpa using hdated
  · refine .inr ⟨hexpired, ?_⟩
    show record.expiresAt.map _ = none
    rw [htomb]
    rfl

theorem EndedInv.terminalReplay (h : EndedInv s) (keyId : String) :
    EndedInv (s.terminalReplay config keyId).2 := by
  rw [ResponseState.terminalReplay]
  split
  · exact h
  · split
    · exact h
    · split
      · exact h.expireSummary
      · exact h.touchSummary

theorem EndedInv.cancelSummary (h : EndedInv s) (keyId : String) :
    EndedInv (s.cancelSummary config keyId).2 := by
  rw [ResponseState.cancelSummary]
  split
  · exact h
  · split
    · exact h
    · split
      · exact h.expireSummary
      · exact h.touchSummary

/-- **A replay tells the terminal.** -/
theorem EndedInv.replay_truthful (h : EndedInv s) :
    ResponseDecision.Truthful ⟨s.entry, s.record, s.now,
      (s.terminalReplay config s.entry.keyId).1⟩ := by
  intro terminal hterminal
  rw [ResponseState.terminalReplay]
  cases hrecord : s.record with
  | none => exact .inr (.inr ⟨rfl, rfl⟩)
  | some record =>
    obtain ⟨terminal', hsome, howner, hcases⟩ := h.record record hrecord
    rw [hterminal] at hsome
    cases hsome
    simp only
    rw [if_neg (fun hother => hother howner)]
    by_cases hdue : record.isDue s.now = true
    · rw [if_pos hdue]
      exact .inr (.inl ⟨rfl, record, rfl, .inl hdue⟩)
    · rw [if_neg hdue]
      rcases hcases with ⟨hsame, -, hseq, hhead⟩ | ⟨hexpired, htomb⟩
      · refine .inl ?_
        simp only [hsame]
        cases hkind : terminal.kind with
        | done => exact ⟨hkind, hseq, hhead⟩
        | cancelled => exact hkind
        | expired => exact hkind
        | error => exact ⟨hkind, rfl, rfl⟩
      · simp only [hexpired]
        exact .inr (.inl ⟨trivial, record, rfl, .inr htomb⟩)

/-- **A cancel behind the terminal tells it.** -/
theorem EndedInv.cancel_truthful (h : EndedInv s) :
    ResponseDecision.Truthful ⟨s.entry, s.record, s.now,
      (s.cancelSummary config s.entry.keyId).1⟩ := by
  intro terminal hterminal
  rw [ResponseState.cancelSummary]
  cases hrecord : s.record with
  | none => exact .inr (.inr ⟨rfl, rfl⟩)
  | some record =>
    obtain ⟨terminal', hsome, howner, hcases⟩ := h.record record hrecord
    rw [hterminal] at hsome
    cases hsome
    simp only
    rw [if_neg (fun hother => hother howner)]
    by_cases hdue : record.isDue s.now = true
    · rw [if_pos hdue]
      exact .inr (.inl ⟨rfl, record, rfl, .inl hdue⟩)
    · rw [if_neg hdue]
      rcases hcases with ⟨hsame, -, -⟩ | ⟨hexpired, htomb⟩
      · refine .inl ?_
        simp only [hsame]
        by_cases hexpired : terminal.kind = .expired
        · rw [if_pos hexpired]
          exact hexpired
        · rw [if_neg hexpired]
          rfl
      · simp only [hexpired]
        exact .inr (.inl ⟨rfl, record, rfl, .inr htomb⟩)

/-! ## Decisions -/

theorem EndedInv.confirm (h : EndedInv s) (hliving : s.entry.terminal = none) :
    EndedInv (s.confirm fromSeq) := by
  by_cases hlt : s.entry.committedSeq < min (fromSeq - 1) s.entry.servedSeq
  · rw [confirm_of_lt hlt]
    exact h.of_same rfl rfl (fun hterminal => absurd hliving hterminal) rfl rfl rfl
  · rw [confirm_of_le (by omega)]
    exact h

theorem EndedInv.decideReady {answer : Option ResponseAnswer} (h : EndedInv s)
    (hdecide : s.decideReady config fromSeq = (answer, t)) : EndedInv t := by
  cases decides_as hdecide with
  | replay => exact h.terminalReplay s.entry.keyId
  | conflict hliving => exact h.confirm hliving
  | piece hliving => exact (h.confirm hliving).of_same rfl rfl (fun _ => ⟨rfl, rfl⟩) rfl rfl rfl
  | summary hliving =>
    refine EndedInv.applyTerminal _ ?_
    exact (h.confirm hliving).of_same rfl rfl (fun _ => ⟨rfl, rfl⟩) rfl rfl rfl
  | hold hliving => exact h.confirm hliving

theorem decideReady_ended (hended : s.entry.terminal ≠ none) :
    s.decideReady config fromSeq = (some (s.terminalReplay config s.entry.keyId).1,
      (s.terminalReplay config s.entry.keyId).2) := by
  rw [ResponseState.decideReady, if_pos hended]

theorem EndedInv.decision_truthful {answer : ResponseAnswer} (h : EndedInv s)
    (hdecide : s.decideReady config fromSeq = (some answer, t)) :
    ResponseDecision.Truthful ⟨s.entry, s.record, s.now, answer⟩ := by
  by_cases hliving : s.entry.terminal = none
  · exact .of_living hliving
  · rw [decideReady_ended hliving] at hdecide
    cases hdecide
    exact h.replay_truthful

theorem EndedInv.decided {b : Bool} {answer : ResponseAnswer} {call : PullCall} {phase : PullPhase}
    (h : EndedInv s) (hdecide : { s with entry := { s.entry with pullInFlight := b } }.decideReady
      config fromSeq = (some answer, t)) : EndedInv (s.decided answer (t.setPull k call phase)) := by
  have htaken : EndedInv { s with entry := { s.entry with pullInFlight := b } } :=
    h.of_same rfl rfl (fun _ => ⟨rfl, rfl⟩) rfl rfl rfl
  have hmoved : EndedInv (t.setPull k call phase) :=
    (htaken.decideReady hdecide).of_same rfl rfl (fun _ => ⟨rfl, rfl⟩) rfl rfl rfl
  have htruthful := htaken.decision_truthful hdecide
  exact hmoved.addDecision (d := ⟨s.entry, s.record, s.now, answer⟩) htruthful

theorem EndedInv.pullSummary (h : EndedInv s) (fromSeq : Int) (keyId : String) :
    EndedInv (s.pullSummary config fromSeq keyId) := by
  rw [ResponseState.pullSummary]
  split
  · exact h.of_same rfl rfl (fun _ => ⟨rfl, rfl⟩) rfl rfl rfl
  · split
    · exact h.of_same rfl rfl (fun _ => ⟨rfl, rfl⟩) rfl rfl rfl
    · exact (h.terminalReplay keyId).of_same rfl rfl (fun _ => ⟨rfl, rfl⟩) rfl rfl rfl

/-- **Each step that is exclusive keeps the invariant.** -/
theorem EndedInv.step {l : ResponseLabel} (h : EndedInv s) (hexclusive : Exclusive s l)
    (hstep : s.step config l = some s') : EndedInv s' := by
  cases relay_step_as hstep with
  | idle => exact h
  | head _ hliving => exact h.of_same rfl rfl (fun hended => absurd hliving hended) rfl rfl rfl
  | chunk htry => exact h.tryChunk htry
  | rechunk i htry =>
    have herased : EndedInv { s with chunks := s.chunks.eraseIdx i } :=
      h.of_same rfl rfl (fun _ => ⟨rfl, rfl⟩) rfl rfl rfl
    exact herased.tryChunk htry
  | drop => exact h.dropEntry
  | terminate => exact h.applyTerminal _
  | replay fromSeq keyId hended =>
    have hsummary := @EndedInv.pullSummary config _ h fromSeq keyId
    split
    · next howner =>
      have hfree := hexclusive hended howner
      refine hsummary.addDecision ?_
      rw [ResponseState.summaryAnswer, if_neg (by rw [hfree]; simp), ← howner]
      exact h.replay_truthful
    · exact hsummary
  | busy hcall hqueued htaken =>
    -- it is the condition that there is no terminal
    have hliving : s.entry.terminal = none := by
      by_contra hended
      rw [hexclusive hended] at htaken
      cases htaken
    refine EndedInv.addDecision (s := s.setPull _ _ _) ?_ (.of_living hliving)
    exact h.of_same rfl rfl (fun _ => ⟨rfl, rfl⟩) rfl rfl rfl
  | firstDecided hcall hqueued hfree hdecide => exact h.decided hdecide
  | hold hcall hqueued hfree hdecide =>
    have htaken : EndedInv { s with entry := { s.entry with pullInFlight := true } } :=
      h.of_same rfl rfl (fun _ => ⟨rfl, rfl⟩) rfl rfl rfl
    exact (htaken.decideReady hdecide).of_same rfl rfl (fun _ => ⟨rfl, rfl⟩) rfl rfl rfl
  | secondDecided hcall hphase hdecide => exact h.decided (b := s.entry.pullInFlight) hdecide
  | holdOver t hcall hphase hdecide =>
    -- a hold is over only for a living response
    have hliving : s.entry.terminal = none := by
      by_contra hended
      rw [decideReady_ended hended] at hdecide
      cases hdecide
    refine EndedInv.addDecision (s := t.setPull _ _ _) ?_ (.of_living hliving)
    exact (h.decideReady hdecide).of_same rfl rfl (fun _ => ⟨rfl, rfl⟩) rfl rfl rfl
  | cancelReplay keyId hended ht =>
    have hadded : EndedInv { (s.cancelSummary config keyId).2 with
        cancels := .answered (s.cancelSummary config keyId).1 ::
          (s.cancelSummary config keyId).2.cancels } :=
      (h.cancelSummary keyId).of_same rfl rfl (fun _ => ⟨rfl, rfl⟩) rfl rfl rfl
    subst ht
    split
    · next howner =>
      refine hadded.addDecision ?_
      rw [← howner]
      exact h.cancel_truthful
    · exact hadded
  | cancelLocked hqueued ht =>
    subst ht
    have hcancelled : EndedInv (s.applyTerminal config ⟨.cancelled, "", ""⟩) := h.applyTerminal _
    refine EndedInv.addDecision ?_ ?_
    · exact hcancelled.of_same rfl rfl (fun _ => ⟨rfl, rfl⟩) rfl rfl rfl
    · intro terminal hterminal
      exact .inl (hexclusive hqueued terminal hterminal)
  | sweep => exact h.expireSummary.of_same rfl rfl (fun _ => ⟨rfl, rfl⟩) rfl rfl rfl
  | expire =>
    have hcleared : EndedInv { s with expiring := false } :=
      h.of_same rfl rfl (fun _ => ⟨rfl, rfl⟩) rfl rfl rfl
    exact hcleared.applyTerminal _
  | evict => exact h.setRecord (by intros; contradiction)
  | _ => exact h.of_same rfl rfl (fun _ => ⟨rfl, rfl⟩) rfl rfl rfl

/-! ## Behind the terminal -/

theorem ResponseEntry.FrozenTo.refl (entry : ResponseEntry) : entry.FrozenTo entry :=
  ⟨entry.pullInFlight, rfl⟩

theorem applyTerminal_ended {terminal : Terminal} (hended : s.entry.terminal ≠ none) :
    s.applyTerminal config terminal = s := by
  rw [ResponseState.applyTerminal, if_pos hended]

theorem dropEntry_ended (hended : s.entry.terminal ≠ none) : s.dropEntry = s := by
  rw [ResponseState.dropEntry, if_pos hended]

theorem tryChunk_ended {piece : Bytes} (hended : s.entry.terminal ≠ none) :
    s.tryChunk config piece = some s := by
  rw [ResponseState.tryChunk, if_pos (.inl hended)]

/-- **No step changes an entry behind its terminal.** -/
theorem frozen_of_ended {l : ResponseLabel} (hended : s.entry.terminal ≠ none)
    (hstep : s.step config l = some s') : s.entry.FrozenTo s'.entry := by
  cases relay_step_as hstep with
  | head _ hliving => exact absurd hliving hended
  | endOfBody hliving => exact absurd hliving hended
  | chunk htry =>
    rw [tryChunk_ended hended] at htry
    cases htry
    exact .refl _
  | rechunk i htry =>
    rw [tryChunk_ended (by exact hended)] at htry
    cases htry
    exact .refl _
  | drop =>
    rw [dropEntry_ended hended]
    exact .refl _
  | terminate =>
    rw [applyTerminal_ended hended]
    exact .refl _
  | replay fromSeq keyId =>
    have hsummary := pullSummary_entry config s fromSeq keyId
    split <;> exact ⟨s.entry.pullInFlight, hsummary⟩
  | firstDecided hcall hqueued hfree hdecide =>
    rw [decideReady_ended (by exact hended)] at hdecide
    cases hdecide
    exact ⟨true, terminalReplay_entry config _ _⟩
  | hold hcall hqueued hfree hdecide =>
    rw [decideReady_ended (by exact hended)] at hdecide
    cases hdecide
  | secondDecided hcall hphase hdecide =>
    rw [decideReady_ended hended] at hdecide
    cases hdecide
    exact ⟨s.entry.pullInFlight, terminalReplay_entry config _ _⟩
  | holdOver t hcall hphase hdecide =>
    rw [decideReady_ended hended] at hdecide
    cases hdecide
  | release => exact ⟨false, rfl⟩
  | cancelReplay keyId _ ht =>
    have hsummary : (s.cancelSummary config keyId).2.entry = s.entry := by
      rw [ResponseState.cancelSummary]
      split
      · rfl
      · split
        · rfl
        · split <;> rfl
    subst ht
    split <;> exact ⟨s.entry.pullInFlight, hsummary⟩
  | cancelLocked hqueued ht =>
    rw [applyTerminal_ended hended] at ht
    subst ht
    exact .refl _
  | expire =>
    rw [applyTerminal_ended (by exact hended)]
    exact .refl _
  | _ => exact .refl _

theorem EndedInv.init (h : (responseMachine config).init s) : EndedInv s := by
  obtain ⟨-, -, -, -, -, -, hliving, -, hrecord, -, -, -, -, -, -, honce, hdecisions⟩ := h
  exact {
    once := by rw [honce, if_pos hliving]
    record := fun record hr => by simp [hrecord] at hr
    answers := fun d hd => by simp [hdecisions] at hd }

/-- **One terminal**, in every interleaving whose steps are exclusive: in each state, and with the
entry frozen behind it. -/
theorem terminal_exclusive (config : ResponseConfig) (s : ResponseState)
    (h : (responseMachine config).ReachableUnder Exclusive s) :
    TerminalOnce s ∧ ∀ terminal, s.entry.terminal = some terminal → ∀ l s',
      s.step config l = some s' → s.entry.FrozenTo s'.entry := by
  have hend : EndedInv s := h.invariant (fun _ => EndedInv.init)
    fun _ _ _ hinv hexclusive hstep => hinv.step hexclusive hstep
  have hrelay : RelayInv config s ∧ SingleFlight s :=
    h.invariant (I := fun s => RelayInv config s ∧ SingleFlight s) (fun _ => RelayInv.init)
      fun _ _ _ hinv _ hstep => ⟨hinv.1.step hinv.2 hstep, hinv.2.step hstep⟩
  have hwait := hrelay.1.wait
  refine ⟨⟨hend.once, ?_, ?_, hend.answers⟩, ?_⟩
  · intro hended call hmem aborted hphase
    exact hended (hwait.pulls call hmem aborted hphase).1
  · intro hended call hmem
    rw [← Bool.not_eq_false]
    exact fun hwoken => hended (hwait.chunks call hmem hwoken).1
  · intro terminal hterminal l s' hstep
    refine frozen_of_ended ?_ hstep
    rw [hterminal]
    exact nofun

end

/-! ## Runs of one response -/

namespace SampleTerminal

open SampleRelay (config start init_start)

theorem cancelled_while_held : ∃ s,
    (TerminalOnce s ∧ ∀ terminal, s.entry.terminal = some terminal → ∀ l s',
      s.step config l = some s' → s.entry.FrozenTo s'.entry) ∧
    s.entry.terminal = some ⟨.cancelled, "", ""⟩ ∧
    s.decisions.map (·.answer) = [.status .cancelled, .notFound, .status .cancelled] := by
  have hrun : ((responseMachine config).runUnder Exclusive start
      [.pull 0 "k" false, .first 0, .cancel "k", .cancelLocked 0, .resume 0, .second 0, .release 0,
        .cancel "k"]).any
      (fun s => s.entry.terminal = some ⟨.cancelled, "", ""⟩ &&
        s.decisions.map (·.answer) = [.status .cancelled, .notFound, .status .cancelled]) =
        true := by decide
  obtain ⟨s, hreach, hs⟩ := Machine.exists_reachableUnder init_start hrun
  exact ⟨s, terminal_exclusive config s hreach, by simpa using hs⟩

/-- **A cancel that waited for the lock** is told `cancelled`, though the response was done. -/
theorem cancelled_when_done : ∃ s, (responseMachine config).Reachable s ∧ ¬ TerminalOnce s ∧
    s.entry.terminal = some ⟨.done, "", ""⟩ ∧
    s.decisions.map (·.answer) = [.status .cancelled, .summary (-1) none] ∧
    s.cancels = [.answered (.status .cancelled)] := by
  have hrun : ((responseMachine config).runUnder (fun _ _ => True) start
      [.endOfBody, .pull 0 "k" false, .cancel "k", .first 0, .cancelLocked 0]).any
      (fun s => s.entry.terminal = some ⟨.done, "", ""⟩ &&
        s.decisions.map (·.answer) = [.status .cancelled, .summary (-1) none] &&
        s.cancels = [.answered (.status .cancelled)] &&
        s.decisions.head?.map (fun d => (d.entry.terminal, d.answer)) =
          some (some ⟨.done, "", ""⟩, .status .cancelled)) = true := by decide
  obtain ⟨s, hreach, hs⟩ := Machine.exists_reachableUnder init_start hrun
  simp only [Bool.and_eq_true, decide_eq_true_eq] at hs
  obtain ⟨⟨⟨hdone, hanswers⟩, hcancels⟩, hhead⟩ := hs
  refine ⟨s, hreach, fun honce => ?_, hdone, hanswers, hcancels⟩
  obtain ⟨d, hd, hpair⟩ := Option.map_eq_some_iff.mp hhead
  obtain ⟨hterminal, hanswer⟩ := Prod.mk.inj hpair
  have htruthful := honce.answers d (List.mem_of_mem_head? hd) _ hterminal
  rw [hanswer] at htruthful
  rcases htruthful with htold | ⟨hother, -⟩ | ⟨hother, -⟩
  · cases htold
  · cases hother
  · cases hother

end SampleTerminal

end Dweb
