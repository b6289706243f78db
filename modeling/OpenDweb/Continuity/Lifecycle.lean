import OpenDweb.Lib.Machine
import OpenDweb.Continuity.ResumeCtl

/-!
# OpenDweb — the life of a session: phases and channel installs

`SessionPhase` is written from a dozen places, by tasks that share nothing but the locks they
take one after another. A step of this machine is what one task does under one lock; what a
task has checked and not yet written is part of the state.

* **`Lifecycle.step`** — every writer of the phase and every install: INIT completion, pump
  exits, the resume commit and its fallback, the watchdog, the registry, `close`.
* **`Lifecycle.Respects`** — the three writers that do not look at the phase act before the
  session is over: INIT completion, the exit of a pump, the commit of an install.
* **`terminal_phases_absorbing`** — a run from a session that is over stays in `Dead` and
  `Closed` and installs no channel exactly when all its steps respect that.
-/

namespace Dweb

open Option

/-! ## State -/

def SessionPhase.isTerminal (p : SessionPhase) : Bool := p = .dead || p = .closed

/-- An install that holds `channel_transition` and has passed its first check. -/
structure PendingInstall where
  epoch : Nat
  decision : Option ResumeDecision
  expectedGeneration : Option Nat
  deriving DecidableEq

/-- A phase a task is about to write, having made its checks. -/
inductive PhaseWrite where
  | recovering | dead
  deriving DecidableEq

structure Lifecycle where
  ctl : ResumeCtl
  closing : Bool
  /-- The holder of `channel_transition`, where it is an install. -/
  transition : Option PendingInstall
  writes : List PhaseWrite
  /-- Calls of `close` that have set `closing`, that are through with the channels, and that
  have returned. -/
  closesBegun : Nat
  closesDrained : Nat
  closesEnded : Nat
  deriving DecidableEq

namespace Lifecycle

/-- A fresh `SessionShared`. -/
def fresh (token : Token) : Lifecycle where
  ctl := ResumeCtl.new token
  closing := false
  transition := none
  writes := []
  closesBegun := 0
  closesDrained := 0
  closesEnded := 0

/-- `channel_is_current`. -/
def channelIsCurrent (s : Lifecycle) (epoch owner : Nat) : Bool :=
  s.ctl.activeEpoch = epoch && s.ctl.channelOwner = owner

def setPhase (s : Lifecycle) (p : SessionPhase) : Lifecycle :=
  { s with ctl := { s.ctl with phase := p } }

end Lifecycle

/-! ## Steps -/

inductive LifecycleLabel where
  /-- SESSION_INIT_OK has come (`open_session_attempt`), or was sent for a fresh session
  (`accept_session_init`). -/
  | initAccepted
  | installBegin (i : PendingInstall)
  /-- `IfVacant` finds a live channel, or the old pump does not stop in time. -/
  | installGivesUp
  | installCommit
  /-- The pump of a channel ends, fails, or cannot send a reply. -/
  | pumpFails (epoch owner : Nat)
  /-- `resume_giveup` after a pump's exit. -/
  | watchdogFires
  | resumeRejected
  | writePhase (w : PhaseWrite)
  /-- `complete_resume_install_checked`. -/
  | completeResume
  /-- `downgrade_to_recovering_if_owner`: the provider could not send RESUME_OK. -/
  | downgrade (expectedOwner : Nat)
  /-- `remove_if`, the session displaced by `admit_init_ordered`, or the RESET tombstones
  exhausted. -/
  | die
  | closeBegin
  | closeDrain
  | closeEnd
  | decideResume (nonce : Nonce) (generation : Nat) (token newToken : Token) (remoteEpoch : Nat)
  | rotateToken (newGeneration : Nat) (newToken : Token)
  | observeRemoteEpoch (epoch : Nat)
  | noteConfirmed (owner : Nat)
  deriving DecidableEq

namespace Lifecycle

def step (s : Lifecycle) : LifecycleLabel → Option Lifecycle
  | .initAccepted => some (s.setPhase .active)
  | .installBegin i =>
    -- what it checks here of the decision and the generation it checks again at the commit
    if s.transition = none ∧ s.closing = false ∧ s.ctl.phase.isTerminal = false then
      some { s with transition := some i }
    else none
  | .installGivesUp =>
    if s.transition.isSome then some { s with transition := none } else none
  | .installCommit =>
    s.transition.map fun i =>
      match s.ctl.installChannel i.epoch i.decision i.expectedGeneration with
      | some (_, ctl) => { s with ctl := ctl, transition := none }
      | none => { s with transition := none }
  | .pumpFails epoch owner =>
    if s.channelIsCurrent epoch owner then some { s with writes := .recovering :: s.writes }
    else none
  | .watchdogFires =>
    if s.ctl.phase = .recovering then some { s with writes := .dead :: s.writes } else none
  | .resumeRejected =>
    if s.ctl.phase ≠ .active then some { s with writes := .dead :: s.writes } else none
  | .writePhase w =>
    if w ∈ s.writes then
      let s := { s with writes := s.writes.erase w }
      match w with
      | .recovering => some (s.setPhase .recovering)
      | .dead => some (s.setPhase .dead)
    else none
  | .completeResume =>
    if s.closing = false ∧ (s.ctl.phase = .active ∨ s.ctl.phase = .recovering) then
      some (s.setPhase .active)
    else none
  | .downgrade expectedOwner =>
    if s.ctl.channelOwner = expectedOwner ∧ s.ctl.phase = .active then
      some (s.setPhase .recovering)
    else none
  | .die => some (s.setPhase .dead)
  | .closeBegin => some { s with closing := true, closesBegun := s.closesBegun + 1 }
  | .closeDrain =>
    if s.closesDrained < s.closesBegun ∧ s.transition = none then
      some { s with closesDrained := s.closesDrained + 1 }
    else none
  | .closeEnd =>
    if s.closesEnded < s.closesDrained then
      some ({ s with closesEnded := s.closesEnded + 1 }.setPhase .closed)
    else none
  | .decideResume nonce generation token newToken remoteEpoch =>
    (s.ctl.decideResumeWithEpoch nonce generation token newToken remoteEpoch).map fun r =>
      { s with ctl := r.2 }
  | .rotateToken newGeneration newToken =>
    some { s with ctl := s.ctl.rotateToken newGeneration newToken }
  | .observeRemoteEpoch epoch =>
    (s.ctl.observeRemoteEpoch epoch).map fun ctl => { s with ctl := ctl }
  | .noteConfirmed owner => some { s with ctl := s.ctl.noteConfirmed owner }

/-- The writers that do not look at the phase act before the session is over. -/
def Respects (s : Lifecycle) : LifecycleLabel → Prop
  | .initAccepted | .writePhase .recovering => s.ctl.phase.isTerminal = false
  | .installCommit =>
    ∀ i ∈ s.transition, s.ctl.installAllowed i.decision i.expectedGeneration → s.ctl.phase ≠ .dead
  | _ => True

instance (s : Lifecycle) (l : LifecycleLabel) : Decidable (s.Respects l) := by
  unfold Respects
  split <;> infer_instance

/-- In `s'` the session that was over in `s` still is, with the channel it had. -/
def StaysOver (s s' : Lifecycle) : Prop :=
  s'.ctl.phase.isTerminal = true ∧ s'.ctl.channelOwner = s.ctl.channelOwner

end Lifecycle

def lifecycleMachine : Machine Lifecycle LifecycleLabel where
  init s := ∃ token, s = .fresh token
  step := Lifecycle.step

/-! ## What a RESUME leaves alone -/

namespace ResumeCtl

theorem decideResumeWithEpoch_frame {ctl ctl' : ResumeCtl} {nonce : Nonce} {g e : Nat}
    {token newToken : Token} {d : ResumeDecision}
    (h : ctl.decideResumeWithEpoch nonce g token newToken e = some (d, ctl')) :
    ctl'.phase = ctl.phase ∧ ctl'.channelOwner = ctl.channelOwner := by
  simp only [decideResumeWithEpoch] at h
  split at h
  · cases h
  · split at h
    · simp only [some.injEq, Prod.mk.injEq] at h
      rw [← h.2]
      exact ⟨rfl, rfl⟩
    · obtain ⟨-, h⟩ := ite_none_left_eq_some.mp h
      split at h
      · cases h
      · simp only [some.injEq, Prod.mk.injEq] at h
        rw [← h.2]
        exact ⟨rfl, rfl⟩

theorem rotateToken_frame (ctl : ResumeCtl) (g : Nat) (token : Token) :
    (ctl.rotateToken g token).phase = ctl.phase
      ∧ (ctl.rotateToken g token).channelOwner = ctl.channelOwner := by
  unfold rotateToken
  split
  · exact ⟨rfl, rfl⟩
  · split <;> exact ⟨rfl, rfl⟩

theorem noteConfirmed_frame (ctl : ResumeCtl) (owner : Nat) :
    (ctl.noteConfirmed owner).phase = ctl.phase
      ∧ (ctl.noteConfirmed owner).channelOwner = ctl.channelOwner := by
  unfold noteConfirmed
  split <;> exact ⟨rfl, rfl⟩

theorem installChannel_cases (ctl : ResumeCtl) (epoch : Nat) (decision : Option ResumeDecision)
    (expected : Option Nat) :
    (ctl.installAllowed decision expected ∧ ∃ ctl',
        ctl.installChannel epoch decision expected = some (ctl.channelOwner + 1, ctl')
          ∧ ctl'.phase = ctl.phase ∧ ctl'.channelOwner = ctl.channelOwner + 1) ∨
    (¬ctl.installAllowed decision expected
      ∧ ctl.installChannel epoch decision expected = none) := by
  by_cases h : ctl.installAllowed decision expected
  · left
    rw [installChannel, if_pos h]
    exact ⟨h, _, rfl, rfl, rfl⟩
  · right
    exact ⟨h, by rw [installChannel, if_neg h]⟩

end ResumeCtl

/-! ## The order of a close -/

namespace Lifecycle

/-- `close` sets `closing`, then waits for `channel_transition`, then writes `Closed`: no
install is pending when it does, and none begins afterwards. -/
structure CloseOrder (s : Lifecycle) : Prop where
  begun : 0 < s.closesBegun → s.closing = true
  drained_le : s.closesDrained ≤ s.closesBegun
  drained : 0 < s.closesDrained → s.transition = none
  closed : s.ctl.phase = .closed → 0 < s.closesDrained

variable {s s' : Lifecycle}

theorem CloseOrder.setPhase (h : s.CloseOrder) {p : SessionPhase} (hp : p ≠ .closed) :
    (s.setPhase p).CloseOrder where
  begun := h.begun
  drained_le := h.drained_le
  drained := h.drained
  closed hclosed := absurd hclosed hp

theorem CloseOrder.ofCtl (h : s.CloseOrder) {ctl : ResumeCtl} (hphase : ctl.phase = s.ctl.phase) :
    CloseOrder { s with ctl := ctl } where
  begun := h.begun
  drained_le := h.drained_le
  drained := h.drained
  closed hclosed := h.closed (hphase ▸ hclosed)

theorem CloseOrder.release (h : s.CloseOrder) :
    CloseOrder { s with transition := none } where
  begun := h.begun
  drained_le := h.drained_le
  drained _ := rfl
  closed := h.closed

theorem CloseOrder.ofWrites (h : s.CloseOrder) (writes : List PhaseWrite) :
    CloseOrder { s with writes := writes } :=
  ⟨h.begun, h.drained_le, h.drained, h.closed⟩

theorem CloseOrder.transition_eq_none (h : s.CloseOrder) (hclosed : s.ctl.phase = .closed) :
    s.transition = none :=
  h.drained (h.closed hclosed)

theorem closeOrder_fresh (token : Token) : (fresh token).CloseOrder where
  begun h := absurd h (Nat.lt_irrefl 0)
  drained_le := Nat.le_refl 0
  drained _ := rfl
  closed h := by cases h

theorem CloseOrder.step {l : LifecycleLabel} (h : s.CloseOrder) (hs : s.step l = some s') :
    s'.CloseOrder := by
  cases l with
  | initAccepted =>
    cases hs
    exact h.setPhase (by decide)
  | installBegin i =>
    obtain ⟨hok, hs⟩ := ite_none_right_eq_some.mp hs
    cases hs
    -- an install begins only before a close does
    have hbegun : ¬0 < s.closesBegun := fun hb => by simp [h.begun hb] at hok
    have hle := h.drained_le
    exact ⟨h.begun, h.drained_le, fun hd => absurd hd (by simp only; omega), h.closed⟩
  | installGivesUp =>
    obtain ⟨-, hs⟩ := ite_none_right_eq_some.mp hs
    cases hs
    exact h.release
  | installCommit =>
    obtain ⟨i, -, rfl⟩ := map_eq_some_iff.mp hs
    rcases s.ctl.installChannel_cases i.epoch i.decision i.expectedGeneration with
      ⟨-, ctl, hinstall, hphase, -⟩ | ⟨-, hinstall⟩
    · rw [hinstall]
      exact (h.ofCtl hphase).release
    · rw [hinstall]
      exact h.release
  | pumpFails epoch owner =>
    obtain ⟨-, hs⟩ := ite_none_right_eq_some.mp hs
    cases hs
    exact h.ofWrites _
  | watchdogFires =>
    obtain ⟨-, hs⟩ := ite_none_right_eq_some.mp hs
    cases hs
    exact h.ofWrites _
  | resumeRejected =>
    obtain ⟨-, hs⟩ := ite_none_right_eq_some.mp hs
    cases hs
    exact h.ofWrites _
  | writePhase w =>
    obtain ⟨-, hs⟩ := ite_none_right_eq_some.mp hs
    cases w with
    | recovering =>
      cases hs
      exact (h.ofWrites _).setPhase (by decide)
    | dead =>
      cases hs
      exact (h.ofWrites _).setPhase (by decide)
  | completeResume =>
    obtain ⟨-, hs⟩ := ite_none_right_eq_some.mp hs
    cases hs
    exact h.setPhase (by decide)
  | downgrade expectedOwner =>
    obtain ⟨-, hs⟩ := ite_none_right_eq_some.mp hs
    cases hs
    exact h.setPhase (by decide)
  | die =>
    cases hs
    exact h.setPhase (by decide)
  | closeBegin =>
    cases hs
    exact ⟨fun _ => rfl, Nat.le_succ_of_le h.drained_le, h.drained, h.closed⟩
  | closeDrain =>
    obtain ⟨hok, hs⟩ := ite_none_right_eq_some.mp hs
    cases hs
    exact ⟨h.begun, hok.1, fun _ => hok.2, fun _ => Nat.succ_pos _⟩
  | closeEnd =>
    obtain ⟨hlt, hs⟩ := ite_none_right_eq_some.mp hs
    cases hs
    exact ⟨h.begun, h.drained_le, h.drained, fun _ => Nat.lt_of_le_of_lt (Nat.zero_le _) hlt⟩
  | decideResume nonce generation token newToken remoteEpoch =>
    obtain ⟨⟨d, ctl⟩, hdecide, rfl⟩ := map_eq_some_iff.mp hs
    exact h.ofCtl (ResumeCtl.decideResumeWithEpoch_frame hdecide).1
  | rotateToken newGeneration newToken =>
    cases hs
    exact h.ofCtl (ResumeCtl.rotateToken_frame _ _ _).1
  | observeRemoteEpoch epoch =>
    obtain ⟨ctl, hobserve, rfl⟩ := map_eq_some_iff.mp hs
    rw [ResumeCtl.observeRemoteEpoch_eq_some hobserve]
    exact h.ofCtl rfl
  | noteConfirmed owner =>
    cases hs
    exact h.ofCtl (ResumeCtl.noteConfirmed_frame _ _).1

theorem closeOrder_reachable (h : lifecycleMachine.Reachable s) : s.CloseOrder :=
  h.invariant (fun _ ⟨token, hs⟩ => hs ▸ closeOrder_fresh token)
    (fun _ _ _ hc _ hstep => hc.step hstep)

/-! ## A session that is over -/

theorem StaysOver.refl (h : s.ctl.phase.isTerminal = true) : s.StaysOver s :=
  ⟨h, rfl⟩

theorem StaysOver.trans {s'' : Lifecycle} (h : s.StaysOver s') (h' : s'.StaysOver s'') :
    s.StaysOver s'' :=
  ⟨h'.1, h'.2.trans h.2⟩

theorem staysOver_setPhase_iff {p : SessionPhase} :
    s.StaysOver (s.setPhase p) ↔ p.isTerminal = true :=
  ⟨fun h => h.1, fun h => ⟨h, rfl⟩⟩

theorem staysOver_ofCtl {ctl : ResumeCtl} (h : s.ctl.phase.isTerminal = true)
    (hctl : ctl.phase = s.ctl.phase ∧ ctl.channelOwner = s.ctl.channelOwner) :
    s.StaysOver { s with ctl := ctl } :=
  ⟨hctl.1 ▸ h, hctl.2⟩

/-- A step of a session that is over breaks this exactly when it is one of the three that do
not look at the phase. -/
theorem staysOver_iff_respects {l : LifecycleLabel} (hc : s.CloseOrder)
    (h : s.ctl.phase.isTerminal = true) (hs : s.step l = some s') :
    s.StaysOver s' ↔ s.Respects l := by
  have hnot : ¬s.ctl.phase.isTerminal = false := by simp [h]
  cases l with
  | initAccepted =>
    cases hs
    exact iff_of_false (fun hover => Bool.false_ne_true hover.1) hnot
  | installBegin i =>
    obtain ⟨hok, hs⟩ := ite_none_right_eq_some.mp hs
    exact absurd hok.2.2 hnot
  | installGivesUp =>
    obtain ⟨-, hs⟩ := ite_none_right_eq_some.mp hs
    cases hs
    exact iff_of_true ⟨h, rfl⟩ trivial
  | installCommit =>
    obtain ⟨i, hi, rfl⟩ := map_eq_some_iff.mp hs
    -- the transition is held, so the session is `Dead`: a close would have waited for it
    have hdead : s.ctl.phase = .dead := by
      have hclosed : s.ctl.phase ≠ .closed := fun hclosed => by
        rw [hc.transition_eq_none hclosed] at hi
        cases hi
      simpa [SessionPhase.isTerminal, hclosed] using h
    have hrespects : s.Respects .installCommit ↔
        ¬s.ctl.installAllowed i.decision i.expectedGeneration := by
      simp [Respects, hi, hdead]
    rw [hrespects]
    rcases s.ctl.installChannel_cases i.epoch i.decision i.expectedGeneration with
      ⟨hallowed, ctl, hinstall, -, howner⟩ | ⟨hrefused, hinstall⟩
    · rw [hinstall]
      refine iff_of_false (fun hover => ?_) (fun hno => hno hallowed)
      have hsame : ctl.channelOwner = s.ctl.channelOwner := hover.2
      omega
    · rw [hinstall]
      exact iff_of_true ⟨h, rfl⟩ hrefused
  | pumpFails epoch owner =>
    obtain ⟨-, hs⟩ := ite_none_right_eq_some.mp hs
    cases hs
    exact iff_of_true ⟨h, rfl⟩ trivial
  | watchdogFires =>
    obtain ⟨-, hs⟩ := ite_none_right_eq_some.mp hs
    cases hs
    exact iff_of_true ⟨h, rfl⟩ trivial
  | resumeRejected =>
    obtain ⟨-, hs⟩ := ite_none_right_eq_some.mp hs
    cases hs
    exact iff_of_true ⟨h, rfl⟩ trivial
  | writePhase w =>
    obtain ⟨-, hs⟩ := ite_none_right_eq_some.mp hs
    cases w with
    | recovering =>
      cases hs
      exact iff_of_false (fun hover => Bool.false_ne_true hover.1) hnot
    | dead =>
      cases hs
      exact iff_of_true ⟨by rfl, rfl⟩ trivial
  | completeResume =>
    obtain ⟨hok, hs⟩ := ite_none_right_eq_some.mp hs
    rcases hok.2 with hp | hp <;> exact absurd h (by rw [hp]; decide)
  | downgrade expectedOwner =>
    obtain ⟨hok, hs⟩ := ite_none_right_eq_some.mp hs
    exact absurd h (by rw [hok.2]; decide)
  | die =>
    cases hs
    exact iff_of_true (staysOver_setPhase_iff.mpr (by rfl)) trivial
  | closeBegin =>
    cases hs
    exact iff_of_true ⟨h, rfl⟩ trivial
  | closeDrain =>
    obtain ⟨-, hs⟩ := ite_none_right_eq_some.mp hs
    cases hs
    exact iff_of_true ⟨h, rfl⟩ trivial
  | closeEnd =>
    obtain ⟨-, hs⟩ := ite_none_right_eq_some.mp hs
    cases hs
    exact iff_of_true ⟨by rfl, rfl⟩ trivial
  | decideResume nonce generation token newToken remoteEpoch =>
    obtain ⟨⟨d, ctl⟩, hdecide, rfl⟩ := map_eq_some_iff.mp hs
    exact iff_of_true (staysOver_ofCtl h (ResumeCtl.decideResumeWithEpoch_frame hdecide)) trivial
  | rotateToken newGeneration newToken =>
    cases hs
    exact iff_of_true (staysOver_ofCtl h (ResumeCtl.rotateToken_frame _ _ _)) trivial
  | observeRemoteEpoch epoch =>
    obtain ⟨ctl, hobserve, rfl⟩ := map_eq_some_iff.mp hs
    rw [ResumeCtl.observeRemoteEpoch_eq_some hobserve]
    exact iff_of_true (staysOver_ofCtl h ⟨rfl, rfl⟩) trivial
  | noteConfirmed owner =>
    cases hs
    exact iff_of_true (staysOver_ofCtl h (ResumeCtl.noteConfirmed_frame _ _)) trivial

end Lifecycle

open Lifecycle in
/-- **Terminal phases are absorbing, exactly while the three writers respect them**: of a run
that starts from a session that is over, every state is over with the channel unchanged if
and only if every step respects the end. -/
theorem terminal_phases_absorbing {s s' : Lifecycle} {ls : List LifecycleLabel}
    (hreach : lifecycleMachine.Reachable s) (hover : s.ctl.phase.isTerminal = true)
    (hrun : lifecycleMachine.run s ls = some s') :
    (∀ k t, lifecycleMachine.run s (ls.take k) = some t → s.StaysOver t)
      ↔ lifecycleMachine.runUnder Respects s ls = some s' := by
  refine Machine.forall_take_iff
    (fun u l u' (hu : lifecycleMachine.Reachable u ∧ s.StaysOver u) hstep => ?_)
    (fun u l u' hu hstep hP => ⟨.step hu.1 trivial hstep, hP⟩) ⟨hreach, .refl hover⟩
    (.refl hover) hrun
  -- over since `s`, over since the state before the step
  rw [← staysOver_iff_respects (closeOrder_reachable hu.1) hu.2.1 hstep]
  exact ⟨fun h => ⟨h.1, h.2.trans hu.2.2.symm⟩, hu.2.trans⟩

private def lifeToken : Token := ⟨List.replicate 16 7, by decide⟩

private def bareInstall (epoch : Nat) : PendingInstall :=
  { epoch := epoch, decision := none, expectedGeneration := none }

/-- A session is opened, its channel installed, and the registry drops it. -/
private def droppedWithChannel : List LifecycleLabel :=
  [.initAccepted, .installBegin (bareInstall 1), .installCommit, .die]

private def failsAndCloses : List LifecycleLabel :=
  [.pumpFails 1 1, .closeBegin, .closeDrain, .closeEnd, .noteConfirmed 1]

private def droppedSession : Lifecycle :=
  ((lifecycleMachine.run (.fresh lifeToken) droppedWithChannel)).getD (.fresh lifeToken)

private def closedSession : Lifecycle :=
  ((lifecycleMachine.run droppedSession failsAndCloses)).getD droppedSession

private theorem droppedSession_reachable : lifecycleMachine.Reachable droppedSession := by
  have hrun : lifecycleMachine.run (.fresh lifeToken) droppedWithChannel
      = some droppedSession := by decide +kernel
  exact Machine.reachable_of_run ⟨lifeToken, rfl⟩ hrun

theorem terminal_phases_absorbing_closed :
    (∀ k t, lifecycleMachine.run droppedSession (failsAndCloses.take k) = some t →
        droppedSession.StaysOver t)
      ↔ lifecycleMachine.runUnder Lifecycle.Respects droppedSession failsAndCloses
          = some closedSession :=
  terminal_phases_absorbing
    droppedSession_reachable (by decide +kernel) (by decide +kernel)

/-! ## Dead and back

The registry marks a session `Dead` while its channel is still the current one. When the stream
of that channel ends, the pump's exit writes `Recovering`, and a RESUME installs another. -/

theorem dead_session_recovers :
    ∃ s s', lifecycleMachine.run (.fresh lifeToken) droppedWithChannel = some s
      ∧ s.ctl.phase = .dead ∧ s.ctl.channelOwner = 1
      ∧ lifecycleMachine.run s [.pumpFails 1 1, .writePhase .recovering,
          .installBegin (bareInstall 2), .installCommit] = some s'
      ∧ s'.ctl.phase = .recovering ∧ s'.ctl.channelOwner = 2 :=
  ⟨_, _, rfl, rfl, rfl, rfl, rfl, rfl⟩

end Dweb
