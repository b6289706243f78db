import OpenDweb.Lib.Machine
import OpenDweb.Continuity.ResumeCtl

/-!
# OpenDweb — retrying a RESUME: when the cached decision comes back

A client that lost the `RESUME_OK` repeats its attempt, and the provider is meant to answer
with the decision it already took. `decideResumeWithEpoch` resolves the presented token in
the window *before* it looks at the pending decision, and the first decision has rotated
that window: a credential that was `current` is now `previous` and still resolves, one that
was `previous` is gone.

* **`WindowInv`** — how the pending decision sits in the window, in every reachable record.
* **`idempotent_iff_generationForToken`** — a retry is answered from the cache exactly when
  the window resolves the token to the generation it was first taken for.
* **`LogInv`** — the decisions issued so far: leases and generations grow whenever the
  nonce changes.
* **`resume_retry_iff`** — the two together, over every run.
-/

namespace Dweb

open Machine
open Option

/-! ## Runs of one control record -/

/-- Everything that writes a `ResumeCtl`. -/
inductive ResumeOp where
  | decideResume (nonce : Nonce) (token newToken : Token) (remoteEpoch : Nat)
  | installChannel (epoch : Nat) (decision : Option ResumeDecision)
      (expectedGeneration : Option Nat)
  | noteConfirmed (owner : Nat)
  | rotateToken (newGeneration : UInt64) (newToken : Token)
  | observeRemoteEpoch (epoch : Nat)

/-- A control record and the decisions it has returned, newest first. -/
structure ResumeLog where
  ctl : ResumeCtl
  issued : List ResumeDecision

def ResumeLog.step (s : ResumeLog) : ResumeOp → Option ResumeLog
  | .decideResume nonce token newToken remoteEpoch =>
    -- a RESUME_INIT with epoch zero does not parse, and its epoch is passed as the hint
    if remoteEpoch = 0 then none
    else
      (s.ctl.decideResumeWithEpoch nonce remoteEpoch token newToken remoteEpoch).map
        fun r => { ctl := r.2, issued := r.1 :: s.issued }
  | .installChannel epoch decision expected =>
    (s.ctl.installChannel epoch decision expected).map fun r => { s with ctl := r.2 }
  | .noteConfirmed owner => some { s with ctl := s.ctl.noteConfirmed owner }
  | .rotateToken g token => some { s with ctl := s.ctl.rotateToken g.toNat token }
  | .observeRemoteEpoch epoch =>
    (s.ctl.observeRemoteEpoch epoch).map fun ctl => { s with ctl := ctl }

variable {s s' : ResumeLog} {nonce : Nonce} {token newToken : Token} {e : Nat} {ctl : ResumeCtl}
    {p : PendingResume}

theorem ResumeLog.step_decideResume (h : s.step (.decideResume nonce token newToken e) = some s') :
    e ≠ 0 ∧ ∃ d ctl', s.ctl.decideResumeWithEpoch nonce e token newToken e = some (d, ctl')
      ∧ s' = { ctl := ctl', issued := d :: s.issued } := by
  by_cases he : e = 0
  · rw [ResumeLog.step, if_pos he] at h
    cases h
  · rw [ResumeLog.step, if_neg he] at h
    obtain ⟨⟨d, ctl'⟩, hd, rfl⟩ := map_eq_some_iff.mp h
    exact ⟨he, d, ctl', hd, rfl⟩

def resumeMachine : Machine ResumeLog ResumeOp where
  init s := ∃ token, s = { ctl := ResumeCtl.new token, issued := [] }
  step := ResumeLog.step

/-- No decision is asked for when the `u64` generation or lease is used up. -/
def CountersFit (s : ResumeLog) : ResumeOp → Prop
  | .decideResume .. => s.ctl.tokens.current.1 + 1 < 2 ^ 64 ∧ s.ctl.nextLease + 1 < 2 ^ 64
  | _ => True

/-! ## What is asked of a retry -/

/-- The retry of `d` returns `d`'s result as cached and leaves the window, the lease counter
and the epoch alone, whatever token was drawn for it. -/
def Idempotent (ctl : ResumeCtl) (d : ResumeDecision) : Prop :=
  ∀ newToken, ∃ d' ctl',
    ctl.decideResumeWithEpoch d.nonce d.remoteEpoch d.fromToken newToken d.remoteEpoch
        = some (d', ctl')
      ∧ d'.resultGeneration = d.resultGeneration ∧ d'.resultToken = d.resultToken
      ∧ d'.cached = true
      ∧ ctl'.tokens = ctl.tokens ∧ ctl'.nextLease = ctl.nextLease
      ∧ ctl'.lastSeenRemoteEpoch = ctl.lastSeenRemoteEpoch

/-- `d` was decided from the then `current` credential, drew another token than the one
presented, and its result is still `current`. -/
def DecidedFromCurrent (ctl : ResumeCtl) (d : ResumeDecision) : Prop :=
  d.fromGeneration + 1 = d.resultGeneration ∧ d.fromToken ≠ d.resultToken
    ∧ ctl.tokens.current = (d.resultGeneration, d.resultToken)

/-- A fresh decision and an earlier one of another nonce: lease and generation grow. -/
def Grows (later earlier : ResumeDecision) : Prop :=
  later.nonce ≠ earlier.nonce →
    earlier.leaseId < later.leaseId ∧ earlier.resultGeneration < later.resultGeneration

/-! ## The pending decision in the window -/

/-- Where the window stands relative to a pending decision. -/
inductive PendingPlace (w : TokenWindow) (d : ResumeDecision) : Prop where
  /-- Decided from `current`, which is now `previous`. -/
  | fromCurrent (hcur : w.current = (d.resultGeneration, d.resultToken))
      (hgen : d.fromGeneration + 1 = d.resultGeneration)
      (hprev : w.previous = some (d.fromGeneration, d.fromToken))
  /-- Decided from `previous`, which the rotation pushed out. -/
  | fromPrevious (g : Nat) (t : Token)
      (hcur : w.current = (d.resultGeneration, d.resultToken))
      (hgen : g + 1 = d.resultGeneration) (hlt : d.fromGeneration < g)
      (hprev : w.previous = some (g, t)) (htok : t ≠ d.fromToken)
  | rotatedSince (hlt : d.resultGeneration < w.current.1)
      (hprev : ∀ p ∈ w.previous, d.resultGeneration ≤ p.1)

structure WindowInv (ctl : ResumeCtl) : Prop where
  previous_lt : ∀ p ∈ ctl.tokens.previous, p.1 < ctl.tokens.current.1
  pending_epoch : ∀ p ∈ ctl.pending, p.decision.remoteEpoch ≠ 0
  pending_gen : ∀ p ∈ ctl.pending, p.decision.fromGeneration < p.decision.resultGeneration
  pending_le : ∀ p ∈ ctl.pending, p.decision.resultGeneration ≤ ctl.tokens.current.1
  pending_place : ∀ p ∈ ctl.pending, PendingPlace ctl.tokens p.decision

theorem WindowInv.of_eq {ctl' : ResumeCtl} (h : WindowInv ctl) (htok : ctl'.tokens = ctl.tokens)
    (hpend : ctl'.pending.map PendingResume.decision = ctl.pending.map PendingResume.decision) :
    WindowInv ctl' := by
  have hback : ∀ p' ∈ ctl'.pending, ∃ p ∈ ctl.pending, p.decision = p'.decision := by
    intro p' hp'
    have hmem : p'.decision ∈ ctl'.pending.map PendingResume.decision :=
      mem_map_of_mem _ hp'
    rw [hpend] at hmem
    exact mem_map.mp hmem
  refine ⟨htok ▸ h.previous_lt, fun p' hp' => ?_, fun p' hp' => ?_, fun p' hp' => ?_,
    fun p' hp' => ?_⟩
  all_goals obtain ⟨p, hp, heq⟩ := hback p' hp'
  · exact heq ▸ h.pending_epoch p hp
  · exact heq ▸ h.pending_gen p hp
  · exact htok ▸ heq ▸ h.pending_le p hp
  · exact htok ▸ heq ▸ h.pending_place p hp

theorem WindowInv.of_pending_none (hpend : ctl.pending = none)
    (hprev : ∀ p ∈ ctl.tokens.previous, p.1 < ctl.tokens.current.1) : WindowInv ctl := by
  refine ⟨hprev, ?_, ?_, ?_, ?_⟩
  all_goals
    intro p hp
    rw [hpend] at hp
    cases hp

theorem WindowInv.afterRotation (h : WindowInv ctl) {gen : Nat} (he : e ≠ 0)
    (hfit : ctl.tokens.current.1 + 1 < 2 ^ 64) (hg : ctl.tokens.generationForToken token = some gen) :
    WindowInv (ctl.afterRotation (ctl.freshDecision nonce gen token newToken e)) := by
  have hsucc : u64Succ ctl.tokens.current.1 = ctl.tokens.current.1 + 1 := u64Succ_eq hfit
  -- the new `previous` is the old `current`, one generation below the result
  have hplace : gen < ctl.tokens.current.1 + 1 ∧
      PendingPlace (ctl.tokens.rotate (u64Succ ctl.tokens.current.1) newToken)
        (ctl.freshDecision nonce gen token newToken e) := by
    rcases TokenWindow.generationForToken_eq_some.mp hg with hcur | ⟨hne, hprev⟩
    · have hgen : ctl.tokens.current.1 = gen := congrArg Prod.fst hcur
      refine ⟨by omega, .fromCurrent rfl ?_ ?_⟩
      · show gen + 1 = u64Succ ctl.tokens.current.1
        omega
      · show some ctl.tokens.current = some (gen, token)
        rw [hcur]
    · have hlt : gen < ctl.tokens.current.1 := h.previous_lt _ hprev
      refine ⟨by omega, .fromPrevious ctl.tokens.current.1 ctl.tokens.current.2 rfl ?_ hlt rfl hne⟩
      exact hsucc.symm
  refine ⟨?_, ?_, ?_, ?_, ?_⟩
  · intro p hp
    obtain rfl : ctl.tokens.current = p := some.inj hp
    show ctl.tokens.current.1 < u64Succ ctl.tokens.current.1
    omega
  all_goals
    intro p hp
    obtain rfl := some.inj hp
  · exact he
  · show gen < u64Succ ctl.tokens.current.1
    have := hplace.1
    omega
  · exact Nat.le_refl _
  · exact hplace.2

theorem WindowInv.rotateToken (h : WindowInv ctl) (g : Nat) (token : Token) :
    WindowInv (ctl.rotateToken g token) := by
  by_cases hlt : ctl.tokens.current.1 < g
  · rw [ResumeCtl.rotateToken_of_lt hlt]
    refine ⟨?_, h.pending_epoch, h.pending_gen, fun p hp => ?_, fun p hp => ?_⟩
    · intro p hp
      obtain rfl : ctl.tokens.current = p := some.inj hp
      exact hlt
    · exact Nat.le_trans (h.pending_le p hp) (Nat.le_of_lt hlt)
    · refine .rotatedSince (Nat.lt_of_le_of_lt (h.pending_le p hp) hlt) fun q hq => ?_
      obtain rfl : ctl.tokens.current = q := some.inj hq
      exact h.pending_le p hp
  · have hsame : ctl.rotateToken g token = ctl := by
      unfold ResumeCtl.rotateToken
      split
      · rfl
      · exact if_pos (Nat.not_lt.mp hlt)
    rw [hsame]
    exact h

theorem WindowInv.noteConfirmed (h : WindowInv ctl) (owner : Nat) :
    WindowInv (ctl.noteConfirmed owner) := by
  unfold ResumeCtl.noteConfirmed
  split
  · exact .of_pending_none rfl nofun
  · exact h

theorem WindowInv.new (token : Token) : WindowInv (ResumeCtl.new token) :=
  .of_pending_none rfl nofun

theorem WindowInv.step {op : ResumeOp} (h : WindowInv s.ctl) (hfit : CountersFit s op)
    (hstep : s.step op = some s') : WindowInv s'.ctl := by
  cases op with
  | decideResume nonce token newToken e =>
    obtain ⟨he, d, ctl', hd, rfl⟩ := ResumeLog.step_decideResume hstep
    rcases ResumeCtl.decideResumeWithEpoch_cases he hd with
      ⟨p, -, -, -, rfl⟩ | ⟨gen, hg, rfl, rfl⟩
    · exact h
    · exact h.afterRotation he hfit.1 hg.1
  | installChannel epoch decision expected =>
    obtain ⟨⟨owner, ctl'⟩, hi, rfl⟩ := map_eq_some_iff.mp hstep
    obtain ⟨-, -, htok, hpend, -⟩ := ResumeCtl.installChannel_eq_some hi
    exact h.of_eq htok hpend
  | noteConfirmed owner =>
    obtain rfl := some.inj hstep
    exact h.noteConfirmed owner
  | rotateToken g token =>
    obtain rfl := some.inj hstep
    exact h.rotateToken g.toNat token
  | observeRemoteEpoch epoch =>
    obtain ⟨ctl', ho, rfl⟩ := map_eq_some_iff.mp hstep
    rw [ResumeCtl.observeRemoteEpoch_eq_some ho]
    exact h.of_eq rfl rfl

/-! ## A retry is cached exactly when its token resolves as before -/

theorem idempotent_iff_generationForToken (hp : ctl.pending = some p)
    (he : p.decision.remoteEpoch ≠ 0) :
    Idempotent ctl p.decision ↔
      ctl.tokens.generationForToken p.decision.fromToken = some p.decision.fromGeneration := by
  have hhit : ctl.pendingHit p.decision.nonce p.decision.fromGeneration p.decision.fromToken
      p.decision.remoteEpoch = some p.decision := by
    simp [ResumeCtl.pendingHit, hp]
  constructor
  · intro h
    obtain ⟨d', ctl', hd, -, -, hcached, -⟩ := h p.decision.resultToken
    cases hg : ctl.tokens.generationForToken p.decision.fromToken with
    | none => rw [ResumeCtl.decideResumeWithEpoch_eq_none he hg] at hd; cases hd
    | some gen =>
      by_cases hgen : gen = p.decision.fromGeneration
      · rw [hgen]
      · -- resolved to another generation: the pending decision is not hit, so not cached
        have hmiss : ctl.pendingHit p.decision.nonce gen p.decision.fromToken
            p.decision.remoteEpoch = none := by
          simp [ResumeCtl.pendingHit, hp, Ne.symm hgen]
        rw [ResumeCtl.decideResumeWithEpoch_of_generationForToken he hg, hmiss] at hd
        dsimp only at hd
        split at hd
        · cases hd
        · simp only [some.injEq, Prod.mk.injEq] at hd
          rw [← hd.1] at hcached
          cases hcached
  · intro hg newToken
    refine ⟨{ p.decision with cached := true }, ctl, ?_, rfl, rfl, rfl, rfl, rfl, rfl⟩
    rw [ResumeCtl.decideResumeWithEpoch_of_generationForToken he hg, hhit]

theorem idempotent_iff (h : WindowInv ctl) (hp : ctl.pending = some p) :
    Idempotent ctl p.decision ↔ DecidedFromCurrent ctl p.decision := by
  rw [idempotent_iff_generationForToken hp (h.pending_epoch p hp),
    TokenWindow.generationForToken_eq_some]
  have hgen := h.pending_gen p hp
  have hle := h.pending_le p hp
  have hplace := h.pending_place p hp
  constructor
  · rintro (hcur | ⟨hne, hprev⟩)
    · -- the token cannot be `current`'s: the result is newer than what it came from
      have := congrArg Prod.fst hcur
      simp only at this
      omega
    · cases hplace with
      | fromCurrent hcur hsucc _ =>
        refine ⟨hsucc, ?_, hcur⟩
        rw [hcur] at hne
        exact fun heq => hne heq.symm
      | fromPrevious g t hcur hsucc hlt hprev' htok =>
        rw [hprev] at hprev'
        exact absurd (congrArg Prod.snd (some.inj hprev')).symm htok
      | rotatedSince hlt hprev' =>
        have := hprev' _ hprev
        simp only at this
        omega
  · rintro ⟨hsucc, hne, hcur⟩
    refine Or.inr ⟨by rw [hcur]; exact hne.symm, ?_⟩
    cases hplace with
    | fromCurrent _ _ hprev => exact hprev
    | fromPrevious g t _ hsucc' hlt _ _ => omega
    | rotatedSince hlt _ =>
      have := congrArg Prod.fst hcur
      simp only at this
      omega

/-! ## Leases and generations of the decisions issued -/

structure LogInv (s : ResumeLog) : Prop where
  issued_le : ∀ d ∈ s.issued,
    d.leaseId ≤ s.ctl.nextLease ∧ d.resultGeneration ≤ s.ctl.tokens.current.1
  pending_le : ∀ p ∈ s.ctl.pending,
    p.decision.leaseId ≤ s.ctl.nextLease
      ∧ p.decision.resultGeneration ≤ s.ctl.tokens.current.1
  pending_grows : ∀ p ∈ s.ctl.pending, ∀ d ∈ s.issued, Grows p.decision d
  issued_grows : s.issued.Pairwise Grows

/-- Only the pending decision, the lease and the window's generation are read, and the last
two may grow. -/
theorem LogInv.of_le (h : LogInv s) (hissued : s'.issued = s.issued)
    (hpend : ∀ p' ∈ s'.ctl.pending, ∃ p ∈ s.ctl.pending, p.decision = p'.decision)
    (hlease : s.ctl.nextLease ≤ s'.ctl.nextLease)
    (hgen : s.ctl.tokens.current.1 ≤ s'.ctl.tokens.current.1) : LogInv s' := by
  refine ⟨fun d hd => ?_, fun p' hp' => ?_, fun p' hp' d hd => ?_, hissued ▸ h.issued_grows⟩
  · have := h.issued_le d (hissued ▸ hd)
    omega
  · obtain ⟨p, hp, heq⟩ := hpend p' hp'
    have := h.pending_le p hp
    rw [← heq]
    omega
  · obtain ⟨p, hp, heq⟩ := hpend p' hp'
    exact heq ▸ h.pending_grows p hp d (hissued ▸ hd)

theorem LogInv.afterRotation (h : LogInv s) {gen : Nat}
    (hfit : s.ctl.tokens.current.1 + 1 < 2 ^ 64 ∧ s.ctl.nextLease + 1 < 2 ^ 64) :
    LogInv
      { ctl := s.ctl.afterRotation (s.ctl.freshDecision nonce gen token newToken e)
        issued := s.ctl.freshDecision nonce gen token newToken e :: s.issued } := by
  set d := s.ctl.freshDecision nonce gen token newToken e with hd
  have hgen : d.resultGeneration = s.ctl.tokens.current.1 + 1 := u64Succ_eq hfit.1
  have hlease : d.leaseId = s.ctl.nextLease + 1 := u64SaturatingSucc_eq hfit.2
  have hgrows : ∀ d' ∈ s.issued, Grows d d' := by
    intro d' hd' _
    have := h.issued_le d' hd'
    omega
  have hle : ∀ d' ∈ d :: s.issued,
      d'.leaseId ≤ d.leaseId ∧ d'.resultGeneration ≤ d.resultGeneration := by
    intro d' hd'
    rcases List.mem_cons.mp hd' with rfl | hd'
    · exact ⟨Nat.le_refl _, Nat.le_refl _⟩
    · have := h.issued_le d' hd'
      omega
  refine ⟨hle, ?_, ?_, List.pairwise_cons.mpr ⟨hgrows, h.issued_grows⟩⟩
  · intro p hp
    obtain rfl := some.inj hp
    exact ⟨Nat.le_refl _, Nat.le_refl _⟩
  · intro p hp d' hd'
    obtain rfl := some.inj hp
    rcases List.mem_cons.mp hd' with rfl | hd'
    · exact fun hne => absurd rfl hne
    · exact hgrows d' hd'

theorem LogInv.cached (h : LogInv s) (hp : s.ctl.pending = some p) :
    LogInv { s with issued := { p.decision with cached := true } :: s.issued } := by
  refine ⟨?_, h.pending_le, ?_,
    List.pairwise_cons.mpr ⟨fun d hd => h.pending_grows p hp d hd, h.issued_grows⟩⟩
  · intro d hd
    rcases List.mem_cons.mp hd with rfl | hd
    · exact h.pending_le p hp
    · exact h.issued_le d hd
  · intro p' hp' d hd
    obtain rfl : p = p' := some.inj (hp.symm.trans hp')
    rcases List.mem_cons.mp hd with rfl | hd
    · exact fun hne => absurd rfl hne
    · exact h.pending_grows p hp d hd

theorem LogInv.step {op : ResumeOp} (h : LogInv s) (hfit : CountersFit s op)
    (hstep : s.step op = some s') : LogInv s' := by
  cases op with
  | decideResume nonce token newToken e =>
    obtain ⟨he, d, ctl', hd, rfl⟩ := ResumeLog.step_decideResume hstep
    rcases ResumeCtl.decideResumeWithEpoch_cases he hd with
      ⟨p, hp, -, rfl, rfl⟩ | ⟨gen, hg, rfl, rfl⟩
    · exact h.cached hp
    · exact h.afterRotation hfit
  | installChannel epoch decision expected =>
    obtain ⟨⟨owner, ctl'⟩, hi, rfl⟩ := map_eq_some_iff.mp hstep
    obtain ⟨-, -, htok, hpend, -, -, hlease, -⟩ := ResumeCtl.installChannel_eq_some hi
    refine h.of_le rfl (fun p' hp' => ?_) (Nat.le_of_eq hlease.symm) (by rw [htok])
    have hmem : p'.decision ∈ s.ctl.pending.map PendingResume.decision :=
      hpend ▸ mem_map_of_mem _ hp'
    exact mem_map.mp hmem
  | noteConfirmed owner =>
    obtain rfl := some.inj hstep
    unfold ResumeCtl.noteConfirmed
    split
    · exact h.of_le rfl nofun (Nat.le_refl _) (Nat.le_refl _)
    · exact h
  | rotateToken g token =>
    obtain rfl := some.inj hstep
    unfold ResumeCtl.rotateToken
    split
    · exact h
    · split
      · exact h
      · next hlt =>
        exact h.of_le rfl (fun p hp => ⟨p, hp, rfl⟩) (Nat.le_refl _)
          (Nat.le_of_lt (Nat.not_le.mp hlt))
  | observeRemoteEpoch epoch =>
    obtain ⟨ctl', ho, rfl⟩ := map_eq_some_iff.mp hstep
    rw [ResumeCtl.observeRemoteEpoch_eq_some ho]
    exact h.of_le rfl (fun p hp => ⟨p, hp, rfl⟩) (Nat.le_refl _) (Nat.le_refl _)

theorem LogInv.new (token : Token) :
    LogInv { ctl := ResumeCtl.new token, issued := [] } := by
  refine ⟨fun d hd => ?_, fun p hp => ?_, fun p hp => ?_, List.Pairwise.nil⟩
  · cases hd
  · cases hp
  · cases hp

/-! ## Over every run -/

/-- **A retry returns the pending decision iff that was decided from `current`.** In every
run, the retry of the pending decision is idempotent exactly when the decision was taken
from the current credential (with another token drawn than the one presented) and its
result is still current; and of any two decisions with different nonces the later one has
the larger lease and the larger generation. -/
theorem resume_retry_iff {s : ResumeLog} (h : resumeMachine.ReachableUnder CountersFit s) :
    (∀ p, s.ctl.pending = some p →
        (Idempotent s.ctl p.decision ↔ DecidedFromCurrent s.ctl p.decision))
      ∧ s.issued.Pairwise Grows := by
  have hwin : WindowInv s.ctl := by
    refine h.invariant (I := fun s => WindowInv s.ctl) ?_ ?_
    · rintro _ ⟨token, rfl⟩
      exact WindowInv.new token
    · intro s op s' hs hfit hstep
      exact hs.step hfit hstep
  have hlog : LogInv s := by
    refine h.invariant ?_ ?_
    · rintro _ ⟨token, rfl⟩
      exact LogInv.new token
    · intro s op s' hs hfit hstep
      exact hs.step hfit hstep
  exact ⟨fun p hp => idempotent_iff hwin hp, hlog.issued_grows⟩

theorem resume_retry_first :
    ∃ s p, resumeMachine.ReachableUnder CountersFit s ∧ s.ctl.pending = some p
      ∧ Idempotent s.ctl p.decision := by
  have hreach := ReachableUnder.step (M := resumeMachine) (G := CountersFit)
    (l := .decideResume (.ofNat 16 7) (.ofNat 16 1) (.ofNat 16 2) 1)
    (.init ⟨.ofNat 16 1, rfl⟩) ⟨by decide, by decide⟩ rfl
  refine ⟨_, _, hreach, rfl, ((resume_retry_iff hreach).1 _ rfl).mpr ⟨?_, ?_, ?_⟩⟩
  · rfl
  · decide +kernel
  · rfl

/-- Two campaigns in a row whose RESUME_OKs are lost: the second is decided from
`previous`, and its own retry is refused. -/
theorem resume_retry_from_previous_refused :
    ∃ s p,
      resumeMachine.run { ctl := ResumeCtl.new (.ofNat 16 1), issued := [] }
          [.decideResume (.ofNat 16 7) (.ofNat 16 1) (.ofNat 16 2) 1,
           .decideResume (.ofNat 16 8) (.ofNat 16 1) (.ofNat 16 3) 1] = some s
        ∧ resumeMachine.Reachable s ∧ s.ctl.pending = some p
        ∧ p.decision.nonce = .ofNat 16 8
        ∧ ¬Idempotent s.ctl p.decision := by
  have hrun : resumeMachine.run { ctl := ResumeCtl.new (.ofNat 16 1), issued := [] }
      [.decideResume (.ofNat 16 7) (.ofNat 16 1) (.ofNat 16 2) 1,
       .decideResume (.ofNat 16 8) (.ofNat 16 1) (.ofNat 16 3) 1] = some _ := rfl
  refine ⟨_, _, hrun, reachable_of_run ⟨_, rfl⟩ hrun, rfl, rfl, fun h => ?_⟩
  -- the window holds generations 3 and 2; the token presented was generation 1
  obtain ⟨d', ctl', hd, -⟩ := h (.ofNat 16 4)
  rw [ResumeCtl.decideResumeWithEpoch_eq_none (by decide) (by decide +kernel)] at hd
  cases hd

end Dweb
