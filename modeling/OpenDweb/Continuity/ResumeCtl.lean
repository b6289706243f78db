import OpenDweb.Lib.Bytes

/-!
# OpenDweb — resume control: the token window and the RESUME decision

`ResumeCtl` is everything a RESUME reads and writes under one lock: the two-generation
token window, the pending decision kept for a retry whose `RESUME_OK` was lost, the lease
counter, the highest peer epoch seen and the owner of the winning channel.

* **`decideResumeWithEpoch`** — the provider's decision. A retry that repeats the pending
  decision's nonce, credential and epoch gets the cached result; any other accepted
  credential rotates the window.
* **`decideResumeWithEpoch_cases`** — all the production entry (epoch nonzero) can do:
  repeat the pending decision, or rotate.
* **`decideResumeWithEpoch_isSome`** — it accepts every token the window still holds
  unless `resumeEpochIsStale` says the attempt is stale.

Generations and leases are `u64`: the generation wraps as a release build does, the lease
saturates as the source writes.
-/

namespace Dweb

open Option

/-- A resume credential, `[u8; 16]`. -/
abbrev Token := BytesN 16

/-- A resume campaign's nonce, `[u8; 16]`. -/
abbrev Nonce := BytesN 16

/-- `x + 1` on `u64`. -/
def u64Succ (x : Nat) : Nat := (x + 1) % 2 ^ 64

/-- `x.saturating_add(1)` on `u64`. -/
def u64SaturatingSucc (x : Nat) : Nat := min (x + 1) (2 ^ 64 - 1)

theorem u64Succ_eq {x : Nat} (h : x + 1 < 2 ^ 64) : u64Succ x = x + 1 :=
  Nat.mod_eq_of_lt h

theorem u64SaturatingSucc_eq {x : Nat} (h : x + 1 < 2 ^ 64) : u64SaturatingSucc x = x + 1 := by
  unfold u64SaturatingSucc
  omega

/-! ## The token window -/

-- a generation and its token are compared as a pair; the search for the instance is long
instance : DecidableEq (Nat × Token) := instDecidableEqProd

/-- Two generations of `(generation, token)`. -/
structure TokenWindow where
  current : Nat × Token
  previous : Option (Nat × Token)
  deriving DecidableEq

namespace TokenWindow

def new (token : Token) : TokenWindow := { current := (1, token), previous := none }

/-- The old `current` becomes `previous`; what was `previous` is pushed out. -/
def rotate (w : TokenWindow) (newGeneration : Nat) (newToken : Token) : TokenWindow :=
  { current := (newGeneration, newToken), previous := some w.current }

/-- Check and rotate in one step; `none` is `TOKEN_INVALID`. -/
def tryRotate (w : TokenWindow) (generation : Nat) (token newToken : Token) :
    Option (TokenWindow × Nat × Token) :=
  let currentMatch := w.current.1 = generation ∧ w.current.2 = token
  let previousMatch := w.previous = some (generation, token)
  if ¬currentMatch ∧ ¬previousMatch then none
  else
    let newGeneration := u64Succ w.current.1
    some (w.rotate newGeneration newToken, newGeneration, newToken)

def clearPrevious (w : TokenWindow) : TokenWindow := { w with previous := none }

def currentGeneration (w : TokenWindow) : Nat := w.current.1

def generationForToken (w : TokenWindow) (token : Token) : Option Nat :=
  if w.current.2 = token then some w.current.1
  else w.previous.bind fun p => if p.2 = token then some p.1 else none

theorem generationForToken_eq_some {w : TokenWindow} {token : Token} {g : Nat} :
    w.generationForToken token = some g ↔
      w.current = (g, token) ∨ (w.current.2 ≠ token ∧ w.previous = some (g, token)) := by
  obtain ⟨⟨g₀, t₀⟩, previous⟩ := w
  unfold generationForToken
  by_cases h : t₀ = token
  · simp [h]
  · simp only [h, if_false, bind_eq_some_iff, Prod.mk.injEq, and_false, false_or, ne_eq,
      not_false_eq_true, true_and]
    constructor
    · rintro ⟨⟨g₁, t₁⟩, hp, hif⟩
      split at hif
      · next ht =>
        simp only [some.injEq] at hif
        rw [hp, ← hif, ← ht]
      · cases hif
    · intro hp
      exact ⟨_, hp, if_pos rfl⟩

theorem tryRotate_of_generationForToken {w : TokenWindow} {token newToken : Token} {g : Nat}
    (h : w.generationForToken token = some g) :
    w.tryRotate g token newToken
      = some (w.rotate (u64Succ w.current.1) newToken, u64Succ w.current.1, newToken) := by
  unfold tryRotate
  rw [if_neg]
  intro hno
  rcases generationForToken_eq_some.mp h with hcur | ⟨_, hprev⟩
  · exact hno.1 ⟨congrArg Prod.fst hcur, congrArg Prod.snd hcur⟩
  · exact hno.2 hprev

end TokenWindow

/-! ## Decisions -/

/-- One decision: the identity an install is later checked against. -/
structure ResumeDecision where
  nonce : Nonce
  fromGeneration : Nat
  fromToken : Token
  resultGeneration : Nat
  resultToken : Token
  leaseId : Nat
  remoteEpoch : Nat
  cached : Bool
  deriving DecidableEq

/-- The decision kept for a retry, with the channel it installed, if any. -/
structure PendingResume where
  decision : ResumeDecision
  installedOwner : Option Nat
  deriving DecidableEq

/-- Equal in everything but `cached`. -/
def decisionMatchesPending (pending decision : ResumeDecision) : Prop :=
  pending.leaseId = decision.leaseId
    ∧ pending.nonce = decision.nonce
    ∧ pending.fromGeneration = decision.fromGeneration
    ∧ pending.fromToken = decision.fromToken
    ∧ pending.resultGeneration = decision.resultGeneration
    ∧ pending.resultToken = decision.resultToken
    ∧ pending.remoteEpoch = decision.remoteEpoch

instance (pending decision : ResumeDecision) :
    Decidable (decisionMatchesPending pending decision) := by
  unfold decisionMatchesPending
  infer_instance

/-! ## Resume control -/

inductive SessionPhase where
  | negotiating | active | recovering | dead | closed
  deriving DecidableEq

structure ResumeCtl where
  tokens : TokenWindow
  phase : SessionPhase
  activeEpoch : Nat
  channelOwner : Nat
  pending : Option PendingResume
  previousLive : Bool
  lastSeenRemoteEpoch : Nat
  nextLease : Nat
  confirmationOwner : Option Nat
  deriving DecidableEq

namespace ResumeCtl

/-- The control record of a fresh `SessionShared`. -/
def new (token : Token) : ResumeCtl where
  tokens := TokenWindow.new token
  phase := .negotiating
  activeEpoch := 0
  channelOwner := 0
  pending := none
  previousLive := false
  lastSeenRemoteEpoch := 0
  nextLease := 0
  confirmationOwner := none

/-- The generation a presented token is taken for. RESUME_INIT carries none, so with an
epoch it is looked up; only the unit-test entry (epoch zero) passes its own. -/
def effectiveGeneration (ctl : ResumeCtl) (generation : Nat) (token : Token)
    (remoteEpoch : Nat) : Option Nat :=
  if remoteEpoch ≠ 0 then ctl.tokens.generationForToken token else some generation

/-- The pending decision, when the attempt repeats it. -/
def pendingHit (ctl : ResumeCtl) (nonce : Nonce) (generation : Nat) (token : Token)
    (remoteEpoch : Nat) : Option ResumeDecision :=
  ctl.pending.bind fun p =>
    if p.decision.nonce = nonce ∧ p.decision.fromGeneration = generation
        ∧ p.decision.fromToken = token
        ∧ (remoteEpoch = 0 ∨ p.decision.remoteEpoch = remoteEpoch) then
      some p.decision
    else none

def commitDecision (ctl : ResumeCtl) (tokens : TokenWindow) (decision : ResumeDecision) :
    ResumeCtl :=
  { ctl with
    tokens := tokens
    nextLease := decision.leaseId
    pending := some { decision := decision, installedOwner := none }
    lastSeenRemoteEpoch :=
      if decision.remoteEpoch ≠ 0 then decision.remoteEpoch else ctl.lastSeenRemoteEpoch
    previousLive := true
    confirmationOwner := none }

/-- The provider's RESUME decision. `none` leaves the control record untouched. -/
def decideResumeWithEpoch (ctl : ResumeCtl) (nonce : Nonce) (generation : Nat)
    (token newToken : Token) (remoteEpoch : Nat) : Option (ResumeDecision × ResumeCtl) :=
  match ctl.effectiveGeneration generation token remoteEpoch with
  | none => none
  | some effective =>
    match ctl.pendingHit nonce effective token remoteEpoch with
    | some d => some ({ d with cached := true }, ctl)
    | none =>
      if remoteEpoch ≠ 0 ∧ remoteEpoch < ctl.lastSeenRemoteEpoch then none
      else
        match ctl.tokens.tryRotate effective token newToken with
        | none => none
        | some (tokens, g, t) =>
          let decision : ResumeDecision :=
            { nonce := nonce, fromGeneration := effective, fromToken := token,
              resultGeneration := g, resultToken := t,
              leaseId := u64SaturatingSucc ctl.nextLease,
              remoteEpoch := remoteEpoch, cached := false }
          some (decision, ctl.commitDecision tokens decision)

/-- Whether a refused attempt is reported as `STALE_EPOCH`. -/
def resumeEpochIsStale (ctl : ResumeCtl) (nonce : Nonce) (generation : Nat) (token : Token)
    (remoteEpoch : Nat) : Bool :=
  let effective := (ctl.effectiveGeneration generation token remoteEpoch).getD generation
  if (ctl.pendingHit nonce effective token remoteEpoch).isSome then false
  else remoteEpoch ≠ 0 && remoteEpoch < ctl.lastSeenRemoteEpoch

/-- The checks `install_channel` makes in its critical section: the client's expected
generation still stands, and the decision is still the pending one. -/
def installAllowed (ctl : ResumeCtl) (decision : Option ResumeDecision)
    (expectedGeneration : Option Nat) : Prop :=
  (∀ g ∈ expectedGeneration, ctl.tokens.currentGeneration = g)
    ∧ ∀ d ∈ decision, ∃ p ∈ ctl.pending,
        decisionMatchesPending p.decision d ∧ (d.cached = true ∨ p.installedOwner = none)

instance (ctl : ResumeCtl) (decision : Option ResumeDecision) (expected : Option Nat) :
    Decidable (ctl.installAllowed decision expected) := by
  unfold installAllowed
  infer_instance

/-- The critical section of `install_channel`: the new owner and the record, or `none` when
the candidate transport is only half-closed. -/
def installChannel (ctl : ResumeCtl) (epoch : Nat) (decision : Option ResumeDecision)
    (expectedGeneration : Option Nat) : Option (Nat × ResumeCtl) :=
  if ctl.installAllowed decision expectedGeneration then
    let owner := ctl.channelOwner + 1
    some (owner,
      { ctl with
        channelOwner := owner
        activeEpoch := epoch
        pending :=
          if decision.isSome then
            ctl.pending.map fun p => { p with installedOwner := some owner }
          else ctl.pending
        confirmationOwner := if ctl.previousLive then some owner else ctl.confirmationOwner })
  else none

/-- The client's rotation on RESUME_OK. A late one never moves the credential back. -/
def rotateToken (ctl : ResumeCtl) (newGeneration : Nat) (newToken : Token) : ResumeCtl :=
  if ctl.tokens.current = (newGeneration, newToken) then ctl
  else if newGeneration ≤ ctl.tokens.currentGeneration then ctl
  else
    { ctl with
      tokens := ctl.tokens.rotate newGeneration newToken
      previousLive := true
      confirmationOwner := none }

/-- Record a peer epoch; `none` for a zero or an older one. -/
def observeRemoteEpoch (ctl : ResumeCtl) (epoch : Nat) : Option ResumeCtl :=
  if epoch = 0 then none
  else if epoch < ctl.lastSeenRemoteEpoch then none
  else some { ctl with lastSeenRemoteEpoch := epoch }

/-- First delivery or ACK on the channel of `owner`: pending and `previous` are dropped.
Only the owner that awaits confirmation counts. -/
def noteConfirmed (ctl : ResumeCtl) (owner : Nat) : ResumeCtl :=
  if ctl.previousLive ∧ ctl.channelOwner = owner ∧ ctl.confirmationOwner = some owner then
    { ctl with
      pending := none
      tokens := ctl.tokens.clearPrevious
      previousLive := false
      confirmationOwner := none }
  else ctl

/-! ## What each operation does -/

variable {ctl ctl' : ResumeCtl} {nonce : Nonce} {g e gen : Nat} {token newToken : Token}

theorem pendingHit_eq_some {d : ResumeDecision} (h : ctl.pendingHit nonce g token e = some d) :
    ∃ p, ctl.pending = some p ∧ d = p.decision ∧ d.nonce = nonce ∧ d.fromGeneration = g
      ∧ d.fromToken = token := by
  unfold pendingHit at h
  obtain ⟨p, hp, hif⟩ := bind_eq_some_iff.mp h
  split at hif
  · next hc =>
    simp only [some.injEq] at hif
    subst hif
    exact ⟨p, hp, rfl, hc.1, hc.2.1, hc.2.2.1⟩
  · cases hif

def freshDecision (ctl : ResumeCtl) (nonce : Nonce) (generation : Nat)
    (token newToken : Token) (remoteEpoch : Nat) : ResumeDecision where
  nonce := nonce
  fromGeneration := generation
  fromToken := token
  resultGeneration := u64Succ ctl.tokens.current.1
  resultToken := newToken
  leaseId := u64SaturatingSucc ctl.nextLease
  remoteEpoch := remoteEpoch
  cached := false

def afterRotation (ctl : ResumeCtl) (d : ResumeDecision) : ResumeCtl :=
  ctl.commitDecision (ctl.tokens.rotate d.resultGeneration d.resultToken) d

/-- The attempt's token resolves to `generation`, it does not repeat the pending decision and
its epoch is not older than the last one seen: it will rotate the window. -/
def Rotates (ctl : ResumeCtl) (nonce : Nonce) (generation : Nat) (token : Token)
    (remoteEpoch : Nat) : Prop :=
  ctl.tokens.generationForToken token = some generation
    ∧ ctl.pendingHit nonce generation token remoteEpoch = none
    ∧ ctl.lastSeenRemoteEpoch ≤ remoteEpoch

theorem decideResumeWithEpoch_of_generationForToken (he : e ≠ 0)
    (hg : ctl.tokens.generationForToken token = some gen) :
    ctl.decideResumeWithEpoch nonce g token newToken e =
      match ctl.pendingHit nonce gen token e with
      | some d => some ({ d with cached := true }, ctl)
      | none =>
        if e < ctl.lastSeenRemoteEpoch then none
        else
          some (ctl.freshDecision nonce gen token newToken e,
            ctl.afterRotation (ctl.freshDecision nonce gen token newToken e)) := by
  have heff : ctl.effectiveGeneration g token e = some gen := by
    rw [effectiveGeneration, if_pos he, hg]
  unfold decideResumeWithEpoch
  rw [heff]
  dsimp only
  cases ctl.pendingHit nonce gen token e with
  | some d => rfl
  | none =>
    rw [TokenWindow.tryRotate_of_generationForToken hg]
    simp only [ne_eq, he, not_false_eq_true, true_and]
    rfl

theorem decideResumeWithEpoch_of_rotates (g : Nat) (newToken : Token) (he : e ≠ 0)
    (h : ctl.Rotates nonce gen token e) :
    ctl.decideResumeWithEpoch nonce g token newToken e
      = some (ctl.freshDecision nonce gen token newToken e,
          ctl.afterRotation (ctl.freshDecision nonce gen token newToken e)) := by
  rw [decideResumeWithEpoch_of_generationForToken he h.1, h.2.1]
  exact if_neg (Nat.not_lt.mpr h.2.2)

theorem decideResumeWithEpoch_eq_none (he : e ≠ 0) (hg : ctl.tokens.generationForToken token = none) :
    ctl.decideResumeWithEpoch nonce g token newToken e = none := by
  unfold decideResumeWithEpoch
  rw [effectiveGeneration, if_pos he, hg]

/-- **All the production entry can do**: repeat the pending decision, or rotate. -/
theorem decideResumeWithEpoch_cases {d : ResumeDecision} (he : e ≠ 0)
    (h : ctl.decideResumeWithEpoch nonce g token newToken e = some (d, ctl')) :
    (∃ p, ctl.pending = some p ∧ p.decision.nonce = nonce ∧ d = { p.decision with cached := true }
        ∧ ctl' = ctl) ∨
    (∃ gen, ctl.Rotates nonce gen token e
        ∧ d = ctl.freshDecision nonce gen token newToken e ∧ ctl' = ctl.afterRotation d) := by
  cases hg : ctl.tokens.generationForToken token with
  | none => rw [decideResumeWithEpoch_eq_none he hg] at h; cases h
  | some gen =>
    rw [decideResumeWithEpoch_of_generationForToken he hg] at h
    split at h
    · next d₀ hhit =>
      obtain ⟨p, hp, rfl, hnonce, -, -⟩ := pendingHit_eq_some hhit
      simp only [some.injEq, Prod.mk.injEq] at h
      exact Or.inl ⟨p, hp, hnonce, h.1.symm, h.2.symm⟩
    · next hmiss =>
      split at h
      · cases h
      · next hle =>
        simp only [some.injEq, Prod.mk.injEq] at h
        refine Or.inr ⟨gen, ⟨hg, hmiss, Nat.not_lt.mp hle⟩, h.1.symm, ?_⟩
        rw [← h.2, ← h.1]

/-- **A held token is never refused** unless the attempt's epoch is stale. -/
theorem decideResumeWithEpoch_isSome (he : e ≠ 0)
    (hg : ctl.tokens.generationForToken token = some gen)
    (hstale : ctl.resumeEpochIsStale nonce g token e = false) :
    (ctl.decideResumeWithEpoch nonce g token newToken e).isSome := by
  rw [decideResumeWithEpoch_of_generationForToken he hg]
  have heff : ctl.effectiveGeneration g token e = some gen := by
    rw [effectiveGeneration, if_pos he, hg]
  unfold resumeEpochIsStale at hstale
  rw [heff] at hstale
  cases hhit : ctl.pendingHit nonce gen token e with
  | some d => rfl
  | none =>
    have hle : ¬e < ctl.lastSeenRemoteEpoch := by
      simpa [hhit, he] using hstale
    simp [hle]

theorem installChannel_eq_some {epoch owner : Nat} {decision : Option ResumeDecision}
    {expected : Option Nat} (h : ctl.installChannel epoch decision expected = some (owner, ctl')) :
    owner = ctl.channelOwner + 1 ∧ ctl'.channelOwner = owner ∧ ctl'.tokens = ctl.tokens
      ∧ ctl'.pending.map PendingResume.decision = ctl.pending.map PendingResume.decision
      ∧ ctl'.confirmationOwner
          = (if ctl.previousLive then some owner else ctl.confirmationOwner)
      ∧ ctl'.previousLive = ctl.previousLive ∧ ctl'.nextLease = ctl.nextLease
      ∧ ∀ d ∈ decision, ∃ p ∈ ctl.pending, decisionMatchesPending p.decision d := by
  unfold installChannel at h
  split at h
  · next hok =>
    simp only [some.injEq, Prod.mk.injEq] at h
    obtain ⟨rfl, rfl⟩ := h
    refine ⟨rfl, rfl, rfl, ?_, rfl, rfl, rfl, fun d hd => ?_⟩
    · dsimp only
      split
      · rw [map_map]; rfl
      · rfl
    · obtain ⟨p, hp, hmatch, _⟩ := hok.2 d hd
      exact ⟨p, hp, hmatch⟩
  · cases h

theorem rotateToken_of_lt (h : ctl.tokens.current.1 < g) :
    ctl.rotateToken g token
      = { ctl with
          tokens := ctl.tokens.rotate g token
          previousLive := true
          confirmationOwner := none } := by
  unfold rotateToken
  rw [if_neg, if_neg]
  · simp only [TokenWindow.currentGeneration]; omega
  · intro heq
    rw [heq] at h
    exact absurd h (Nat.lt_irrefl _)

theorem observeRemoteEpoch_eq_some {epoch : Nat} (h : ctl.observeRemoteEpoch epoch = some ctl') :
    ctl' = { ctl with lastSeenRemoteEpoch := epoch } := by
  unfold observeRemoteEpoch at h
  split at h
  · cases h
  · split at h
    · cases h
    · simpa using h.symm

end ResumeCtl

end Dweb
