import OpenDweb.Lib.Machine
import OpenDweb.Continuity.ResumeCtl

/-!
# OpenDweb — a client resuming against a provider that may lose every answer

The client always presents its current token. Each attempt runs over a transport of its
own, and any RESUME_INIT, RESUME_OK or channel can be lost: a message that is lost is one
whose label never comes. The provider decides, installs the candidate channel and only then
sends RESUME_OK; the client sends its first data on that channel only after it took the OK,
so a confirmation of the new generation comes from a client that holds it.

* **`HandshakeInv`** — the client holds the provider's `current`, or its `previous` while
  every answer it could still take carries `current`.
* **`credential_safe`** — in every run that rotates the window only while the client holds
  `current`, the client's token stays in the window and its non-stale attempts are decided.
* **`rotation_strands_client_iff`** — that condition is exact: any other rotation drops the
  credential the client holds.
-/

namespace Dweb

open Machine
open List Option

/-! ## The system -/

/-- One attempt's transport: the RESUME_INIT it carries and how far it got. -/
structure ResumeTransport where
  nonce : Nonce
  token : Token
  epoch : Nat
  answered : Bool
  decision : Option ResumeDecision
  /-- The channel the provider installed on it; its RESUME_OK is then on the way. -/
  owner : Option Nat
  accepted : Bool

structure Handshake where
  client : ResumeCtl
  provider : ResumeCtl
  transports : List ResumeTransport

inductive HandshakeLabel where
  /-- The client opens a transport and sends RESUME_INIT; any nonce, old or new. -/
  | attempt (nonce : Nonce) (epoch : Nat)
  /-- The RESUME_INIT of transport `i` reaches the provider, which draws `newToken`. -/
  | decideResume (i : Nat) (newToken : Token)
  /-- The provider installs transport `i` and sends RESUME_OK on it. -/
  | installProvider (i : Nat) (epoch : Nat)
  /-- The RESUME_OK of transport `i` reaches the client. -/
  | acceptOk (i : Nat) (acceptedEpoch : Nat)
  /-- The client installs the channel it expects to be of generation `expected`. -/
  | installClient (epoch : Nat) (expected : Nat)
  /-- The provider sees the first delivery or ACK on transport `i`. -/
  | confirmProvider (i : Nat)
  | confirmClient (owner : Nat)

namespace Handshake

def established (token : Token) (localEpoch remoteEpoch : Nat) : ResumeCtl :=
  { ResumeCtl.new token with
    channelOwner := 1, activeEpoch := localEpoch, lastSeenRemoteEpoch := remoteEpoch }

def step (s : Handshake) : HandshakeLabel → Option Handshake
  | .attempt nonce epoch =>
    if epoch = 0 then none
    else
      some { s with
        transports := s.transports ++
          [{ nonce := nonce, token := s.client.tokens.current.2, epoch := epoch,
             answered := false, decision := none, owner := none, accepted := false }] }
  | .decideResume i newToken =>
    s.transports[i]?.bind fun t =>
      if t.answered then none
      else
        match s.provider.decideResumeWithEpoch t.nonce t.epoch t.token newToken t.epoch with
        | none => some { s with transports := s.transports.set i { t with answered := true } }
        | some (d, ctl) =>
          some { s with
            provider := ctl
            transports := s.transports.set i { t with answered := true, decision := some d } }
  | .installProvider i epoch =>
    s.transports[i]?.bind fun t =>
      t.decision.bind fun d =>
        if t.owner.isSome then none
        else
          (s.provider.installChannel epoch (some d) none).map fun r =>
            { s with
              provider := r.2
              transports := s.transports.set i { t with owner := some r.1 } }
  | .acceptOk i acceptedEpoch =>
    s.transports[i]?.bind fun t =>
      t.decision.bind fun d =>
        -- a response that is not newer closes its own transport only
        if t.owner = none ∨ t.accepted = true
            ∨ d.resultGeneration ≤ s.client.tokens.currentGeneration then none
        else
          (s.client.observeRemoteEpoch acceptedEpoch).map fun client =>
            { s with
              client := client.rotateToken d.resultGeneration d.resultToken
              transports := s.transports.set i { t with accepted := true } }
  | .installClient epoch expected =>
    (s.client.installChannel epoch none (some expected)).map fun r => { s with client := r.2 }
  | .confirmProvider i =>
    s.transports[i]?.bind fun t =>
      t.owner.bind fun owner =>
        if t.accepted then some { s with provider := s.provider.noteConfirmed owner } else none
  | .confirmClient owner => some { s with client := s.client.noteConfirmed owner }

end Handshake

def handshakeMachine : Machine Handshake HandshakeLabel where
  init s := ∃ token e₁ e₂ e₃ e₄, s =
    { client := Handshake.established token e₁ e₂
      provider := Handshake.established token e₃ e₄
      transports := [] }
  step := Handshake.step

/-! ## The credential the client holds -/

/-- The client's credential is one of the two the provider's window holds. -/
def Handshake.Matched (s : Handshake) : Prop :=
  s.provider.tokens.current = s.client.tokens.current
    ∨ s.provider.tokens.previous = some s.client.tokens.current

instance (s : Handshake) : Decidable s.Matched := inferInstanceAs (Decidable (_ ∨ _))

/-- An attempt with the client's token is decided unless its epoch is stale. -/
def Handshake.Decided (s : Handshake) : Prop :=
  ∀ nonce newToken epoch, epoch ≠ 0 →
    s.provider.resumeEpochIsStale nonce epoch s.client.tokens.current.2 epoch = false →
    (s.provider.decideResumeWithEpoch nonce epoch s.client.tokens.current.2 newToken
      epoch).isSome

/-- The window is rotated only while the client holds the provider's `current`, and only
while there is a next `u64` generation. -/
def ClientHoldsCurrent (s : Handshake) : HandshakeLabel → Prop
  | .decideResume i _ => ∀ t ∈ s.transports[i]?, ∀ gen,
      s.provider.Rotates t.nonce gen t.token t.epoch →
        s.provider.tokens.current = s.client.tokens.current
          ∧ s.provider.tokens.current.1 + 1 < 2 ^ 64
  | _ => True

variable {s : Handshake} {held : Nat × Token} {provider : ResumeCtl} {t : ResumeTransport}

theorem Handshake.Matched.decided (h : s.Matched) : s.Decided := by
  intro nonce newToken epoch he hstale
  have hres : ∃ gen, s.provider.tokens.generationForToken s.client.tokens.current.2
      = some gen := by
    by_cases hcur : s.provider.tokens.current.2 = s.client.tokens.current.2
    · exact ⟨s.provider.tokens.current.1,
        TokenWindow.generationForToken_eq_some.mpr (Or.inl (Prod.ext rfl hcur))⟩
    · rcases h with heq | hprev
      · exact absurd (congrArg Prod.snd heq) hcur
      · exact ⟨s.client.tokens.current.1,
          TokenWindow.generationForToken_eq_some.mpr (Or.inr ⟨hcur, hprev⟩)⟩
  obtain ⟨gen, hgen⟩ := hres
  exact ResumeCtl.decideResumeWithEpoch_isSome he hgen hstale

/-! ## The invariant -/

/-- What a transport may still do to a client holding `held`. -/
structure TransportOk (held : Nat × Token) (provider : ResumeCtl) (t : ResumeTransport) :
    Prop where
  epoch_ne : t.epoch ≠ 0
  unanswered : t.answered = false → t.decision = none ∧ t.owner = none ∧ t.accepted = false
  /-- An answer the client would still take carries the provider's `current`. -/
  offered : ∀ d ∈ t.decision, d.resultGeneration ≤ held.1
    ∨ (d.resultGeneration, d.resultToken) = provider.tokens.current
  owner_le : ∀ o ∈ t.owner, o ≤ provider.channelOwner
  /-- The channel awaiting confirmation was installed by the decision of `current`. -/
  awaiting : ∀ o ∈ t.owner, provider.confirmationOwner = some o →
    ∃ d ∈ t.decision, (d.resultGeneration, d.resultToken) = provider.tokens.current
  accepted_le : t.accepted = true → ∀ d ∈ t.decision, d.resultGeneration ≤ held.1

structure HandshakeInv (s : Handshake) : Prop where
  held : s.provider.tokens.current = s.client.tokens.current
    ∨ (s.provider.tokens.previous = some s.client.tokens.current
        ∧ s.client.tokens.current.1 < s.provider.tokens.current.1)
  pending : ∀ p ∈ s.provider.pending,
    (p.decision.resultGeneration, p.decision.resultToken) = s.provider.tokens.current
  transports : ∀ t ∈ s.transports, TransportOk s.client.tokens.current s.provider t

theorem HandshakeInv.matched (h : HandshakeInv s) : s.Matched := by
  rcases h.held with hcur | ⟨hprev, _⟩
  · exact Or.inl hcur
  · exact Or.inr hprev

theorem TransportOk.of_held_le {held' : Nat × Token} (h : TransportOk held provider t)
    (hle : held.1 ≤ held'.1) : TransportOk held' provider t := by
  refine ⟨h.epoch_ne, h.unanswered, fun d hd => ?_, h.owner_le, h.awaiting, fun ha d hd => ?_⟩
  · rcases h.offered d hd with hold | hcur
    · exact Or.inl (Nat.le_trans hold hle)
    · exact Or.inr hcur
  · exact Nat.le_trans (h.accepted_le ha d hd) hle

/-- A rotation of the window makes every answer on the way stale: they carried `current`,
which the client holds. -/
theorem TransportOk.afterRotation (h : TransportOk held provider t)
    (hheld : provider.tokens.current = held) (d : ResumeDecision) :
    TransportOk held (provider.afterRotation d) t := by
  refine ⟨h.epoch_ne, h.unanswered, fun d' hd' => ?_, h.owner_le,
    fun o _ hc => (by cases hc), h.accepted_le⟩
  rcases h.offered d' hd' with hold | hcur
  · exact Or.inl hold
  · rw [hheld] at hcur
    exact Or.inl (Nat.le_of_eq (congrArg Prod.fst hcur))

theorem TransportOk.noteConfirmed (h : TransportOk held provider t) (owner : Nat) :
    TransportOk held (provider.noteConfirmed owner) t := by
  unfold ResumeCtl.noteConfirmed
  split
  · exact ⟨h.epoch_ne, h.unanswered, h.offered, h.owner_le, fun o _ hc => (by cases hc),
      h.accepted_le⟩
  · exact h

theorem TransportOk.answered (he : t.epoch ≠ 0) (hnone : t.owner = none) (hacc : t.accepted = false)
    {decision : Option ResumeDecision}
    (hd : ∀ d ∈ decision, (d.resultGeneration, d.resultToken) = provider.tokens.current) :
    TransportOk held provider { t with answered := true, decision := decision } := by
  refine ⟨he, fun hans => (by cases hans), fun d hmem => Or.inr (hd d hmem), fun o ho => ?_,
    fun o ho => ?_, fun ha => ?_⟩
  · exact absurd (hnone.symm.trans ho) (by simp)
  · exact absurd (hnone.symm.trans ho) (by simp)
  · exact absurd (hacc.symm.trans ha) (by simp)

/-! ## One lemma a step -/

section Steps

variable {s s' : Handshake}

theorem HandshakeInv.attempt {nonce : Nonce} {epoch : Nat} (h : HandshakeInv s)
    (hstep : s.step (.attempt nonce epoch) = some s') : HandshakeInv s' := by
  rw [Handshake.step] at hstep
  split at hstep
  · cases hstep
  · obtain rfl := some.inj hstep
    refine ⟨h.held, h.pending, fun t ht => ?_⟩
    rcases mem_append.mp ht with ht | ht
    · exact h.transports t ht
    · obtain rfl := mem_singleton.mp ht
      refine ⟨‹_›, fun _ => ⟨rfl, rfl, rfl⟩, fun d hd => ?_, fun o ho => ?_, fun o ho => ?_, fun ha => ?_⟩
      · cases hd
      · cases ho
      · cases ho
      · cases ha

variable {i : Nat}

theorem Handshake.step_decideResume {newToken : Token}
    (hstep : s.step (.decideResume i newToken) = some s') :
    ∃ t, s.transports[i]? = some t ∧ t.answered = false ∧
      ((s' = { s with transports := s.transports.set i { t with answered := true } } ∧
          s.provider.decideResumeWithEpoch t.nonce t.epoch t.token newToken t.epoch = none) ∨
        ∃ d ctl,
          s' = { s with
            provider := ctl
            transports := s.transports.set i { t with answered := true, decision := some d } } ∧
          s.provider.decideResumeWithEpoch t.nonce t.epoch t.token newToken t.epoch
            = some (d, ctl)) := by
  obtain ⟨t, ht, hrest⟩ := bind_eq_some_iff.mp hstep
  obtain ⟨hans, hrest⟩ := ite_none_left_eq_some.mp hrest
  refine ⟨t, ht, Bool.not_eq_true _ ▸ hans, ?_⟩
  split at hrest
  · next hd => exact Or.inl ⟨(some.inj hrest).symm, hd⟩
  · next d ctl hd => exact Or.inr ⟨d, ctl, (some.inj hrest).symm, hd⟩

theorem HandshakeInv.decideResume {newToken : Token} (h : HandshakeInv s)
    (hguard : ClientHoldsCurrent s (.decideResume i newToken))
    (hstep : s.step (.decideResume i newToken) = some s') : HandshakeInv s' := by
  obtain ⟨t, ht, hans, ⟨rfl, -⟩ | ⟨d, ctl, rfl, hd⟩⟩ := Handshake.step_decideResume hstep
  all_goals
    have hok := h.transports t (mem_of_getElem? ht)
    obtain ⟨-, hnone, hacc⟩ := hok.unanswered hans
    have he := hok.epoch_ne
  · refine ⟨h.held, h.pending, forall_mem_set h.transports ?_⟩
    exact ⟨he, fun hans => (by cases hans), hok.offered, hok.owner_le, hok.awaiting,
      hok.accepted_le⟩
  · rcases ResumeCtl.decideResumeWithEpoch_cases he hd with
      ⟨p, hp, -, rfl, rfl⟩ | ⟨gen, hrot, rfl, rfl⟩
    · -- the cached answer repeats `current`
      refine ⟨h.held, h.pending, forall_mem_set h.transports (.answered he hnone hacc ?_)⟩
      intro d hd
      obtain rfl := some.inj hd
      exact h.pending p hp
    · -- the client holds `current`, which becomes `previous`
      obtain ⟨hheld, hfit⟩ := hguard t ht gen hrot
      have hsucc : u64Succ s.provider.tokens.current.1 = s.provider.tokens.current.1 + 1 :=
        u64Succ_eq hfit
      refine ⟨Or.inr ⟨congrArg some hheld, ?_⟩, ?_, forall_mem_set ?_ (.answered he hnone hacc ?_)⟩
      · show s.client.tokens.current.1 < u64Succ s.provider.tokens.current.1
        rw [← hheld]
        omega
      · intro p hp
        obtain rfl := some.inj hp
        rfl
      · exact fun t ht => (h.transports t ht).afterRotation hheld _
      · intro d hd
        obtain rfl := some.inj hd
        rfl

theorem HandshakeInv.installProvider {epoch : Nat} (h : HandshakeInv s)
    (hstep : s.step (.installProvider i epoch) = some s') : HandshakeInv s' := by
  obtain ⟨t, ht, hrest⟩ := bind_eq_some_iff.mp hstep
  obtain ⟨d, hd, hrest⟩ := bind_eq_some_iff.mp hrest
  obtain ⟨hvacant, hrest⟩ := ite_none_left_eq_some.mp hrest
  obtain ⟨⟨owner, ctl⟩, hi, rfl⟩ := map_eq_some_iff.mp hrest
  obtain ⟨rfl, hown, htok, hpend, hconf, hlive, -, hmatch⟩ :=
    ResumeCtl.installChannel_eq_some hi
  have hok := h.transports t (mem_of_getElem? ht)
  -- the decision still pending is the one whose result is `current`
  have hcur : (d.resultGeneration, d.resultToken) = s.provider.tokens.current := by
    obtain ⟨p, hp, -, -, -, -, hg, ht', -⟩ := hmatch d rfl
    rw [← h.pending p hp, hg, ht']
  have hold : ∀ t' ∈ s.transports, TransportOk s.client.tokens.current ctl t' := by
    intro t' ht'
    have hok' := h.transports t' ht'
    refine ⟨hok'.epoch_ne, hok'.unanswered, ?_, fun o ho => ?_, fun o ho hc => ?_,
      hok'.accepted_le⟩
    · rw [htok]; exact hok'.offered
    · have := hok'.owner_le o ho
      omega
    · -- an older owner is not the new one
      rw [htok]
      have hle := hok'.owner_le o ho
      rw [hconf] at hc
      split at hc
      · have := some.inj hc
        omega
      · exact hok'.awaiting o ho hc
  refine ⟨?_, ?_, forall_mem_set hold ?_⟩
  · show ctl.tokens.current = _ ∨ _
    rw [htok]
    exact h.held
  · intro p' hp'
    have hmem : p'.decision ∈ s.provider.pending.map PendingResume.decision :=
      hpend ▸ Option.mem_map_of_mem _ hp'
    obtain ⟨p, hp, heq⟩ := Option.mem_map.mp hmem
    show _ = ctl.tokens.current
    rw [htok, ← heq]
    exact h.pending p hp
  · have hok' := hold t (mem_of_getElem? ht)
    refine ⟨hok'.epoch_ne, fun hno => ?_, hok'.offered, fun o ho => ?_,
      fun o _ _ => ⟨d, hd, ?_⟩, hok'.accepted_le⟩
    · exact absurd (hd.symm.trans (hok.unanswered hno).1) (by simp)
    · obtain rfl := some.inj ho
      exact Nat.le_of_eq hown.symm
    · rw [htok]
      exact hcur

theorem HandshakeInv.acceptOk {e : Nat} (h : HandshakeInv s)
    (hstep : s.step (.acceptOk i e) = some s') : HandshakeInv s' := by
  obtain ⟨t, ht, hrest⟩ := bind_eq_some_iff.mp hstep
  obtain ⟨d, hd, hrest⟩ := bind_eq_some_iff.mp hrest
  obtain ⟨hnew, hrest⟩ := ite_none_left_eq_some.mp hrest
  obtain ⟨client, hobs, rfl⟩ := map_eq_some_iff.mp hrest
  have hlt : s.client.tokens.current.1 < d.resultGeneration := by
    by_contra hle
    exact hnew (Or.inr (Or.inr (Nat.not_lt.mp hle)))
  have hok := h.transports t (mem_of_getElem? ht)
  have hcur : (d.resultGeneration, d.resultToken) = s.provider.tokens.current := by
    rcases hok.offered d hd with hle | hcur
    · omega
    · exact hcur
  have hclient : (client.rotateToken d.resultGeneration d.resultToken).tokens.current
      = (d.resultGeneration, d.resultToken) := by
    have hsame : client.tokens = s.client.tokens := by
      rw [ResumeCtl.observeRemoteEpoch_eq_some hobs]
    rw [ResumeCtl.rotateToken_of_lt (by rw [hsame]; exact hlt)]
    rfl
  have hold : ∀ t' ∈ s.transports, TransportOk (d.resultGeneration, d.resultToken)
      s.provider t' :=
    fun t' ht' => (h.transports t' ht').of_held_le (Nat.le_of_lt hlt)
  refine ⟨Or.inl ?_, h.pending, ?_⟩
  · rw [hclient]
    exact hcur.symm
  · dsimp only
    rw [hclient]
    have hok' := hold t (mem_of_getElem? ht)
    refine forall_mem_set hold ⟨hok'.epoch_ne, fun hno => ?_, hok'.offered, hok'.owner_le,
      hok'.awaiting, fun _ d' hd' => ?_⟩
    · exact absurd (hok.unanswered hno).2.1 fun hnone => hnew (Or.inl hnone)
    · obtain rfl := some.inj (hd.symm.trans hd')
      exact Nat.le_refl _

theorem HandshakeInv.confirmProvider (h : HandshakeInv s)
    (hstep : s.step (.confirmProvider i) = some s') : HandshakeInv s' := by
  obtain ⟨t, ht, hrest⟩ := bind_eq_some_iff.mp hstep
  obtain ⟨owner, ho, hrest⟩ := bind_eq_some_iff.mp hrest
  obtain ⟨hacc, hrest⟩ := ite_none_right_eq_some.mp hrest
  obtain rfl := some.inj hrest
  have hok := h.transports t (mem_of_getElem? ht)
  have hall := fun t' ht' => (h.transports t' ht').noteConfirmed owner
  by_cases hconf : s.provider.confirmationOwner = some owner
  · -- the confirming client has accepted `current`, so it needs no `previous`
    obtain ⟨d, hd, hcur⟩ := hok.awaiting owner ho hconf
    have hle := hok.accepted_le hacc d hd
    have hheld : s.provider.tokens.current = s.client.tokens.current := by
      rcases h.held with heq | ⟨-, hlt⟩
      · exact heq
      · have := congrArg Prod.fst hcur
        simp only at this
        omega
    refine ⟨Or.inl ?_, ?_, hall⟩
    · show (s.provider.noteConfirmed owner).tokens.current = _
      rw [← hheld]
      unfold ResumeCtl.noteConfirmed
      split <;> rfl
    · dsimp only
      unfold ResumeCtl.noteConfirmed
      split
      · intro p hp
        cases hp
      · exact h.pending
  · have hsame : s.provider.noteConfirmed owner = s.provider :=
      if_neg fun hc => hconf hc.2.2
    rw [hsame]
    exact ⟨h.held, h.pending, h.transports⟩

theorem HandshakeInv.of_client (h : HandshakeInv s) {client : ResumeCtl}
    (hc : client.tokens.current = s.client.tokens.current) :
    HandshakeInv { s with client := client } :=
  ⟨hc.symm ▸ h.held, h.pending, hc.symm ▸ h.transports⟩

theorem HandshakeInv.step {l : HandshakeLabel} (h : HandshakeInv s)
    (hguard : ClientHoldsCurrent s l) (hstep : s.step l = some s') : HandshakeInv s' := by
  cases l with
  | attempt nonce epoch => exact h.attempt hstep
  | decideResume i newToken => exact h.decideResume hguard hstep
  | installProvider i epoch => exact h.installProvider hstep
  | acceptOk i e => exact h.acceptOk hstep
  | installClient epoch expected =>
    obtain ⟨⟨owner, client⟩, hi, rfl⟩ := map_eq_some_iff.mp hstep
    obtain ⟨-, -, htok, -⟩ := ResumeCtl.installChannel_eq_some hi
    exact h.of_client (by rw [htok])
  | confirmProvider i => exact h.confirmProvider hstep
  | confirmClient owner =>
    obtain rfl := some.inj hstep
    refine h.of_client ?_
    unfold ResumeCtl.noteConfirmed
    split <;> rfl

end Steps

theorem HandshakeInv.of_init (h : handshakeMachine.init s) : HandshakeInv s := by
  obtain ⟨token, e₁, e₂, e₃, e₄, rfl⟩ := h
  exact ⟨Or.inl rfl, fun p hp => (by cases hp), fun t ht => (by cases ht)⟩

/-! ## Every run -/

theorem HandshakeInv.of_reachable (h : handshakeMachine.ReachableUnder ClientHoldsCurrent s) :
    HandshakeInv s :=
  h.invariant (fun _ => HandshakeInv.of_init) fun _ _ _ hs hguard hstep => hs.step hguard hstep

/-- **The client's credential is never lost.** In every run in which the provider rotates its
window only while the client holds its `current`, whatever is lost on the way, the client's
credential is in the window and every attempt it makes with it is decided unless its epoch
is stale. -/
theorem credential_safe {s : Handshake}
    (h : handshakeMachine.ReachableUnder ClientHoldsCurrent s) : s.Matched ∧ s.Decided :=
  have hmatched := (HandshakeInv.of_reachable h).matched
  ⟨hmatched, hmatched.decided⟩

/-- **The condition is exact.** After a rotation the client's credential is in the window
only if it was `current`. -/
theorem rotation_strands_client_iff {s' : Handshake} {i gen : Nat} {newToken : Token}
    (h : handshakeMachine.ReachableUnder ClientHoldsCurrent s)
    (hfit : s.provider.tokens.current.1 + 1 < 2 ^ 64) (ht : s.transports[i]? = some t)
    (hrot : s.provider.Rotates t.nonce gen t.token t.epoch)
    (hstep : s.step (.decideResume i newToken) = some s') :
    s'.Matched ↔ s.provider.tokens.current = s.client.tokens.current := by
  have hinv := HandshakeInv.of_reachable h
  obtain ⟨t', ht', -, hs'⟩ := Handshake.step_decideResume hstep
  obtain rfl : t = t' := some.inj (ht.symm.trans ht')
  have he := (hinv.transports t (mem_of_getElem? ht)).epoch_ne
  have hdec := ResumeCtl.decideResumeWithEpoch_of_rotates t.epoch newToken he hrot
  rcases hs' with ⟨-, hnone⟩ | ⟨d, ctl, rfl, hd⟩
  · rw [hdec] at hnone
    cases hnone
  · rw [hdec] at hd
    obtain ⟨rfl, rfl⟩ := Prod.mk.inj (some.inj hd)
    have hsucc : u64Succ s.provider.tokens.current.1 = s.provider.tokens.current.1 + 1 :=
      u64Succ_eq hfit
    constructor
    · rintro (hcur | hprev)
      · -- the client cannot hold a generation that is only now handed out
        have hgen : u64Succ s.provider.tokens.current.1 = s.client.tokens.current.1 :=
          congrArg Prod.fst hcur
        rcases hinv.held with heq | ⟨-, hlt⟩
        · exact heq
        · omega
      · exact some.inj hprev
    · exact fun heq => Or.inr (congrArg some heq)

/-! ## Runs -/

theorem credential_safe_resumed :
    ∃ s, handshakeMachine.ReachableUnder ClientHoldsCurrent s
      ∧ s.client.tokens.current = (2, .ofNat 16 2) ∧ s.Matched ∧ s.Decided := by
  have h₀ := ReachableUnder.init (M := handshakeMachine) (G := ClientHoldsCurrent)
    ⟨.ofNat 16 1, 1, 1, 1, 1, rfl⟩
  have h₁ := h₀.step (l := HandshakeLabel.attempt (.ofNat 16 7) 2) trivial rfl
  have h₂ := h₁.step (l := HandshakeLabel.decideResume 0 (.ofNat 16 2)) (fun _ _ _ _ => ⟨rfl, by decide⟩) rfl
  have h₃ := h₂.step (l := HandshakeLabel.installProvider 0 2) trivial rfl
  have h₄ := h₃.step (l := HandshakeLabel.acceptOk 0 2) trivial rfl
  exact ⟨_, h₄, rfl, credential_safe h₄⟩

theorem rotation_strands_client_iff_first :
    ∃ s s', handshakeMachine.ReachableUnder ClientHoldsCurrent s
      ∧ s.step (.decideResume 0 (.ofNat 16 2)) = some s' ∧ s'.Matched := by
  have h₀ := ReachableUnder.init (M := handshakeMachine) (G := ClientHoldsCurrent)
    ⟨.ofNat 16 1, 1, 1, 1, 1, rfl⟩
  have h₁ := h₀.step (l := HandshakeLabel.attempt (.ofNat 16 7) 2) trivial rfl
  exact ⟨_, _, h₁, rfl,
    (rotation_strands_client_iff (i := 0) h₁ (by decide) rfl ⟨rfl, rfl, by decide⟩ rfl).mpr rfl⟩

/-- Two RESUME_OKs lost in a row: the retry of the same campaign over a newer connection
rotates again, and the third attempt is refused although its epoch is not stale. -/
theorem credential_lost_after_two_oks :
    ∃ s,
      handshakeMachine.run
          { client := Handshake.established (.ofNat 16 1) 1 1
            provider := Handshake.established (.ofNat 16 1) 1 1
            transports := [] }
          [.attempt (.ofNat 16 7) 2, .decideResume 0 (.ofNat 16 2), .installProvider 0 2,
           .attempt (.ofNat 16 7) 3, .decideResume 1 (.ofNat 16 3), .installProvider 1 3,
           .attempt (.ofNat 16 7) 4] = some s
        ∧ handshakeMachine.Reachable s
        ∧ ¬s.Matched
        ∧ s.provider.resumeEpochIsStale (.ofNat 16 7) 4 s.client.tokens.current.2 4 = false
        ∧ ∀ newToken, s.provider.decideResumeWithEpoch (.ofNat 16 7) 4
            s.client.tokens.current.2 newToken 4 = none := by
  have hrun : (handshakeMachine.run
      { client := Handshake.established (.ofNat 16 1) 1 1
        provider := Handshake.established (.ofNat 16 1) 1 1
        transports := [] }
      [.attempt (.ofNat 16 7) 2, .decideResume 0 (.ofNat 16 2), .installProvider 0 2,
       .attempt (.ofNat 16 7) 3, .decideResume 1 (.ofNat 16 3), .installProvider 1 3,
       .attempt (.ofNat 16 7) 4]).any
      (fun s => decide (¬s.Matched
        ∧ s.provider.resumeEpochIsStale (.ofNat 16 7) 4 s.client.tokens.current.2 4 = false
        ∧ s.provider.tokens.generationForToken s.client.tokens.current.2 = none)) = true := by
    decide +kernel
  obtain ⟨s, hs, hp⟩ := (Option.any_eq_true _ _).mp hrun
  obtain ⟨hmatched, hstale, hunknown⟩ := of_decide_eq_true hp
  exact ⟨s, hs, reachable_of_run ⟨_, _, _, _, _, rfl⟩ hs, hmatched, hstale, fun newToken =>
    ResumeCtl.decideResumeWithEpoch_eq_none (by decide) hunknown⟩

end Dweb
