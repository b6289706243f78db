import OpenDweb.Lib.Machine
import OpenDweb.Server.CapAgreement
import OpenDweb.Server.Gate

/-!
# OpenDweb — admission

Calls of `AccessGate::decide` over time: each waits for the policy while others start, lead, share
and end, while the webhook replies as it likes, and while the ledgers change.

* **`admissionMachine`** — the calls, the gate and the provider.
* **`Sound`** — what every state keeps: a call that waits has passed every check before the policy.
* **`admission_sound`** — who is let in, and, under the static policy, that these are all.
-/

namespace Dweb

open Std (ExtTreeMap)
open Function (update update_of_ne update_self)

namespace Admission

section

variable [ServerCrypto]

/-- A call, and the gate as it was when the call began. -/
structure Call where
  start : AccessGate
  input : GateInput
  clock : Clock

inductive Role where
  | lead
  | join
  deriving DecidableEq

inductive CallState where
  | idle
  /-- Waits for the leader `channel`. -/
  | waiting (call : Call) (q : Question) (role : Role) (channel : Nat)
  | done (call : Call) (decision : GateDecision)

structure State where
  gate : AccessGate
  provider : Callback.Provider
  calls : Nat → CallState

inductive Step where
  | ledgers (registry : RegistrySnapshot) (registryGeneration : UInt64)
      (visitors : ExtTreeMap (BytesN 32) VisitorEntry) (visitorGeneration : UInt64)
      (blocklist : ExtTreeMap BlockKey BlockEntry)
  | disconnect (key : ConnKey)
  /-- Call `i` begins; `now` is the time of the cache. -/
  | begin (i : Nat) (input : GateInput) (clock : Clock) (now : Nat)
  /-- Leader `n` ends. -/
  | finish (n : Nat) (ending : Callback.LeaderEnd) (now : Nat)
  /-- Call `i` gets the answer it waits for. -/
  | receive (i : Nat)
  | giveUp (i : Nat)
  /-- It waits for a leader that is gone, and takes the channel out. -/
  | lost (i : Nat)
  | invalidate

namespace State

def setCall (s : State) (i : Nat) (call : CallState) : State :=
  { s with calls := update s.calls i call }

/-- Call `i` is answered. -/
def settle (s : State) (i : Nat) (call : Call) (q : Question) (answer : Callback.Decision) :
    State :=
  let decision := AccessGate.decideL2 s.gate.policy q answer
  { s with gate := s.gate.conclude call.input q decision }.setCall i (.done call decision)

/-- `CallbackProvider::decide`, up to the wait. -/
def consult (s : State) (i : Nat) (call : Call) (q : Question) (now : Nat) : State :=
  let key := (call.input.subject q).key q.generation q.visitorGeneration
  let (provider, hit) := s.provider.lookup key now
  let s := { s with provider }
  match hit with
  | some d => s.settle i call q d
  | none =>
    match provider.inflight[key]? with
    | some m => s.setCall i (.waiting call q .join m)
    | none =>
      { s with provider := provider.lead i { key, subject := call.input.subject q } }.setCall i
        (.waiting call q .lead i)

/-- `decide`, up to the wait. -/
def begin (s : State) (i : Nat) (input : GateInput) (clock : Clock) (now : Nat) : State :=
  let call : Call := { start := s.gate, input, clock }
  match s.gate.prepare input clock with
  | (gate, .decided decision) => { s with gate }.setCall i (.done call decision)
  | (gate, .ask q) =>
    match gate.policy with
    -- the static policy does not look at the answer
    | .static => { s with gate }.settle i call q .transientUnavailable
    | .callback => { s with gate }.consult i call q now

def answer (s : State) (role : Role) (channel : Nat) : Option Callback.Decision :=
  match role with
  | .lead => s.provider.returned channel
  | .join => s.provider.published channel

def step (s : State) : Step → Option State
  | .ledgers registry registryGeneration visitors visitorGeneration blocklist =>
    some { s with gate := { s.gate with
      registry, registryGeneration, visitors, visitorGeneration, blocklist } }
  | .disconnect key => some { s with gate := { s.gate with online := s.gate.online.release key } }
  | .begin i input clock now =>
    match s.calls i with
    | .idle => some (s.begin i input clock now)
    | _ => none
  | .finish n ending now =>
    match s.provider.leaders n, s.provider.returned n with
    | some leader, none => some { s with provider := s.provider.finish n leader ending now }
    | _, _ => none
  | .receive i =>
    match s.calls i with
    | .waiting call q role channel =>
      (s.answer role channel).map fun d => s.settle i call q d
    | _ => none
  | .giveUp i =>
    match s.calls i with
    | .waiting call q _ _ => some (s.settle i call q .transientUnavailable)
    | _ => none
  | .lost i =>
    match s.calls i with
    | .waiting call q .join _ =>
      let key := (call.input.subject q).key q.generation q.visitorGeneration
      some ({ s with provider := s.provider.heal key }.settle i call q .transientUnavailable)
    | _ => none
  | .invalidate => some { s with provider := s.provider.invalidateAll }

def Initial (s : State) : Prop :=
  (∃ cacheTtlMs, s.provider = .new cacheTtlMs) ∧ ∀ i, s.calls i = .idle

end State

def admissionMachine : Machine State Step where
  init := State.Initial
  step := State.step

/-! ## What every state keeps -/

def Call.Asks (call : Call) (q : Question) : Prop :=
  (∃ cap, q.cap = some cap ∧ call.start.Ticketed call.input call.clock cap)
    ∨ q.cap = none ∧ call.input.authHeader = none ∧ call.input.queryToken = none

def Call.Admissible (call : Call) (provider : Callback.Provider) : Prop :=
  call.start.Unblocked call.input
    ∧ ((∃ cap, call.start.Ticketed call.input call.clock cap)
      ∨ call.start.Visits call.input call.clock
      ∨ call.input.authHeader = none ∧ call.input.queryToken = none
        ∧ call.start.policy = .callback
        ∧ provider.Allowed { endpointId := call.input.endpointId, cap := none })

/-- A call that waits has passed every check, and waits for a leader of its key. -/
structure Call.Waits (call : Call) (q : Question) (channel : Nat) (provider : Callback.Provider) :
    Prop where
  policy : call.start.policy = .callback
  unblocked : call.start.Unblocked call.input
  asks : call.Asks q
  leader : ∃ leader, provider.leaders channel = some leader
    ∧ leader.key = (call.input.subject q).key q.generation q.visitorGeneration

structure Sound (s : State) : Prop where
  honest : s.provider.Honest
  waiting : ∀ i call q role channel, s.calls i = .waiting call q role channel →
    s.gate.policy = .callback ∧ call.Waits q channel s.provider
  done : ∀ i call, s.calls i = .done call .allow → call.Admissible s.provider
  fresh : ∀ i, s.calls i = .idle → s.provider.leaders i = none

variable {s s' : State} {p p' : Callback.Provider} {call : Call} {q : Question}
  {d : Callback.Decision}

theorem Call.Admissible.mono (h : call.Admissible p) (hasked : ∀ a ∈ p.asked, a ∈ p'.asked) :
    call.Admissible p' := by
  obtain ⟨hunblocked, hcases⟩ := h
  refine ⟨hunblocked, ?_⟩
  rcases hcases with hticket | hvisits | ⟨hheader, hquery, hpolicy, reason, cacheTtl, hmem⟩
  · exact Or.inl hticket
  · exact Or.inr (Or.inl hvisits)
  · exact Or.inr (Or.inr ⟨hheader, hquery, hpolicy, reason, cacheTtl, hasked _ hmem⟩)

theorem Call.Asks.admissible (h : call.Asks q) (hstart : call.start.policy = .callback)
    (hunblocked : call.start.Unblocked call.input) (hhonest : p.Honest)
    (hbacked : p.Backed ((call.input.subject q).key q.generation q.visitorGeneration) d)
    (hallow : d.allow = true) : call.Admissible p := by
  refine ⟨hunblocked, ?_⟩
  rcases h with ⟨cap, -, hticket⟩ | ⟨hnone, hheader, hquery⟩
  · exact Or.inl ⟨cap, hticket⟩
  · have hsubject : call.input.subject q = { endpointId := call.input.endpointId, cap := none } := by
      rw [GateInput.subject, hnone]
    rw [hsubject] at hbacked
    exact Or.inr (Or.inr ⟨hheader, hquery, hstart, hhonest.allowed_none hbacked hallow⟩)

theorem Sound.keep (h : Sound s) {gate : AccessGate} (hpolicy : gate.policy = s.gate.policy)
    (hhonest : p.Honest) (hasked : ∀ a ∈ s.provider.asked, a ∈ p.asked)
    (hleaders : p.leaders = s.provider.leaders) :
    Sound { gate, provider := p, calls := s.calls } where
  honest := hhonest
  waiting i call q role channel hcall := by
    obtain ⟨hcallback, hwaits⟩ := h.waiting i call q role channel hcall
    refine ⟨hpolicy.trans hcallback, hwaits.policy, hwaits.unblocked, hwaits.asks, ?_⟩
    rw [hleaders]
    exact hwaits.leader
  done i call hcall := (h.done i call hcall).mono hasked
  fresh i hcall := by
    rw [hleaders]
    exact h.fresh i hcall

def CallState.Fine (policy : Policy) (p : Callback.Provider) : CallState → Prop
  | .idle => False
  | .waiting call q _ channel => policy = .callback ∧ call.Waits q channel p
  | .done call decision => decision = .allow → call.Admissible p

variable {i : Nat}

theorem Sound.replace (h : Sound s) {c : CallState} {gate : AccessGate}
    (hpolicy : gate.policy = s.gate.policy) (hhonest : p.Honest)
    (hasked : ∀ a ∈ s.provider.asked, a ∈ p.asked)
    (hold : ∀ n leader, s.provider.leaders n = some leader → p.leaders n = some leader)
    (hnew : ∀ n, n ≠ i → p.leaders n = s.provider.leaders n) (hfine : c.Fine gate.policy p) :
    Sound { gate, provider := p, calls := update s.calls i c } where
  honest := hhonest
  waiting j call q role channel hcall := by
    rcases update_cases hcall with ⟨-, hcall⟩ | ⟨-, hcall⟩
    · rw [hcall] at hfine
      exact hfine
    · obtain ⟨hcallback, hwaits⟩ := h.waiting j call q role channel hcall
      obtain ⟨leader, hleader, hkey⟩ := hwaits.leader
      exact ⟨hpolicy.trans hcallback, hwaits.policy, hwaits.unblocked, hwaits.asks, leader,
        hold channel leader hleader, hkey⟩
  done j call hcall := by
    rcases update_cases hcall with ⟨-, hcall⟩ | ⟨-, hcall⟩
    · rw [hcall] at hfine
      exact hfine rfl
    · exact (h.done j call hcall).mono hasked
  fresh j hcall := by
    rcases update_cases hcall with ⟨-, hcall⟩ | ⟨hji, hcall⟩
    · rw [hcall] at hfine
      exact hfine.elim
    · rw [hnew j hji]
      exact h.fresh j hcall

theorem Sound.settle (h : Sound s) (i : Nat)
    (hadmissible : AccessGate.decideL2 s.gate.policy q d = .allow → call.Admissible s.provider) :
    Sound (s.settle i call q d) := by
  refine h.replace ?_ h.honest (fun _ ha => ha) (fun _ _ hl => hl) (fun _ _ => rfl) hadmissible
  unfold AccessGate.conclude
  split <;> rfl

/-! ## Every step keeps it -/

theorem Call.Asks.caps (h : call.Asks q) : ∀ cap ∈ q.cap, cap.caps ≠ 0 := by
  intro cap hcap
  rcases h with ⟨cap', hcap', hticket⟩ | ⟨hnone, -⟩
  · rw [hcap'] at hcap
    cases hcap
    exact AccessGate.caps_ne_zero hticket.bit
  · rw [hnone] at hcap
    cases hcap

theorem Sound.consult (h : Sound s) {now : Nat} (hidle : s.calls i = .idle)
    (hpolicy : s.gate.policy = .callback) (hstart : call.start.policy = .callback)
    (hunblocked : call.start.Unblocked call.input) (hasks : call.Asks q) :
    Sound (s.consult i call q now) := by
  let key := (call.input.subject q).key q.generation q.visitorGeneration
  obtain ⟨hhonest, hhit⟩ := h.honest.lookup key now
  obtain ⟨cache, hlookup⟩ := s.provider.lookup_fst key now
  unfold State.consult
  dsimp only
  -- the look-up moves the cache only
  rw [show s.provider.lookup ((call.input.subject q).key q.generation q.visitorGeneration) now
    = ({ s.provider with cache }, (s.provider.lookup key now).2) from Prod.ext hlookup rfl]
  rw [hlookup] at hhonest
  have hkept : Sound { s with provider := { s.provider with cache } } :=
    h.keep rfl hhonest (fun _ ha => ha) rfl
  dsimp only
  cases hfound : (s.provider.lookup key now).2 with
  | some d =>
    refine hkept.settle i fun hallow => ?_
    rw [show ({ s.provider with cache } : Callback.Provider) = _ from hlookup.symm]
    have hd : d.allow = true := by
      rw [← AccessGate.decideL2_callback, ← hpolicy]
      exact hallow
    exact hasks.admissible hstart hunblocked (hlookup ▸ hhonest) (hlookup ▸ hhit d hfound) hd
  | none =>
    dsimp only
    cases hinflight : s.provider.inflight[key]? with
    | some m =>
      exact hkept.replace rfl hhonest (fun _ ha => ha) (fun _ _ hl => hl) (fun _ _ => rfl)
        ⟨hpolicy, hstart, hunblocked, hasks, h.honest.inflight key m hinflight⟩
    | none =>
      have hnew : s.provider.leaders i = none := h.fresh i hidle
      have hlead : (({ s.provider with cache } : Callback.Provider).lead i
          { key, subject := call.input.subject q }).Honest := hhonest.lead hnew hasks.caps rfl rfl
      refine hkept.replace rfl hlead (fun _ ha => ha) (fun n leader hl => ?_) (fun n hn => ?_) ?_
      · have hne : n ≠ i := by
          rintro rfl
          rw [show s.provider.leaders n = some leader from hl] at hnew
          cases hnew
        exact (update_of_ne hne ..).trans hl
      · exact update_of_ne hn ..
      · exact ⟨hpolicy, hstart, hunblocked, hasks, _, update_self .., rfl⟩

theorem Sound.begin (h : Sound s) {now : Nat} {input : GateInput} {clock : Clock}
    (hidle : s.calls i = .idle) : Sound (s.begin i input clock now) := by
  unfold State.begin
  dsimp only
  -- the checks move the online table only
  have hkeep : ∀ online, Sound { s with gate := { s.gate with online } } := fun online =>
    h.keep rfl h.honest (fun _ ha => ha) rfl
  rcases AccessGate.prepare_cases s.gate input clock with ⟨reason, hprepare⟩ | ⟨hunblocked, haccepts⟩
  · rw [hprepare]
    exact h.replace rfl h.honest (fun _ ha => ha) (fun _ _ hl => hl) (fun _ _ => rfl) nofun
  · generalize hprepare : s.gate.prepare input clock = prepared at haccepts
    cases haccepts with
    | visitor hvisits hroom =>
      exact h.replace rfl h.honest (fun _ ha => ha) (fun _ _ hl => hl) (fun _ _ => rfl)
        fun _ => ⟨hunblocked, Or.inr (Or.inl hvisits)⟩
    | @ticket cap online hticket hroom =>
      dsimp only
      split
      · exact (hkeep online).settle i fun _ => ⟨hunblocked, Or.inl ⟨cap, hticket⟩⟩
      · next hpolicy =>
        exact (hkeep online).consult hidle hpolicy hpolicy hunblocked (Or.inl ⟨cap, rfl, hticket⟩)
    | noTicket hheader hquery =>
      dsimp only
      split
      · next hpolicy =>
        refine h.settle i fun hallow => ?_
        -- the static policy refuses a call without a ticket
        rw [hpolicy, AccessGate.decideL2_static] at hallow
        cases hallow
      · next hpolicy =>
        exact h.consult hidle hpolicy hpolicy hunblocked (Or.inr ⟨rfl, hheader, hquery⟩)

/-- **Every step keeps it.** -/
theorem Sound.step (h : Sound s) {l : Step} (hstep : s.step l = some s') : Sound s' := by
  cases l with
  | ledgers registry registryGeneration visitors visitorGeneration blocklist =>
    cases hstep
    exact h.keep rfl h.honest (fun _ ha => ha) rfl
  | disconnect key =>
    cases hstep
    exact h.keep rfl h.honest (fun _ ha => ha) rfl
  | invalidate =>
    cases hstep
    exact h.keep rfl h.honest.invalidateAll (fun _ ha => ha) rfl
  | begin i input clock now =>
    simp only [State.step] at hstep
    split at hstep
    · next hidle =>
      cases hstep
      exact h.begin hidle
    · cases hstep
  | finish n ending now =>
    simp only [State.step] at hstep
    split at hstep
    · next leader hleader _ =>
      cases hstep
      exact h.keep rfl (h.honest.finish hleader) (fun _ ha => List.mem_append_right _ ha) rfl
    · cases hstep
  | receive i =>
    simp only [State.step] at hstep
    split at hstep
    · next call q role channel hcall =>
      obtain ⟨d, hanswer, rfl⟩ := Option.map_eq_some_iff.mp hstep
      obtain ⟨hpolicy, hwaits⟩ := h.waiting i call q role channel hcall
      obtain ⟨leader, hleader, hkey⟩ := hwaits.leader
      -- the channel, or the task, is of a leader of this key
      have hbacked : s.provider.Backed leader.key d := by
        cases role with
        | lead =>
          obtain ⟨leader', hleader', hbacked⟩ := h.honest.returned channel d hanswer
          cases hleader.symm.trans hleader'
          exact hbacked
        | join =>
          obtain ⟨leader', hleader', hbacked⟩ := h.honest.published channel d hanswer
          cases hleader.symm.trans hleader'
          exact hbacked
      rw [hkey] at hbacked
      refine h.settle i fun hallow => ?_
      rw [hpolicy, AccessGate.decideL2_callback] at hallow
      exact hwaits.asks.admissible hwaits.policy hwaits.unblocked h.honest hbacked hallow
    · cases hstep
  | giveUp i =>
    simp only [State.step] at hstep
    split at hstep
    · next call q role channel hcall =>
      cases hstep
      refine h.settle i fun hallow => ?_
      rw [(h.waiting i call q role channel hcall).1, AccessGate.decideL2_callback] at hallow
      cases hallow
    · cases hstep
  | lost i =>
    simp only [State.step] at hstep
    split at hstep
    · next call q channel hcall =>
      cases hstep
      let key := (call.input.subject q).key q.generation q.visitorGeneration
      have hkept : Sound { s with provider := s.provider.heal key } :=
        h.keep rfl (h.honest.heal key) (fun _ ha => ha) rfl
      refine hkept.settle i fun hallow => ?_
      rw [(h.waiting i call q .join channel hcall).1, AccessGate.decideL2_callback] at hallow
      cases hallow
    · cases hstep

theorem sound_of_reachable (h : admissionMachine.Reachable s) : Sound s := by
  refine h.invariant (fun s hinit => ?_) fun s l s' hsound _ hstep => hsound.step hstep
  obtain ⟨⟨cacheTtlMs, hprovider⟩, hidle⟩ := hinit
  constructor
  · rw [hprovider]
    exact Callback.Provider.honest_new cacheTtlMs
  · intro i call q role channel hcall
    rw [hidle i] at hcall
    cases hcall
  · intro i call hcall
    rw [hidle i] at hcall
    cases hcall
  · intro i _
    rw [hprovider]
    rfl

theorem begin_static (hpolicy : s.gate.policy = .static) (i now : Nat) (input : GateInput)
    (clock : Clock) (consult : Question → Callback.Decision) :
    (s.begin i input clock now).calls i
      = .done { start := s.gate, input, clock } (s.gate.decide input clock consult).2 := by
  unfold State.begin AccessGate.decide
  dsimp only
  rcases AccessGate.prepare_cases s.gate input clock with ⟨reason, hprepare⟩ | ⟨-, haccepts⟩
  · rw [hprepare]
    exact update_self i _ s.calls
  · generalize hprepare : s.gate.prepare input clock = prepared at haccepts
    cases haccepts with
    | visitor hvisits hroom => exact update_self i _ s.calls
    | ticket hticket hroom =>
      dsimp only
      rw [hpolicy]
      exact update_self i _ s.calls
    | noTicket hheader hquery =>
      dsimp only
      rw [hpolicy]
      show update s.calls i (.done _ (AccessGate.decideL2 s.gate.policy _ _)) i = _
      rw [update_self, hpolicy]
      rfl

/-- **Admission soundness.** Whoever is let in is not blocked, and has a ticket that passes every
check, or declares no credential and is a visitor on the relay, or is allowed by the webhook
without a capability. Under the static policy, whoever has such a ticket, or is a visitor, is let in
as long as the quotas have room. -/
theorem admission_sound :
    (∀ s, admissionMachine.Reachable s → ∀ i start input clock,
      s.calls i = .done { start, input, clock } .allow →
        start.Unblocked input
          ∧ ((∃ cap, start.Ticketed input clock cap)
            ∨ start.Visits input clock
            ∨ input.authHeader = none ∧ input.queryToken = none ∧ start.policy = .callback
              ∧ s.provider.Allowed { endpointId := input.endpointId, cap := none }))
    ∧ ∀ (gate : AccessGate) input clock consult, gate.policy = .static →
      ((gate.decide input clock consult).2 = .allow
        ↔ gate.Unblocked input
          ∧ ((∃ cap, gate.Ticketed input clock cap ∧ gate.OwnerRoom input cap.fabricId)
            ∨ gate.Visits input clock ∧ gate.VisitorRoom input)) := by
  constructor
  · intro s hreach i start input clock hcall
    exact (sound_of_reachable hreach).done i { start, input, clock } hcall
  · intro gate input clock consult hpolicy
    exact AccessGate.decide_static hpolicy consult

end

end Admission

namespace FrozenVector

open Admission

attribute [local instance] serverCrypto

/-- The frozen capability, as the server parses it. -/
def ticket : RelayCap where
  fabricId
  serverId
  issuer
  recipient
  caps := 7
  issuedAt := 1800000000000
  expiresAt := 1800003600000
  signature

/-- A static gate that knows the issuer. -/
def gate : AccessGate where
  serverId
  registry :=
    { active := (∅ : ExtTreeMap OwnerKey EntryMeta).insert ⟨fabricId, issuer⟩ default
      viaCode := ∅ }
  registryGeneration := 1
  visitors := ∅
  visitorGeneration := 0
  blocklist := ∅
  policy := .static
  online := .empty
  maxConnectionsPerOwner := some 1
  maxConnectionsPerVisitor := 4
  maxVisitorConnections := 64

/-- The recipient connects with the ticket. -/
def input : GateInput where
  endpointId := recipient
  authHeader := none
  queryToken := some ticket.token
  connectionId := 1
  op := .relayConnect

def clock : Clock := ⟨1800000000000, 1800000000000, 1800000000000⟩

theorem ticketed : gate.Ticketed input clock ticket where
  token := ⟨_, selects_query (isTokenText_token ticket), Cap.decode_eq_ok.mpr rfl⟩
  valid := by decide +kernel
  fabric := by decide
  owner := by decide
  bit := by decide

theorem admission_sound_ticket :
    (gate.decide input clock fun _ => .transientUnavailable).2 = .allow
      ∧ (∃ cap, gate.Ticketed input clock cap) := by
  have hallow : (gate.decide input clock fun _ => .transientUnavailable).2 = .allow := by
    refine (admission_sound.2 gate input clock _ rfl).mpr
      ⟨fun _ => by decide, Or.inl ⟨ticket, ticketed, fun _ limit hlimit => ?_⟩⟩
    cases hlimit
    decide
  let start : State := { gate, provider := .new 1000, calls := fun _ => .idle }
  have hstep : admissionMachine.step start (.begin 0 input clock 0)
      = some (start.begin 0 input clock 0) := rfl
  have hreach : admissionMachine.Reachable (start.begin 0 input clock 0) :=
    .step (.init ⟨⟨1000, rfl⟩, fun _ => rfl⟩) trivial hstep
  have hcall : (start.begin 0 input clock 0).calls 0
      = .done { start := gate, input, clock } .allow := by
    have hbegin := begin_static (s := start) rfl 0 0 input clock fun _ => .transientUnavailable
    rw [hbegin]
    exact congrArg _ hallow
  have hadmitted := admission_sound.1 _ hreach 0 gate input clock hcall
  rcases hadmitted.2 with hticket | hvisits | ⟨-, hquery, -⟩
  · exact ⟨hallow, hticket⟩
  · cases hvisits.query
  · cases hquery

end FrozenVector

end Dweb
