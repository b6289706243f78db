import OpenDweb.Server.Admission

/-!
# OpenDweb — revocation

Relay connections while an administrator unregisters an owner: the unregistration moves the
registry, reads the online table once, and disconnects the endpoints of the fabric it found there
(`apply_mutation` and `kick_existing_connections` of `access/admin/mod.rs`). An admission takes its
snapshot of the registry before it takes its place in the table, and its connection is registered
after both.

* **`revocationMachine`** — admissions and the unregistration, at each lock and each wait.
* **`Kicked`** — the invariant: the administrator has every connection of the fabric still to do.
* **`revocation_complete`** — no connection of the fabric outlives the call, if no admission was
  under way where the call looked.
-/

namespace Dweb

open Std (ExtTreeMap)
open Option Std.ExtTreeMap

namespace Revocation

section

variable [ServerCrypto]

/-! ## The relay and the administrator -/

inductive Phase where
  | idle
  | snapped (input : GateInput) (cap : RelayCap) (snapshot : RegistrySnapshot)
  /-- A ticket has its place in the table; the policy is asked. -/
  | asking (input : GateInput) (cap : Option RelayCap)
  | allowed (input : GateInput) (cap : Option RelayCap)
  | online (input : GateInput) (cap : Option RelayCap)
  /-- Gone from the relay; its place is not given back yet. -/
  | ended (input : GateInput) (cap : Option RelayCap)
  | finished

def Phase.disconnect (endpointId : BytesN 32) : Phase → Phase
  | .online input cap =>
    if input.endpointId = endpointId then .ended input cap else .online input cap
  | phase => phase

inductive Admin where
  | idle
  | swapped
  | kicking (endpoints : List (BytesN 32))
  | returned

structure RelayState where
  gate : AccessGate
  calls : UInt64 → Phase
  admin : Admin

inductive Label where
  /-- A client asks: up to the snapshot of the registry. -/
  | start (i : UInt64) (input : GateInput) (clock : Clock)
  /-- The snapshot is looked at, and the place is taken. -/
  | reserve (i : UInt64) (clock : Clock)
  | answer (i : UInt64) (d : Callback.Decision)
  | register (i : UInt64)
  | fail (i : UInt64)
  | close (i : UInt64)
  /-- `on_disconnect`. -/
  | release (i : UInt64)
  | unregister
  | view
  | kick
  | return

namespace RelayState

def set (s : RelayState) (i : UInt64) (phase : Phase) : RelayState :=
  { s with calls := Function.update s.calls i phase }

/-- `decide`, up to the snapshot of the registry; without a token, up to the policy. -/
def start (s : RelayState) (i : UInt64) (input : GateInput) (clock : Clock) : RelayState :=
  if Blocklist.isBlocked s.gate.blocklist .endpoint input.endpointId then s.set i .finished
  else
    match classifyCredential input.authHeader input.queryToken with
    | .malformed => s.set i .finished
    | .none =>
      match s.gate.prepareNoTicket input clock with
      | (gate, .decided .allow) => { s with gate }.set i (.allowed input none)
      | (_, .decided (.deny _)) => s.set i .finished
      | (_, .ask _) => s.set i (.asking input none)
    | .token token =>
      match s.gate.checkToken input token clock.ticket with
      | .error _ => s.set i .finished
      | .ok cap => s.set i (.snapped input cap s.gate.registry)

/-- L1b on the snapshot that was taken, and the quota. -/
def reserve (s : RelayState) (i : UInt64) (input : GateInput) (cap : RelayCap)
    (snapshot : RegistrySnapshot) (clock : Clock) : RelayState :=
  match AccessGate.checkOwner snapshot input.op cap clock.owner with
  | .error _ => s.set i .finished
  | .ok () =>
    match s.gate.reserveOwner input cap with
    | none => s.set i .finished
    | some online => { s with gate := { s.gate with online } }.set i (.asking input (some cap))

/-- What is left of `decide` once the policy has answered. -/
def answer (s : RelayState) (i : UInt64) (input : GateInput) (cap : Option RelayCap)
    (d : Callback.Decision) : RelayState :=
  let q : Question :=
    { cap
      generation := s.gate.registryGeneration
      visitorGeneration := s.gate.visitorGeneration }
  let decision := AccessGate.decideL2 s.gate.policy q d
  let s := { s with gate := s.gate.conclude input q decision }
  match decision with
  | .allow => s.set i (.allowed input cap)
  | .deny _ => s.set i .finished

/-- `OnlineTable::release`. -/
def released (s : RelayState) (input : GateInput) : RelayState :=
  { s with gate := { s.gate with online := s.gate.online.release input.connKey } }

/-- The registry's `unregister`. -/
def unregistered (s : RelayState) (fabricId root : BytesN 32) : RelayState :=
  { s with
    gate := { s.gate with
      registry := { s.gate.registry with active := s.gate.registry.active.erase ⟨fabricId, root⟩ }
      registryGeneration := s.gate.registryGeneration + 1 }
    admin := .swapped }

/-- `Clients::disconnect`: every connection that is registered for the endpoint ends. -/
def disconnect (s : RelayState) (endpointId : BytesN 32) : RelayState :=
  { s with calls := fun i => (s.calls i).disconnect endpointId }

def step (fabricId root : BytesN 32) (s : RelayState) : Label → Option RelayState
  | .start i input clock =>
    match s.calls i with
    | .idle =>
      -- the relay has authenticated the endpoint, and gives every connection its own id
      if input.op = .relayConnect ∧ input.connectionId = i
          ∧ ServerCrypto.isVerifyingKey input.endpointId then
        some (s.start i input clock)
      else none
    | _ => none
  | .reserve i clock =>
    match s.calls i with
    | .snapped input cap snapshot => some (s.reserve i input cap snapshot clock)
    | _ => none
  | .answer i d =>
    match s.calls i with
    | .asking input cap => some (s.answer i input cap d)
    | _ => none
  | .register i =>
    match s.calls i with
    | .allowed input cap => some (s.set i (.online input cap))
    | _ => none
  | .fail i =>
    match s.calls i with
    | .allowed input _ => some ((s.released input).set i .finished)
    | _ => none
  | .close i =>
    match s.calls i with
    | .online input cap => some (s.set i (.ended input cap))
    | _ => none
  | .release i =>
    match s.calls i with
    | .ended input _ => some ((s.released input).set i .finished)
    | _ => none
  | .unregister =>
    match s.admin with
    | .idle => some (s.unregistered fabricId root)
    | _ => none
  | .view =>
    match s.admin with
    | .swapped => some { s with admin := .kicking (s.gate.online.endpointsOfFabric fabricId) }
    | _ => none
  | .kick =>
    match s.admin with
    | .kicking (endpointId :: rest) =>
      -- an id that is no key has no connections to disconnect
      let s := if ServerCrypto.isVerifyingKey endpointId then s.disconnect endpointId else s
      some { s with admin := .kicking rest }
    | _ => none
  | .return =>
    match s.admin with
    | .kicking [] => some { s with admin := .returned }
    | _ => none

/-- Nobody is connected, and the fabric has at most the one root that is unregistered. -/
def Initial (fabricId root : BytesN 32) (s : RelayState) : Prop :=
  s.gate.online = .empty ∧ (∀ i, s.calls i = .idle) ∧ s.admin = .idle
    ∧ ∀ other, s.gate.registry.contains fabricId other = true → other = root

end RelayState

def revocationMachine (fabricId root : BytesN 32) : Machine RelayState Label where
  init := RelayState.Initial fabricId root
  step := RelayState.step fabricId root

/-! ## What every state keeps -/

/-- The administrator still has this endpoint to disconnect. -/
def Admin.Left (endpointId : BytesN 32) : Admin → Prop
  | .idle => True
  | .swapped => True
  | .kicking endpoints => endpointId ∈ endpoints
  | .returned => False

def Admin.Viewed : Admin → Prop
  | .idle => False
  | .swapped => False
  | .kicking _ => True
  | .returned => True

/-- An admission of connection `i`. -/
def Own (i : UInt64) (input : GateInput) : Prop :=
  input.connectionId = i ∧ input.op = .relayConnect
    ∧ ServerCrypto.isVerifyingKey input.endpointId = true

omit [ServerCrypto] in
def Placed (online : OnlineTable) (input : GateInput) (cap : Option RelayCap) : Prop :=
  ∀ c ∈ cap, online.conns[input.connKey]? = some (some c.fabricId)

omit [ServerCrypto] in
def Pending (fabricId : BytesN 32) (admin : Admin) (input : GateInput) (cap : Option RelayCap) :
    Prop :=
  ∀ c ∈ cap, c.fabricId = fabricId → admin.Left input.endpointId

def Phase.Fine (fabricId : BytesN 32) (admin : Admin) (table : OnlineTable) (i : UInt64) :
    Phase → Prop
  | .idle => True
  | .finished => True
  | .snapped input cap snapshot => Own i input
    ∧ (admin.Viewed → cap.fabricId = fabricId → snapshot.contains fabricId cap.issuer = false)
  | .asking input cap => Own i input ∧ Placed table input cap ∧ Pending fabricId admin input cap
  | .allowed input cap => Own i input ∧ Placed table input cap ∧ Pending fabricId admin input cap
  | .online input cap => Own i input ∧ Placed table input cap ∧ Pending fabricId admin input cap
  | .ended input cap => Own i input ∧ Placed table input cap

structure Kicked (fabricId root : BytesN 32) (s : RelayState) : Prop where
  calls : ∀ i, (s.calls i).Fine fabricId s.admin s.gate.online i
  sole : ∀ other, s.gate.registry.contains fabricId other = true → other = root
  unregistered : s.admin ≠ .idle → s.gate.registry.contains fabricId root = false

/-- No admission is under way where the administrator looks: none has the fabric in a snapshot and
no place when the table is read, and none has its place and no connection when its endpoint is
disconnected. -/
def NoneUnderWay (fabricId : BytesN 32) (s : RelayState) : Label → Prop
  | .view => ∀ i input cap snapshot, s.calls i = .snapped input cap snapshot →
    cap.fabricId = fabricId → snapshot.contains fabricId cap.issuer = false
  | .kick => ∀ endpointId rest, s.admin = .kicking (endpointId :: rest) → ∀ i input cap,
    s.calls i = .asking input (some cap) ∨ s.calls i = .allowed input (some cap) →
    cap.fabricId = fabricId → input.endpointId ≠ endpointId
  | _ => True

variable {fabricId root : BytesN 32} {s s' : RelayState}

theorem Phase.Fine.frame {phase : Phase} {admin : Admin} {table table' : OnlineTable} {i : UInt64}
    (h : phase.Fine fabricId admin table i)
    (hconns : ∀ key : ConnKey, key.connectionId = i → table'.conns[key]? = table.conns[key]?) :
    phase.Fine fabricId admin table' i := by
  have hplaced : ∀ input cap, Own i input → Placed table input cap → Placed table' input cap := by
    intro input cap hown hplaced c hc
    rw [hconns input.connKey hown.1]
    exact hplaced c hc
  cases phase with
  | idle => trivial
  | finished => trivial
  | snapped input cap snapshot => exact h
  | asking input cap => exact ⟨h.1, hplaced input cap h.1 h.2.1, h.2.2⟩
  | allowed input cap => exact ⟨h.1, hplaced input cap h.1 h.2.1, h.2.2⟩
  | online input cap => exact ⟨h.1, hplaced input cap h.1 h.2.1, h.2.2⟩
  | ended input cap => exact ⟨h.1, hplaced input cap h.1 h.2⟩

theorem Kicked.update (h : Kicked fabricId root s) {i : UInt64} {phase : Phase}
    {table : OnlineTable}
    (hconns : ∀ key : ConnKey, key.connectionId ≠ i →
      table.conns[key]? = s.gate.online.conns[key]?)
    (hfine : phase.Fine fabricId s.admin table i) :
    Kicked fabricId root ({ s with gate := { s.gate with online := table } }.set i phase) where
  calls j := by
    by_cases hji : j = i
    · show (Function.update s.calls i phase j).Fine fabricId s.admin table j
      rw [hji, Function.update_self]
      exact hfine
    · show (Function.update s.calls i phase j).Fine fabricId s.admin table j
      rw [Function.update_of_ne hji]
      refine Phase.Fine.frame (h.calls j) fun key hkey => hconns key ?_
      rw [hkey]
      exact hji
  sole := h.sole
  unregistered := h.unregistered

theorem Kicked.set (h : Kicked fabricId root s) {i : UInt64} {phase : Phase}
    (hfine : phase.Fine fabricId s.admin s.gate.online i) :
    Kicked fabricId root (s.set i phase) :=
  h.update (fun _ _ => rfl) hfine

theorem Kicked.released (h : Kicked fabricId root s) {i : UInt64} {input : GateInput}
    (hown : Own i input) : Kicked fabricId root ((s.released input).set i .finished) := by
  refine h.update (fun key hkey => ?_) trivial
  rw [OnlineTable.conns_release, getElem?_erase, if_neg]
  intro heq
  have hsame : input.connKey = key := Std.LawfulEqCmp.eq_of_compare heq
  exact hkey (hsame ▸ hown.1)

/-! ## Every step keeps it -/

theorem Kicked.start (h : Kicked fabricId root s) {i : UInt64} {input : GateInput} {clock : Clock}
    (hown : Own i input) : Kicked fabricId root (s.start i input clock) := by
  have hover : Kicked fabricId root (s.set i .finished) := h.set trivial
  unfold RelayState.start
  split
  · exact hover
  · split
    · exact hover
    · -- a connection without a ticket is of no fabric
      have hallowed : ∀ table, (Phase.allowed input none).Fine fabricId s.admin table i :=
        fun table => ⟨hown, nofun, nofun⟩
      unfold AccessGate.prepareNoTicket
      split
      · next gate hprepare =>
        split at hprepare
        · split at hprepare
          · cases hprepare
          · next table hroom =>
            cases hprepare
            refine h.update (fun key hkey => ?_) (hallowed table)
            rw [OnlineTable.conns_reserveVisitor hroom, getElem?_insert, if_neg]
            intro heq
            have hsame : input.connKey = key := Std.LawfulEqCmp.eq_of_compare heq
            exact hkey (hsame ▸ hown.1)
        · cases hprepare
      · exact hover
      · exact h.set ⟨hown, nofun, nofun⟩
    · next token hcred =>
      split
      · exact hover
      · next cap hcap =>
        refine h.set ⟨hown, fun hviewed hfabric => ?_⟩
        -- once the table is read the fabric is in no new snapshot
        have hnot : s.admin ≠ .idle := by
          rintro hidle
          rw [hidle] at hviewed
          exact hviewed
        rw [Bool.eq_false_iff]
        intro hcontains
        have hroot := h.sole _ hcontains
        rw [hroot, h.unregistered hnot] at hcontains
        cases hcontains

theorem Kicked.reserve (h : Kicked fabricId root s) {i : UInt64} {input : GateInput} {cap : RelayCap}
    {snapshot : RegistrySnapshot} {clock : Clock} (hcall : s.calls i = .snapped input cap snapshot) :
    Kicked fabricId root (s.reserve i input cap snapshot clock) := by
  have hsnapped := h.calls i
  rw [hcall] at hsnapped
  obtain ⟨hown, hsnapshot⟩ := hsnapped
  have hover : Kicked fabricId root (s.set i .finished) := h.set trivial
  unfold RelayState.reserve
  split
  · exact hover
  · next howner =>
    obtain ⟨hactive, -⟩ := AccessGate.checkOwner_eq_ok.mp howner
    have hcontains := RegistrySnapshot.contains_of_containsActive hactive
    unfold AccessGate.reserveOwner
    rw [if_pos hown.2.1]
    split
    · exact hover
    · next table hroom =>
      have hconns := OnlineTable.conns_reserve hroom
      refine h.update (fun key hkey => ?_) ⟨hown, ?_, ?_⟩
      · rw [hconns, getElem?_insert, if_neg]
        intro heq
        have hsame : input.connKey = key := Std.LawfulEqCmp.eq_of_compare heq
        exact hkey (hsame ▸ hown.1)
      · intro c hc
        cases hc
        rw [hconns, getElem?_insert_self]
      · intro c hc hfabric
        cases hc
        -- the snapshot has the owner, so the table was not read yet
        have hviewed : ¬s.admin.Viewed := by
          intro hviewed
          have hgone := hsnapshot hviewed hfabric
          rw [← hfabric, hcontains] at hgone
          cases hgone
        cases hadmin : s.admin with
        | idle => trivial
        | swapped => trivial
        | kicking endpoints =>
          rw [hadmin] at hviewed
          exact absurd trivial hviewed
        | returned =>
          rw [hadmin] at hviewed
          exact absurd trivial hviewed

theorem Kicked.answer (h : Kicked fabricId root s) {i : UInt64} {input : GateInput}
    {cap : Option RelayCap} {d : Callback.Decision} (hcall : s.calls i = .asking input cap) :
    Kicked fabricId root (s.answer i input cap d) := by
  have hasking := h.calls i
  rw [hcall] at hasking
  unfold RelayState.answer AccessGate.conclude
  dsimp only
  cases AccessGate.decideL2 s.gate.policy _ d with
  | allow =>
    dsimp only
    rw [if_neg (fun hdeny => hdeny.2.2 rfl)]
    exact h.set hasking
  | deny reason =>
    dsimp only
    split
    · exact h.released hasking.1
    · exact h.set trivial

theorem Kicked.unregistered_step (h : Kicked fabricId root s) (hidle : s.admin = .idle) :
    Kicked fabricId root (s.unregistered fabricId root) where
  calls i := by
    have hcall := h.calls i
    rw [hidle] at hcall
    -- nothing was read of the table, before or after
    show (s.calls i).Fine fabricId .swapped s.gate.online i
    cases hphase : s.calls i with
    | idle => trivial
    | finished => trivial
    | _ =>
      rw [hphase] at hcall
      exact hcall
  sole other hother := by
    have hcontains : (s.gate.registry.active.erase ⟨fabricId, root⟩).contains ⟨fabricId, other⟩
        = true := hother
    rw [contains_erase, Bool.and_eq_true] at hcontains
    exact h.sole other hcontains.2
  unregistered _ := by
    show (s.gate.registry.active.erase ⟨fabricId, root⟩).contains ⟨fabricId, root⟩ = false
    have hself : compare (⟨fabricId, root⟩ : OwnerKey) ⟨fabricId, root⟩ = .eq :=
      Std.LawfulEqCmp.compare_eq_iff_eq.mpr rfl
    rw [contains_erase, hself]
    rfl

theorem Kicked.viewed (h : Kicked fabricId root s) (hswapped : s.admin = .swapped)
    (hguard : NoneUnderWay fabricId s .view) :
    Kicked fabricId root
      { s with admin := .kicking (s.gate.online.endpointsOfFabric fabricId) } where
  calls i := by
    have hcall := h.calls i
    -- who has a place in the table is in the list
    have hpending : ∀ input cap, Placed s.gate.online input cap →
        Pending fabricId (.kicking (s.gate.online.endpointsOfFabric fabricId)) input cap := by
      intro input cap hplaced c hc hfabric
      have hconn := hplaced c hc
      rw [hfabric] at hconn
      exact OnlineTable.mem_endpointsOfFabric hconn
    show (s.calls i).Fine fabricId (.kicking _) s.gate.online i
    cases hphase : s.calls i with
    | idle => trivial
    | finished => trivial
    | snapped input cap snapshot =>
      rw [hphase] at hcall
      exact ⟨hcall.1, fun _ hfabric => hguard i input cap snapshot hphase hfabric⟩
    | asking input cap =>
      rw [hphase] at hcall
      exact ⟨hcall.1, hcall.2.1, hpending input cap hcall.2.1⟩
    | allowed input cap =>
      rw [hphase] at hcall
      exact ⟨hcall.1, hcall.2.1, hpending input cap hcall.2.1⟩
    | online input cap =>
      rw [hphase] at hcall
      exact ⟨hcall.1, hcall.2.1, hpending input cap hcall.2.1⟩
    | ended input cap =>
      rw [hphase] at hcall
      exact hcall
  sole := h.sole
  unregistered _ := h.unregistered (by rw [hswapped]; nofun)

omit [ServerCrypto] in
theorem Pending.rest {endpointId : BytesN 32} {rest : List (BytesN 32)} {input : GateInput}
    {cap : Option RelayCap} (h : Pending fabricId (.kicking (endpointId :: rest)) input cap)
    (hother : ∀ c ∈ cap, c.fabricId = fabricId → input.endpointId ≠ endpointId) :
    Pending fabricId (.kicking rest) input cap := by
  intro c hc hfabric
  exact (List.mem_cons.mp (h c hc hfabric)).resolve_left (hother c hc hfabric)

theorem Phase.Fine.disconnect {phase : Phase} {table : OnlineTable} {i : UInt64}
    {endpointId : BytesN 32} {rest : List (BytesN 32)}
    (h : phase.Fine fabricId (.kicking (endpointId :: rest)) table i)
    (hguard : ∀ input cap, phase = .asking input (some cap) ∨ phase = .allowed input (some cap) →
      cap.fabricId = fabricId → input.endpointId ≠ endpointId) :
    (phase.disconnect endpointId).Fine fabricId (.kicking rest) table i := by
  cases phase with
  | idle => trivial
  | finished => trivial
  | snapped input cap snapshot => exact ⟨h.1, fun _ => h.2 trivial⟩
  | asking input cap =>
    refine ⟨h.1, h.2.1, h.2.2.rest fun c hc hfabric => ?_⟩
    cases hc
    exact hguard input c (Or.inl rfl) hfabric
  | allowed input cap =>
    refine ⟨h.1, h.2.1, h.2.2.rest fun c hc hfabric => ?_⟩
    cases hc
    exact hguard input c (Or.inr rfl) hfabric
  | online input cap =>
    by_cases hsame : input.endpointId = endpointId
    · rw [Phase.disconnect, if_pos hsame]
      exact ⟨h.1, h.2.1⟩
    · rw [Phase.disconnect, if_neg hsame]
      exact ⟨h.1, h.2.1, h.2.2.rest fun _ _ _ => hsame⟩
  | ended input cap => exact h

theorem Phase.Fine.skip {phase : Phase} {table : OnlineTable} {i : UInt64}
    {endpointId : BytesN 32} {rest : List (BytesN 32)}
    (h : phase.Fine fabricId (.kicking (endpointId :: rest)) table i)
    (hkey : ServerCrypto.isVerifyingKey endpointId = false) :
    phase.Fine fabricId (.kicking rest) table i := by
  have hother : ∀ input, Own i input → input.endpointId ≠ endpointId := by
    rintro input hown rfl
    rw [hown.2.2] at hkey
    cases hkey
  cases phase with
  | idle => trivial
  | finished => trivial
  | snapped input cap snapshot => exact ⟨h.1, fun _ => h.2 trivial⟩
  | asking input cap => exact ⟨h.1, h.2.1, h.2.2.rest fun _ _ _ => hother input h.1⟩
  | allowed input cap => exact ⟨h.1, h.2.1, h.2.2.rest fun _ _ _ => hother input h.1⟩
  | online input cap => exact ⟨h.1, h.2.1, h.2.2.rest fun _ _ _ => hother input h.1⟩
  | ended input cap => exact h

theorem Kicked.kicked (h : Kicked fabricId root s) {endpointId : BytesN 32}
    {rest : List (BytesN 32)} (hkicking : s.admin = .kicking (endpointId :: rest))
    (hguard : NoneUnderWay fabricId s .kick) :
    Kicked fabricId root
      { (if ServerCrypto.isVerifyingKey endpointId then s.disconnect endpointId else s) with
        admin := .kicking rest } := by
  have hnot : s.admin ≠ .idle := by
    rw [hkicking]
    nofun
  have hcalls : ∀ i, (s.calls i).Fine fabricId (.kicking (endpointId :: rest)) s.gate.online i :=
    fun i => hkicking ▸ h.calls i
  cases hkey : ServerCrypto.isVerifyingKey endpointId with
  | false =>
    rw [if_neg Bool.false_ne_true]
    exact ⟨fun i => Phase.Fine.skip (hcalls i) hkey, h.sole, fun _ => h.unregistered hnot⟩
  | true =>
    rw [if_pos rfl]
    have hunder := hguard endpointId rest hkicking
    exact ⟨fun i => Phase.Fine.disconnect (hcalls i) (hunder i), h.sole,
      fun _ => h.unregistered hnot⟩

/-- **Every step keeps it**, when no admission is under way where the administrator looks. -/
theorem Kicked.step (h : Kicked fabricId root s) {l : Label} (hguard : NoneUnderWay fabricId s l)
    (hstep : s.step fabricId root l = some s') : Kicked fabricId root s' := by
  cases l with
  | start i input clock =>
    simp only [RelayState.step] at hstep
    split at hstep
    · split at hstep
      · next hauth =>
        cases hstep
        exact h.start ⟨hauth.2.1, hauth.1, hauth.2.2⟩
      · cases hstep
    · cases hstep
  | reserve i clock =>
    simp only [RelayState.step] at hstep
    split at hstep
    · next hcall =>
      cases hstep
      exact h.reserve hcall
    · cases hstep
  | answer i d =>
    simp only [RelayState.step] at hstep
    split at hstep
    · next hcall =>
      cases hstep
      exact h.answer hcall
    · cases hstep
  | register i =>
    simp only [RelayState.step] at hstep
    split at hstep
    · next input cap hcall =>
      cases hstep
      have hallowed := h.calls i
      rw [hcall] at hallowed
      exact h.set hallowed
    · cases hstep
  | fail i =>
    simp only [RelayState.step] at hstep
    split at hstep
    · next input cap hcall =>
      cases hstep
      have hallowed := h.calls i
      rw [hcall] at hallowed
      exact h.released hallowed.1
    · cases hstep
  | close i =>
    simp only [RelayState.step] at hstep
    split at hstep
    · next input cap hcall =>
      cases hstep
      have honline := h.calls i
      rw [hcall] at honline
      exact h.set ⟨honline.1, honline.2.1⟩
    · cases hstep
  | release i =>
    simp only [RelayState.step] at hstep
    split at hstep
    · next input cap hcall =>
      cases hstep
      have hended := h.calls i
      rw [hcall] at hended
      exact h.released hended.1
    · cases hstep
  | unregister =>
    simp only [RelayState.step] at hstep
    split at hstep
    · next hidle =>
      cases hstep
      exact h.unregistered_step hidle
    · cases hstep
  | view =>
    simp only [RelayState.step] at hstep
    split at hstep
    · next hswapped =>
      cases hstep
      exact h.viewed hswapped hguard
    · cases hstep
  | kick =>
    simp only [RelayState.step] at hstep
    split at hstep
    · next hkicking =>
      cases hstep
      exact h.kicked hkicking hguard
    · cases hstep
  | «return» =>
    simp only [RelayState.step] at hstep
    split at hstep
    · next hkicking =>
      cases hstep
      refine ⟨fun i => ?_, h.sole, fun _ => h.unregistered (by rw [hkicking]; nofun)⟩
      have hcall := h.calls i
      rw [hkicking] at hcall
      -- nobody was left
      show (s.calls i).Fine fabricId .returned s.gate.online i
      have hnone : ∀ input cap, Pending fabricId (.kicking []) input cap →
          Pending fabricId .returned input cap :=
        fun input cap hpending c hc hfabric => List.not_mem_nil (hpending c hc hfabric)
      cases hphase : s.calls i with
      | idle => trivial
      | finished => trivial
      | snapped input cap snapshot =>
        rw [hphase] at hcall
        exact hcall
      | asking input cap =>
        rw [hphase] at hcall
        exact ⟨hcall.1, hcall.2.1, hnone input cap hcall.2.2⟩
      | allowed input cap =>
        rw [hphase] at hcall
        exact ⟨hcall.1, hcall.2.1, hnone input cap hcall.2.2⟩
      | online input cap =>
        rw [hphase] at hcall
        exact ⟨hcall.1, hcall.2.1, hnone input cap hcall.2.2⟩
      | ended input cap =>
        rw [hphase] at hcall
        exact hcall
    · cases hstep

theorem kicked_of_reachable
    (h : (revocationMachine fabricId root).ReachableUnder (NoneUnderWay fabricId) s) :
    Kicked fabricId root s := by
  refine h.invariant (fun s hinit => ?_) fun s l s' hkept hguard hstep => hkept.step hguard hstep
  obtain ⟨-, hidle, hadmin, hsole⟩ := hinit
  refine ⟨fun i => ?_, hsole, fun hnot => absurd hadmin hnot⟩
  rw [hidle i]
  trivial

/-- **Revocation completeness**, as far as it goes: in a run in which no admission is under way
where the administrator looks, no connection of the fabric is online, now or later, once the call
has returned. -/
theorem revocation_complete (fabricId root : BytesN 32) (s : RelayState)
    (h : (revocationMachine fabricId root).ReachableUnder (NoneUnderWay fabricId) s)
    (hreturned : s.admin = .returned) (i : UInt64) (input : GateInput) (cap : RelayCap)
    (honline : s.calls i = .online input (some cap)) : cap.fabricId ≠ fabricId := by
  intro hfabric
  have hcall := (kicked_of_reachable h).calls i
  rw [honline, hreturned] at hcall
  exact hcall.2.2 cap rfl hfabric

/-! ## An admission, step by step -/

variable {i : UInt64} {input : GateInput} {cap : RelayCap} {clock : Clock}

theorem step_start (hidle : s.calls i = .idle) (hown : Own i input)
    (hunblocked : s.gate.Unblocked input) (hticket : s.gate.Ticketed input clock cap) :
    s.step fabricId root (.start i input clock)
      = some (s.set i (.snapped input cap s.gate.registry)) := by
  obtain ⟨token, hselects, hdecode⟩ := hticket.token
  have htoken : s.gate.checkToken input token clock.ticket = .ok cap :=
    AccessGate.checkToken_eq_ok.mpr ⟨hdecode, hticket.valid, hticket.fabric⟩
  have hblocked : Blocklist.isBlocked s.gate.blocklist .endpoint input.endpointId = false := by
    refine hunblocked ?_
    rw [Op.authenticatesEndpoint, hown.2.1]
    decide
  simp only [RelayState.step, hidle]
  rw [if_pos ⟨hown.2.1, hown.1, hown.2.2⟩, RelayState.start, hblocked,
    if_neg Bool.false_ne_true, classifyCredential_eq_token.mpr hselects]
  dsimp only
  rw [htoken]

theorem step_reserve {snapshot : RegistrySnapshot} {online : OnlineTable}
    (hcall : s.calls i = .snapped input cap snapshot)
    (howner : AccessGate.checkOwner snapshot input.op cap clock.owner = .ok ())
    (hroom : s.gate.reserveOwner input cap = some online) :
    s.step fabricId root (.reserve i clock)
      = some ({ s with gate := { s.gate with online } }.set i (.asking input (some cap))) := by
  simp only [RelayState.step, hcall]
  rw [RelayState.reserve, howner]
  dsimp only
  rw [hroom]

theorem step_answer {d : Callback.Decision} (hcall : s.calls i = .asking input (some cap))
    (hpolicy : s.gate.policy = .static) :
    s.step fabricId root (.answer i d) = some (s.set i (.allowed input (some cap))) := by
  simp only [RelayState.step, hcall, RelayState.answer, AccessGate.conclude, hpolicy,
    AccessGate.decideL2]
  rw [if_neg (fun hdeny => hdeny.2.2 rfl)]

theorem step_register {c : Option RelayCap} (hcall : s.calls i = .allowed input c) :
    s.step fabricId root (.register i) = some (s.set i (.online input c)) := by
  simp only [RelayState.step, hcall]

theorem reached {G : RelayState → Label → Prop} {l : Label}
    (h : (revocationMachine fabricId root).ReachableUnder G s)
    (hstep : s.step fabricId root l = some s') (hguard : G s l) :
    (revocationMachine fabricId root).ReachableUnder G s' :=
  h.step hguard hstep

omit [ServerCrypto] in
theorem calls_set_of_ne {phase : Phase} {j : UInt64} (h : j ≠ i) :
    (s.set i phase).calls j = s.calls j := Function.update_of_ne h ..

end

end Revocation

namespace FrozenVector

open Revocation

attribute [local instance] serverCrypto

def relay : RelayState := { gate, calls := fun _ => .idle, admin := .idle }

theorem own_input : Own 1 input := ⟨rfl, rfl, by decide⟩

theorem unblocked : gate.Unblocked input := fun _ => by decide

theorem room : ∃ online, gate.reserveOwner input ticket = some online := by
  refine isSome_iff_exists.mp (AccessGate.reserveOwner_isSome.mpr fun _ limit hlimit => ?_)
  cases hlimit
  decide

theorem initial (other : BytesN 32) : RelayState.Initial other issuer relay := by
  refine ⟨rfl, fun _ => rfl, rfl, fun root hroot => ?_⟩
  have hcontains : ((∅ : ExtTreeMap OwnerKey EntryMeta).insert ⟨fabricId, issuer⟩ default).contains
      ⟨other, root⟩ = true := hroot
  rw [contains_insert, contains_empty, Bool.or_false] at hcontains
  -- the one owner of the gate
  have hsame : (⟨fabricId, issuer⟩ : OwnerKey) = ⟨other, root⟩ :=
    Std.LawfulEqCmp.eq_of_compare (beq_iff_eq.mp hcontains)
  exact (OwnerKey.mk.inj hsame).2.symm

theorem owner_checked :
    AccessGate.checkOwner gate.registry input.op ticket clock.owner = .ok () :=
  AccessGate.checkOwner_eq_ok.mpr ⟨ticketed.owner, ticketed.bit⟩

theorem started (other root : BytesN 32) :
    relay.step other root (.start 1 input clock)
      = some (relay.set 1 (.snapped input ticket relay.gate.registry)) :=
  step_start (s := relay) rfl own_input unblocked ticketed

/-- An admission takes its snapshot, the owner is unregistered and everything of the fabric is
disconnected, and then the connection comes online. -/
theorem admission_outlives_unregister :
    ∃ s, (revocationMachine fabricId issuer).Reachable s ∧ s.admin = .returned
      ∧ s.calls 1 = .online input (some ticket) ∧ ticket.fabricId = fabricId := by
  obtain ⟨online, honline⟩ := room
  let s₁ := relay.set 1 (.snapped input ticket relay.gate.registry)
  let s₂ := s₁.unregistered fabricId issuer
  let s₃ : RelayState := { s₂ with admin := .kicking [] }
  let s₄ : RelayState := { s₃ with admin := .returned }
  let s₅ := { s₄ with gate := { s₄.gate with online } }.set 1 (.asking input (some ticket))
  let s₆ := s₅.set 1 (.allowed input (some ticket))
  let s₇ := s₆.set 1 (.online input (some ticket))
  have h₁ : relay.step fabricId issuer (.start 1 input clock) = some s₁ := started fabricId issuer
  have h₂ : s₁.step fabricId issuer .unregister = some s₂ := rfl
  have h₃ : s₂.step fabricId issuer .view = some s₃ := by
    -- nobody is in the table
    have hnone : gate.online.endpointsOfFabric fabricId = [] := by decide
    show some { s₂ with admin := .kicking (gate.online.endpointsOfFabric fabricId) } = some s₃
    rw [hnone]
  have h₄ : s₃.step fabricId issuer .return = some s₄ := rfl
  have h₅ : s₄.step fabricId issuer (.reserve 1 clock) = some s₅ :=
    step_reserve (s := s₄) rfl owner_checked honline
  have h₆ : s₅.step fabricId issuer (.answer 1 .transientUnavailable) = some s₆ :=
    step_answer (s := s₅) rfl rfl
  have h₇ : s₆.step fabricId issuer (.register 1) = some s₇ := step_register (s := s₆) rfl
  have r₁ : (revocationMachine fabricId issuer).Reachable s₁ :=
    reached (.init (initial fabricId)) h₁ trivial
  have r₂ := reached r₁ h₂ trivial
  have r₃ := reached r₂ h₃ trivial
  have r₄ := reached r₃ h₄ trivial
  have r₅ := reached r₄ h₅ trivial
  have r₆ := reached r₅ h₆ trivial
  have r₇ := reached r₆ h₇ trivial
  exact ⟨s₇, r₇, rfl, rfl, rfl⟩

def otherFabric : BytesN 32 := ⟨List.replicate 32 9, rfl⟩

theorem revocation_complete_other :
    (∃ s, (revocationMachine otherFabric issuer).Reachable s ∧ s.admin = .returned
      ∧ s.calls 1 = .online input (some ticket)) ∧ ticket.fabricId ≠ otherFabric := by
  obtain ⟨online, honline⟩ := room
  let s₁ := relay.set 1 (.snapped input ticket relay.gate.registry)
  let s₂ := { s₁ with gate := { s₁.gate with online } }.set 1 (.asking input (some ticket))
  let s₃ := s₂.set 1 (.allowed input (some ticket))
  let s₄ := s₃.set 1 (.online input (some ticket))
  let s₅ := s₄.unregistered otherFabric issuer
  let s₆ : RelayState := { s₅ with admin := .kicking [] }
  let s₇ : RelayState := { s₆ with admin := .returned }
  have h₁ : relay.step otherFabric issuer (.start 1 input clock) = some s₁ :=
    started otherFabric issuer
  have h₂ : s₁.step otherFabric issuer (.reserve 1 clock) = some s₂ :=
    step_reserve (s := s₁) rfl owner_checked honline
  have h₃ : s₂.step otherFabric issuer (.answer 1 .transientUnavailable) = some s₃ :=
    step_answer (s := s₂) rfl rfl
  have h₄ : s₃.step otherFabric issuer (.register 1) = some s₄ := step_register (s := s₃) rfl
  have h₅ : s₄.step otherFabric issuer .unregister = some s₅ := rfl
  have hnone : online.endpointsOfFabric otherFabric = [] := by
    refine List.eq_nil_iff_forall_not_mem.mpr fun endpointId hmem => ?_
    obtain ⟨key, -, hconn⟩ := OnlineTable.exists_of_mem_endpointsOfFabric hmem
    have hroom : gate.online.reserve ticket.fabricId input.connKey (some 1) = some online := honline
    rw [OnlineTable.conns_reserve hroom, getElem?_insert] at hconn
    split at hconn
    · -- the one connection there is of the ticket's fabric
      have hsame : ticket.fabricId = otherFabric := some.inj (some.inj hconn)
      exact absurd hsame (by decide)
    · have hempty : (gate.online.conns[key]? : Option (Option (BytesN 32))) = none :=
        getElem?_empty
      rw [hempty] at hconn
      cases hconn
  have h₆ : s₅.step otherFabric issuer .view = some s₆ := by
    show some { s₅ with admin := .kicking (online.endpointsOfFabric otherFabric) } = some s₆
    rw [hnone]
  have h₇ : s₆.step otherFabric issuer .return = some s₇ := rfl
  have hview : NoneUnderWay otherFabric s₅ .view := by
    -- the one call is online
    rintro i input' cap snapshot hcall -
    by_cases hi : i = 1
    · subst hi
      cases hcall
    · have hidle : s₅.calls i = .idle :=
        ((calls_set_of_ne hi).trans (calls_set_of_ne hi)).trans
          ((calls_set_of_ne hi).trans (calls_set_of_ne hi))
      rw [hidle] at hcall
      cases hcall
  have r₁ : (revocationMachine otherFabric issuer).ReachableUnder (NoneUnderWay otherFabric) s₁ :=
    reached (.init (initial otherFabric)) h₁ trivial
  have r₂ := reached r₁ h₂ trivial
  have r₃ := reached r₂ h₃ trivial
  have r₄ := reached r₃ h₄ trivial
  have r₅ := reached r₄ h₅ trivial
  have r₆ := reached r₅ h₆ hview
  have r₇ := reached r₆ h₇ trivial
  exact ⟨⟨s₇, r₇.reachable, rfl, rfl⟩,
    revocation_complete otherFabric issuer s₇ r₇ rfl 1 input ticket rfl⟩

end FrozenVector

end Dweb
