import OpenDweb.Server.Blocklist
import OpenDweb.Server.Callback
import OpenDweb.Server.Visitor

/-!
# OpenDweb — the access gate

Embedding of `dweb-server/src/access/gate.rs`: the chain of checks on a relay connection or a
rendezvous request, up to the policy.

* **`classifyCredential`** — a credential that is there and ill-formed is not the same as none.
* **`OnlineTable`** — who is connected, and the quotas.
* **`AccessGate.prepare`**, **`AccessGate.conclude`** — `decide`, before and after it waits for the
  policy; **`AccessGate.decide`** is one after the other.
* **`AccessGate.prepare_cases`** — the ways `prepare` ends, and what each tells.
-/

namespace Dweb

open Std (ExtTreeMap)
open Option Std.ExtTreeMap

def OWNER_QUOTA_EXCEEDED : String := "dweb/owner-quota-exceeded"
def BLOCKED_REASON : String := "dweb/blocked"
def OWNER_EXPIRED : String := "dweb/owner-expired"
def VISITOR_QUOTA_EXCEEDED : String := "dweb/visitor-quota-exceeded"

/-! ## Operations -/

inductive Op where
  | relayConnect
  | rdzAnnounce
  | rdzResolve
  deriving DecidableEq

namespace Op

def requiredCap : Op → UInt8
  | relayConnect => Cap.CAP_RELAY
  | rdzAnnounce => Cap.CAP_RDZ_ANNOUNCE
  | rdzResolve => Cap.CAP_RDZ_RESOLVE

def missingReason : Op → String
  | relayConnect => "dweb/caps-missing-relay"
  | rdzAnnounce => "dweb/caps-missing-rdz-announce"
  | rdzResolve => "dweb/caps-missing-rdz-resolve"

def checksRecipient (op : Op) : Bool := op ≠ rdzResolve

def authenticatesEndpoint (op : Op) : Bool := op ≠ rdzResolve

end Op

structure GateInput where
  endpointId : BytesN 32
  authHeader : Option String
  queryToken : Option String
  connectionId : UInt64
  op : Op

inductive GateDecision where
  | allow
  | deny (reason : String)
  deriving DecidableEq

/-! ## Credentials -/

inductive Credential where
  | none
  | malformed
  | token (token : String)
  deriving DecidableEq

/-- `strip_bearer`. -/
def stripBearer (value : String) : Option String :=
  match splitOnce value ' ' with
  | some (scheme, rest) => if eqIgnoreAsciiCase scheme "Bearer" then some rest else none
  | none => none

/-- `starts_with(cap::TOKEN_PREFIX)`. -/
def isTokenText (token : String) : Bool := (stripPrefix token Cap.TOKEN_PREFIX).isSome

/-- `classify_credential`. -/
def classifyCredential (authHeader queryToken : Option String) : Credential :=
  let query (headerToken : Option String) : Credential :=
    if queryToken.any fun token => !isTokenText token then .malformed
    else
      match headerToken.or queryToken with
      | some token => .token token
      | none => .none
  match authHeader with
  | none => query none
  | some header =>
    match stripBearer header with
    | none => .malformed
    | some token =>
      if token = "" then .malformed
      else if ¬isTokenText token then .malformed
      else query (some token)

/-- Every source that is there is well formed, and this is the one that is used. -/
structure Selects (authHeader queryToken : Option String) (token : String) : Prop where
  header : ∀ header ∈ authHeader, ∃ t, stripBearer header = some t ∧ isTokenText t = true
  query : ∀ t ∈ queryToken, isTokenText t = true
  selected : (authHeader.bind stripBearer).or queryToken = some token

theorem isTokenText_token (cap : RelayCap) : isTokenText cap.token = true := by
  have hstrip : stripPrefix cap.token Cap.TOKEN_PREFIX
      = some (base64Encode (cap.canonicalBytes ++ cap.signature.toBytes)) :=
    stripPrefix_eq_some.mpr rfl
  rw [isTokenText, hstrip]
  rfl

theorem selects_query {token : String} (h : isTokenText token = true) :
    Selects none (some token) token where
  header := nofun
  query _ ht := some.inj ht ▸ h
  selected := rfl

theorem isTokenText_empty : isTokenText "" = false := by
  decide +kernel

theorem classifyCredential_eq_none {authHeader queryToken : Option String} :
    classifyCredential authHeader queryToken = .none ↔ authHeader = none ∧ queryToken = none := by
  unfold classifyCredential
  cases authHeader with
  | none =>
    cases queryToken with
    | none => exact iff_of_true rfl ⟨rfl, rfl⟩
    | some t =>
      cases h : isTokenText t with
      | false => simp [h]
      | true => simp [h]
  | some header =>
    refine iff_of_false ?_ nofun
    dsimp only
    -- a header that is there is ill-formed, or a token
    split
    · nofun
    · split
      · nofun
      · split
        · nofun
        · split
          · nofun
          · rw [some_or]
            nofun

theorem classifyCredential_eq_token {authHeader queryToken : Option String} {token : String} :
    classifyCredential authHeader queryToken = .token token
      ↔ Selects authHeader queryToken token := by
  have hquery : (queryToken.any fun t => !isTokenText t) = false
      ↔ ∀ t ∈ queryToken, isTokenText t = true := by
    cases queryToken with
    | none => exact iff_of_true rfl nofun
    | some t =>
      rw [any_some, Bool.not_eq_false']
      exact ⟨fun h t' ht' => some.inj ht' ▸ h, fun h => h t rfl⟩
  unfold classifyCredential
  cases authHeader with
  | none =>
    dsimp only
    constructor
    · intro h
      split at h
      · cases h
      · next hany =>
        rw [Bool.not_eq_true] at hany
        refine ⟨nofun, hquery.mp hany, ?_⟩
        show none.or queryToken = some token
        cases hq : none.or queryToken with
        | none =>
          rw [hq] at h
          cases h
        | some t =>
          rw [hq] at h
          cases h
          rfl
    · intro h
      have hsel : none.or queryToken = some token := h.selected
      rw [if_neg (by rw [hquery.mpr h.query]; exact Bool.false_ne_true), hsel]
  | some header =>
    dsimp only
    constructor
    · intro h
      split at h
      · cases h
      · next t hstrip =>
        split at h
        · cases h
        · split at h
          · cases h
          · next htext =>
            rw [not_not] at htext
            split at h
            · cases h
            · next hany =>
              rw [Bool.not_eq_true] at hany
              rw [some_or] at h
              cases h
              refine ⟨fun header' hmem => ?_, hquery.mp hany, ?_⟩
              · cases hmem
                exact ⟨token, hstrip, htext⟩
              · show (stripBearer header).or queryToken = some token
                rw [hstrip, some_or]
    · intro h
      obtain ⟨t, hstrip, htext⟩ := h.header header rfl
      have hsel : (stripBearer header).or queryToken = some token := h.selected
      rw [hstrip, some_or] at hsel
      cases hsel
      have hne : token ≠ "" := by
        rintro rfl
        rw [isTokenText_empty] at htext
        cases htext
      rw [hstrip]
      dsimp only
      rw [if_neg hne, if_neg (not_not.mpr htext),
        if_neg (by rw [hquery.mpr h.query]; exact Bool.false_ne_true), some_or]

/-! ## The online table -/

structure ConnKey where
  endpointId : BytesN 32
  connectionId : UInt64

def ConnKey.tuple (k : ConnKey) : BytesN 32 ×ₗ UInt64 := toLex (k.endpointId, k.connectionId)

instance : LinearOrder ConnKey := LinearOrder.lift' ConnKey.tuple fun a b h => by
  cases a
  cases b
  cases toLex.injective h
  rfl

/-- `OnlineInner`: each connection with its fabric, none for a visitor's; and how many there are of
each fabric and of each visitor. -/
structure OnlineTable where
  conns : ExtTreeMap ConnKey (Option (BytesN 32))
  owners : ExtTreeMap (BytesN 32) Nat
  visitors : ExtTreeMap (BytesN 32) Nat

namespace OnlineTable

def empty : OnlineTable := { conns := ∅, owners := ∅, visitors := ∅ }

def decrement (counts : ExtTreeMap (BytesN 32) Nat) (id : BytesN 32) : ExtTreeMap (BytesN 32) Nat :=
  match counts[id]? with
  | none => counts
  | some 0 => counts
  | some 1 => counts.erase id
  | some (n + 2) => counts.insert id (n + 1)

/-- `decrement_by_owner`. -/
def decrementByOwner (t : OnlineTable) (owner : Option (BytesN 32)) (endpointId : BytesN 32) :
    OnlineTable :=
  match owner with
  | some fabricId => { t with owners := decrement t.owners fabricId }
  | none => { t with visitors := decrement t.visitors endpointId }

/-- A connection is written over whatever it was before. -/
def record (t : OnlineTable) (key : ConnKey) (owner : Option (BytesN 32)) : OnlineTable :=
  let old := t.conns[key]?
  let t := { t with conns := t.conns.insert key owner }
  match old with
  | some owner => t.decrementByOwner owner key.endpointId
  | none => t

/-- `reserve`; `none` is over the limit. -/
def reserve (t : OnlineTable) (fabricId : BytesN 32) (key : ConnKey) (limit : Option Nat) :
    Option OnlineTable :=
  if limit.any fun l => l ≤ t.owners.getD fabricId 0 then none
  else
    let t := t.record key (some fabricId)
    some { t with owners := t.owners.insert fabricId (t.owners.getD fabricId 0 + 1) }

/-- `reserve_visitor`; `none` is over one of the limits. -/
def reserveVisitor (t : OnlineTable) (key : ConnKey) (perEndpointLimit globalLimit : Nat) :
    Option OnlineTable :=
  if perEndpointLimit ≤ t.visitors.getD key.endpointId 0 then none
  else if globalLimit ≤ t.visitors.values.sum then none
  else
    let t := t.record key none
    some { t with
      visitors := t.visitors.insert key.endpointId (t.visitors.getD key.endpointId 0 + 1) }

/-- `release`. -/
def release (t : OnlineTable) (key : ConnKey) : OnlineTable :=
  match t.conns[key]? with
  | some owner => { t with conns := t.conns.erase key }.decrementByOwner owner key.endpointId
  | none => t

/-- `view().per_endpoint` and `endpoints_of_fabric`, without the counts: who is online of a
fabric. -/
def endpointsOfFabric (t : OnlineTable) (fabricId : BytesN 32) : List (BytesN 32) :=
  (t.conns.toList.filterMap fun entry =>
    if entry.2 = some fabricId then some entry.1.endpointId else none).dedup

@[simp] theorem conns_decrementByOwner (t : OnlineTable) (owner : Option (BytesN 32))
    (endpointId : BytesN 32) : (t.decrementByOwner owner endpointId).conns = t.conns := by
  cases owner <;> rfl

@[simp] theorem conns_record (t : OnlineTable) (key : ConnKey) (owner : Option (BytesN 32)) :
    (t.record key owner).conns = t.conns.insert key owner := by
  unfold record
  dsimp only
  split
  · rw [conns_decrementByOwner]
  · rfl

variable {t : OnlineTable} {fabricId : BytesN 32} {key : ConnKey}

theorem conns_reserve {t' : OnlineTable} {limit : Option Nat}
    (h : t.reserve fabricId key limit = some t') :
    t'.conns = t.conns.insert key (some fabricId) := by
  unfold reserve at h
  split at h
  · cases h
  · cases h
    exact conns_record t key (some fabricId)

theorem conns_reserveVisitor {t' : OnlineTable} {perEndpoint global : Nat}
    (h : t.reserveVisitor key perEndpoint global = some t') :
    t'.conns = t.conns.insert key none := by
  unfold reserveVisitor at h
  split at h
  · cases h
  · split at h
    · cases h
    · cases h
      exact conns_record t key none

@[simp] theorem conns_release (t : OnlineTable) (key : ConnKey) :
    (t.release key).conns = t.conns.erase key := by
  unfold release
  split
  · rw [conns_decrementByOwner]
  · next hnone =>
    -- erasing what is not there
    refine ext_getElem? fun k => ?_
    rw [getElem?_erase]
    split
    · next heq => rw [← Std.LawfulEqCmp.eq_of_compare heq, hnone]
    · rfl

theorem mem_endpointsOfFabric (h : t.conns[key]? = some (some fabricId)) :
    key.endpointId ∈ t.endpointsOfFabric fabricId := by
  have hmem : (key, some fabricId) ∈ t.conns.toList :=
    mem_toList_iff_getElem?_eq_some.mpr h
  refine List.mem_dedup.mpr (List.mem_filterMap.mpr ⟨_, hmem, ?_⟩)
  exact if_pos rfl

theorem exists_of_mem_endpointsOfFabric {endpointId : BytesN 32}
    (h : endpointId ∈ t.endpointsOfFabric fabricId) :
    ∃ key : ConnKey, key.endpointId = endpointId ∧ t.conns[key]? = some (some fabricId) := by
  obtain ⟨⟨key, owner⟩, hmem, hentry⟩ := List.mem_filterMap.mp (List.mem_dedup.mp h)
  have hconn := mem_toList_iff_getElem?_eq_some.mp hmem
  split at hentry
  · next howner =>
    have howner : owner = some fabricId := howner
    exact ⟨key, some.inj hentry, howner ▸ hconn⟩
  · cases hentry

end OnlineTable

/-! ## The gate -/

inductive Policy where
  | static
  | callback
  deriving DecidableEq

structure AccessGate where
  serverId : BytesN 32
  registry : RegistrySnapshot
  registryGeneration : UInt64
  visitors : ExtTreeMap (BytesN 32) VisitorEntry
  visitorGeneration : UInt64
  blocklist : ExtTreeMap BlockKey BlockEntry
  policy : Policy
  online : OnlineTable
  maxConnectionsPerOwner : Option Nat
  maxConnectionsPerVisitor : Nat
  maxVisitorConnections : Nat

structure Clock where
  ticket : UInt64
  owner : UInt64
  visitor : UInt64

/-- What is left to the policy, with the generations that the call has seen. -/
structure Question where
  cap : Option RelayCap
  generation : UInt64
  visitorGeneration : UInt64

inductive Prepared where
  | decided (decision : GateDecision)
  | ask (question : Question)

namespace GateInput

def connKey (input : GateInput) : ConnKey := ⟨input.endpointId, input.connectionId⟩

def subject (input : GateInput) (q : Question) : Callback.Subject :=
  { endpointId := input.endpointId, cap := q.cap }

end GateInput

namespace AccessGate

section

variable [ServerCrypto]

/-- The checks on a token before the registry: L1, and the blocked fabrics. -/
def checkToken (gate : AccessGate) (input : GateInput) (token : String) (now : UInt64) :
    Except String RelayCap := do
  let parsed ← (Cap.decode token).mapError fun _ => CapDeny.malformedCapability.reason
  let recipient := if input.op.checksRecipient then input.endpointId else parsed.recipient
  (Cap.verifyL1 parsed gate.serverId recipient now).mapError CapDeny.reason
  if Blocklist.isBlocked gate.blocklist .fabric parsed.fabricId then throw BLOCKED_REASON
  return parsed

omit [ServerCrypto] in
/-- The checks against a snapshot of the registry: L1b. -/
def checkOwner (snapshot : RegistrySnapshot) (op : Op) (parsed : RelayCap) (now : UInt64) :
    Except String Unit :=
  if ¬snapshot.containsActive parsed.fabricId parsed.issuer now then
    if snapshot.contains parsed.fabricId parsed.issuer then .error OWNER_EXPIRED
    else .error "dweb/unknown-owner"
  else if ¬parsed.hasCap op.requiredCap then .error op.missingReason
  else .ok ()

omit [ServerCrypto] in
/-- The place of a ticket's connection; a rendezvous request takes none. -/
def reserveOwner (gate : AccessGate) (input : GateInput) (parsed : RelayCap) :
    Option OnlineTable :=
  if input.op = .relayConnect then
    gate.online.reserve parsed.fabricId input.connKey gate.maxConnectionsPerOwner
  else some gate.online

/-- `decide` with a token, up to the policy. -/
def prepareToken (gate : AccessGate) (input : GateInput) (token : String) (clock : Clock) :
    AccessGate × Prepared :=
  match gate.checkToken input token clock.ticket with
  | .error reason => (gate, .decided (.deny reason))
  | .ok parsed =>
    match checkOwner gate.registry input.op parsed clock.owner with
    | .error reason => (gate, .decided (.deny reason))
    | .ok () =>
      match gate.reserveOwner input parsed with
      | none => (gate, .decided (.deny OWNER_QUOTA_EXCEEDED))
      | some online =>
        ({ gate with online }, .ask
          { cap := some parsed
            generation := gate.registryGeneration
            visitorGeneration := gate.visitorGeneration })

omit [ServerCrypto] in
/-- `decide_no_ticket`, up to the policy. -/
def prepareNoTicket (gate : AccessGate) (input : GateInput) (clock : Clock) :
    AccessGate × Prepared :=
  if input.op = .relayConnect ∧ VisitorRegistry.isActive gate.visitors input.endpointId clock.visitor
  then
    match gate.online.reserveVisitor input.connKey gate.maxConnectionsPerVisitor
        gate.maxVisitorConnections with
    | none => (gate, .decided (.deny VISITOR_QUOTA_EXCEEDED))
    | some online => ({ gate with online }, .decided .allow)
  else
    (gate, .ask
      { cap := none
        generation := gate.registryGeneration
        visitorGeneration := gate.visitorGeneration })

/-- `decide`, up to the policy. -/
def prepare (gate : AccessGate) (input : GateInput) (clock : Clock) : AccessGate × Prepared :=
  if input.op.authenticatesEndpoint ∧ Blocklist.isBlocked gate.blocklist .endpoint input.endpointId
  then (gate, .decided (.deny BLOCKED_REASON))
  else
    match classifyCredential input.authHeader input.queryToken with
    | .malformed => (gate, .decided (.deny CapDeny.malformedCapability.reason))
    | .none => gate.prepareNoTicket input clock
    | .token token => gate.prepareToken input token clock

omit [ServerCrypto] in
/-- `decide_l2`, with the provider's answer where it is asked. -/
def decideL2 (policy : Policy) (q : Question) (answer : Callback.Decision) : GateDecision :=
  match policy with
  | .static =>
    match q.cap with
    | none => .deny CapDeny.noCapability.reason
    | some _ => .allow
  | .callback => if answer.allow then .allow else .deny answer.reason

omit [ServerCrypto] in
theorem decideL2_callback {q : Question} {answer : Callback.Decision} :
    decideL2 .callback q answer = .allow ↔ answer.allow = true := by
  unfold decideL2
  cases answer.allow with
  | true => exact iff_of_true rfl rfl
  | false => exact iff_of_false nofun nofun

omit [ServerCrypto] in
theorem decideL2_static {q : Question} {answer : Callback.Decision} :
    decideL2 .static q answer = .allow ↔ q.cap.isSome = true := by
  unfold decideL2
  cases q.cap with
  | none => exact iff_of_false nofun nofun
  | some cap => exact iff_of_true rfl rfl

omit [ServerCrypto] in
/-- `decide`, after the policy: a denied connection gives its place back. -/
def conclude (gate : AccessGate) (input : GateInput) (q : Question) (decision : GateDecision) :
    AccessGate :=
  if input.op = .relayConnect ∧ q.cap.isSome ∧ decision ≠ .allow then
    { gate with online := gate.online.release input.connKey }
  else gate

/-- `decide`, with what the provider answers. -/
def decide (gate : AccessGate) (input : GateInput) (clock : Clock)
    (consult : Question → Callback.Decision) : AccessGate × GateDecision :=
  match gate.prepare input clock with
  | (gate, .decided decision) => (gate, decision)
  | (gate, .ask q) =>
    let decision := decideL2 gate.policy q (consult q)
    (gate.conclude input q decision, decision)

/-! ## What the checks come to -/

def Unblocked (gate : AccessGate) (input : GateInput) : Prop :=
  input.op.authenticatesEndpoint = true →
    Blocklist.isBlocked gate.blocklist .endpoint input.endpointId = false

/-- The call presents this ticket, and the ticket passes every check. -/
structure Ticketed (gate : AccessGate) (input : GateInput) (clock : Clock) (cap : RelayCap) :
    Prop where
  token : ∃ token, Selects input.authHeader input.queryToken token ∧ Cap.decode token = .ok cap
  /-- Bound to the endpoint, except where the endpoint is not the caller. -/
  valid : Cap.verifyL1 cap gate.serverId
    (if input.op.checksRecipient then input.endpointId else cap.recipient) clock.ticket = .ok ()
  fabric : Blocklist.isBlocked gate.blocklist .fabric cap.fabricId = false
  owner : gate.registry.containsActive cap.fabricId cap.issuer clock.owner = true
  bit : cap.hasCap input.op.requiredCap = true

omit [ServerCrypto] in
structure Visits (gate : AccessGate) (input : GateInput) (clock : Clock) : Prop where
  header : input.authHeader = none
  query : input.queryToken = none
  op : input.op = .relayConnect
  visitor : VisitorRegistry.isActive gate.visitors input.endpointId clock.visitor = true

variable {gate : AccessGate} {input : GateInput} {clock : Clock}

variable {cap : RelayCap}

theorem checkToken_eq_ok {token : String} {now : UInt64} :
    gate.checkToken input token now = .ok cap
      ↔ Cap.decode token = .ok cap
        ∧ Cap.verifyL1 cap gate.serverId
          (if input.op.checksRecipient then input.endpointId else cap.recipient) now = .ok ()
        ∧ Blocklist.isBlocked gate.blocklist .fabric cap.fabricId = false := by
  simp only [checkToken, bind_eq_ok, mapError_eq_ok, ite_throw_eq_ok, pure_eq_ok,
    Bool.not_eq_true]
  constructor
  · rintro ⟨parsed, hdecode, ⟨⟩, hverify, hblocked, rfl⟩
    exact ⟨hdecode, hverify, hblocked⟩
  · rintro ⟨hdecode, hverify, hblocked⟩
    exact ⟨cap, hdecode, (), hverify, hblocked, rfl⟩

omit [ServerCrypto] in
theorem checkOwner_eq_ok {snapshot : RegistrySnapshot} {op : Op} {now : UInt64} {u : Unit} :
    checkOwner snapshot op cap now = .ok u
      ↔ snapshot.containsActive cap.fabricId cap.issuer now = true
        ∧ cap.hasCap op.requiredCap = true := by
  unfold checkOwner
  by_cases hactive : snapshot.containsActive cap.fabricId cap.issuer now = true
  · rw [if_neg (not_not.mpr hactive)]
    by_cases hcap : cap.hasCap op.requiredCap = true
    · rw [if_neg (not_not.mpr hcap)]
      exact iff_of_true rfl ⟨hactive, hcap⟩
    · rw [if_pos hcap]
      exact iff_of_false nofun fun h => hcap h.2
  · rw [if_pos hactive]
    refine iff_of_false ?_ fun h => hactive h.1
    split <;> nofun

omit [ServerCrypto] in
theorem caps_ne_zero {op : Op} (h : cap.hasCap op.requiredCap = true) : cap.caps ≠ 0 := by
  intro hzero
  have hbit : cap.caps &&& op.requiredCap = op.requiredCap := of_decide_eq_true h
  rw [hzero, UInt8.zero_and] at hbit
  cases op <;> exact absurd hbit (by decide)

/-- **The ways `prepare` ends without a denial.** -/
inductive PrepareAccepts (gate : AccessGate) (input : GateInput) (clock : Clock) :
    AccessGate × Prepared → Prop where
  | ticket {cap : RelayCap} {online : OnlineTable} (hticket : gate.Ticketed input clock cap)
      (hroom : gate.reserveOwner input cap = some online) :
      PrepareAccepts gate input clock ({ gate with online }, .ask
        { cap := some cap
          generation := gate.registryGeneration
          visitorGeneration := gate.visitorGeneration })
  | visitor {online : OnlineTable} (hvisits : gate.Visits input clock)
      (hroom : gate.online.reserveVisitor input.connKey gate.maxConnectionsPerVisitor
        gate.maxVisitorConnections = some online) :
      PrepareAccepts gate input clock ({ gate with online }, .decided .allow)
  | noTicket (hheader : input.authHeader = none) (hquery : input.queryToken = none) :
      PrepareAccepts gate input clock (gate, .ask
        { cap := none
          generation := gate.registryGeneration
          visitorGeneration := gate.visitorGeneration })

theorem prepare_cases (gate : AccessGate) (input : GateInput) (clock : Clock) :
    (∃ reason, gate.prepare input clock = (gate, .decided (.deny reason)))
      ∨ gate.Unblocked input ∧ PrepareAccepts gate input clock (gate.prepare input clock) := by
  unfold prepare
  split
  · exact Or.inl ⟨_, rfl⟩
  · next hblocked =>
    have hunblocked : gate.Unblocked input := by
      intro hop
      have hnot := not_and.mp hblocked hop
      exact Bool.eq_false_of_not_eq_true hnot
    split
    · exact Or.inl ⟨_, rfl⟩
    · next hcred =>
      obtain ⟨hheader, hquery⟩ := classifyCredential_eq_none.mp hcred
      unfold prepareNoTicket
      split
      · next hvisit =>
        cases hroom : gate.online.reserveVisitor input.connKey gate.maxConnectionsPerVisitor
            gate.maxVisitorConnections with
        | none => exact Or.inl ⟨_, rfl⟩
        | some online =>
          exact Or.inr ⟨hunblocked, .visitor ⟨hheader, hquery, hvisit.1, hvisit.2⟩ hroom⟩
      · exact Or.inr ⟨hunblocked, .noTicket hheader hquery⟩
    · next token hcred =>
      have hselects := classifyCredential_eq_token.mp hcred
      unfold prepareToken
      cases htoken : gate.checkToken input token clock.ticket with
      | error reason => exact Or.inl ⟨_, rfl⟩
      | ok cap =>
        cases howner : checkOwner gate.registry input.op cap clock.owner with
        | error reason => exact Or.inl ⟨_, by dsimp only; rw [howner]⟩
        | ok u =>
          cases hroom : gate.reserveOwner input cap with
          | none => exact Or.inl ⟨_, by dsimp only; rw [howner]; dsimp only; rw [hroom]⟩
          | some online =>
            obtain ⟨hdecode, hvalid, hfabric⟩ := checkToken_eq_ok.mp htoken
            obtain ⟨hactive, hbit⟩ := checkOwner_eq_ok.mp howner
            have hticket : gate.Ticketed input clock cap :=
              ⟨⟨token, hselects, hdecode⟩, hvalid, hfabric, hactive, hbit⟩
            dsimp only
            rw [howner]
            dsimp only
            rw [hroom]
            exact Or.inr ⟨hunblocked, .ticket hticket hroom⟩

omit [ServerCrypto] in
def OwnerRoom (gate : AccessGate) (input : GateInput) (fabricId : BytesN 32) : Prop :=
  input.op = .relayConnect →
    ∀ limit ∈ gate.maxConnectionsPerOwner, gate.online.owners.getD fabricId 0 < limit

omit [ServerCrypto] in
def VisitorRoom (gate : AccessGate) (input : GateInput) : Prop :=
  gate.online.visitors.getD input.endpointId 0 < gate.maxConnectionsPerVisitor
    ∧ gate.online.visitors.values.sum < gate.maxVisitorConnections

omit [ServerCrypto] in
theorem reserveOwner_isSome :
    (gate.reserveOwner input cap).isSome = true ↔ gate.OwnerRoom input cap.fabricId := by
  unfold reserveOwner OwnerRoom OnlineTable.reserve
  by_cases hop : input.op = .relayConnect
  · rw [if_pos hop]
    cases hlimit : gate.maxConnectionsPerOwner with
    | none => exact iff_of_true rfl fun _ => nofun
    | some limit =>
      rw [any_some]
      by_cases hle : limit ≤ gate.online.owners.getD cap.fabricId 0
      · rw [if_pos (decide_eq_true hle)]
        exact iff_of_false nofun fun h => absurd (h hop limit rfl) (Nat.not_lt.mpr hle)
      · rw [if_neg (by rw [decide_eq_true_iff]; exact hle)]
        refine iff_of_true rfl fun _ l hl => ?_
        cases hl
        exact Nat.lt_of_not_le hle
  · rw [if_neg hop]
    exact iff_of_true rfl fun h => absurd h hop

omit [ServerCrypto] in
theorem reserveVisitor_isSome :
    (gate.online.reserveVisitor input.connKey gate.maxConnectionsPerVisitor
      gate.maxVisitorConnections).isSome = true ↔ gate.VisitorRoom input := by
  unfold OnlineTable.reserveVisitor VisitorRoom
  by_cases hper : gate.maxConnectionsPerVisitor ≤ gate.online.visitors.getD input.endpointId 0
  · rw [if_pos (show _ ≤ gate.online.visitors.getD input.connKey.endpointId 0 from hper)]
    exact iff_of_false nofun fun h => absurd h.1 (Nat.not_lt.mpr hper)
  · rw [if_neg (show ¬_ ≤ gate.online.visitors.getD input.connKey.endpointId 0 from hper)]
    by_cases hall : gate.maxVisitorConnections ≤ gate.online.visitors.values.sum
    · rw [if_pos hall]
      exact iff_of_false nofun fun h => absurd h.2 (Nat.not_lt.mpr hall)
    · rw [if_neg hall]
      exact iff_of_true rfl ⟨Nat.lt_of_not_le hper, Nat.lt_of_not_le hall⟩

omit [ServerCrypto] in
theorem Unblocked.not_blocked (h : gate.Unblocked input) :
    ¬(input.op.authenticatesEndpoint = true
      ∧ Blocklist.isBlocked gate.blocklist .endpoint input.endpointId = true) := by
  rintro ⟨hop, hblocked⟩
  rw [h hop] at hblocked
  cases hblocked

theorem prepare_of_ticketed (hunblocked : gate.Unblocked input)
    (hticket : gate.Ticketed input clock cap) (hroom : gate.OwnerRoom input cap.fabricId) :
    ∃ gate' q, gate.prepare input clock = (gate', .ask q) ∧ q.cap = some cap := by
  obtain ⟨online, honline⟩ := isSome_iff_exists.mp (reserveOwner_isSome.mpr hroom)
  obtain ⟨token, hselects, hdecode⟩ := hticket.token
  have htoken : gate.checkToken input token clock.ticket = .ok cap :=
    checkToken_eq_ok.mpr ⟨hdecode, hticket.valid, hticket.fabric⟩
  have howner : checkOwner gate.registry input.op cap clock.owner = .ok () :=
    checkOwner_eq_ok.mpr ⟨hticket.owner, hticket.bit⟩
  refine ⟨{ gate with online },
    { cap := some cap
      generation := gate.registryGeneration
      visitorGeneration := gate.visitorGeneration }, ?_, rfl⟩
  unfold prepare
  rw [if_neg hunblocked.not_blocked, classifyCredential_eq_token.mpr hselects]
  dsimp only [prepareToken]
  rw [htoken]
  dsimp only
  rw [howner]
  dsimp only
  rw [honline]

theorem prepare_of_visits (hunblocked : gate.Unblocked input) (hvisits : gate.Visits input clock)
    (hroom : gate.VisitorRoom input) :
    ∃ gate', gate.prepare input clock = (gate', .decided .allow) := by
  obtain ⟨online, honline⟩ := isSome_iff_exists.mp (reserveVisitor_isSome.mpr hroom)
  refine ⟨{ gate with online }, ?_⟩
  unfold prepare
  rw [if_neg hunblocked.not_blocked, classifyCredential_eq_none.mpr ⟨hvisits.header, hvisits.query⟩]
  dsimp only [prepareNoTicket]
  rw [if_pos ⟨hvisits.op, hvisits.visitor⟩, honline]

/-- **What the static policy lets in**: a ticket that passes, or a visitor, that finds room. -/
theorem decide_static (hpolicy : gate.policy = .static) (consult : Question → Callback.Decision) :
    (gate.decide input clock consult).2 = .allow
      ↔ gate.Unblocked input
        ∧ ((∃ cap, gate.Ticketed input clock cap ∧ gate.OwnerRoom input cap.fabricId)
          ∨ gate.Visits input clock ∧ gate.VisitorRoom input) := by
  constructor
  · intro h
    unfold decide at h
    cases prepare_cases gate input clock with
    | inl hdeny =>
      obtain ⟨reason, hprepare⟩ := hdeny
      rw [hprepare] at h
      cases h
    | inr haccepts =>
      obtain ⟨hunblocked, haccepts⟩ := haccepts
      refine ⟨hunblocked, ?_⟩
      generalize hprepare : gate.prepare input clock = prepared at haccepts h
      cases haccepts with
      | ticket hticket hroom =>
        have hsome := isSome_iff_exists.mpr ⟨_, hroom⟩
        exact Or.inl ⟨_, hticket, reserveOwner_isSome.mp hsome⟩
      | visitor hvisits hroom =>
        have hsome := isSome_iff_exists.mpr ⟨_, hroom⟩
        exact Or.inr ⟨hvisits, reserveVisitor_isSome.mp hsome⟩
      | noTicket hheader hquery =>
        dsimp only at h
        rw [hpolicy] at h
        cases h
  · rintro ⟨hunblocked, hcases⟩
    unfold decide
    cases hcases with
    | inl hticket =>
      obtain ⟨cap, hticket, hroom⟩ := hticket
      obtain ⟨gate', q, hprepare, hcap⟩ := prepare_of_ticketed hunblocked hticket hroom
      have hsame : gate'.policy = .static := by
        have haccepts := prepare_cases gate input clock
        rw [hprepare] at haccepts
        rcases haccepts with ⟨_, hdeny⟩ | ⟨-, haccepts⟩
        · cases hdeny
        · cases haccepts <;> exact hpolicy
      rw [hprepare]
      dsimp only
      rw [hsame, decideL2, hcap]
    | inr hvisits =>
      obtain ⟨gate', hprepare⟩ := prepare_of_visits hunblocked hvisits.1 hvisits.2
      rw [hprepare]

end

end AccessGate

end Dweb
