import OpenDweb.Lib.MapCount
import OpenDweb.Server.Admission

/-!
# OpenDweb — connection quotas

The three maps of the online table, and calls of `AccessGate::decide` that take a place in it, wait
for the webhook, and are answered or dropped.

* **`OnlineTable.Counted`** — the two counts are the numbers of connections they stand for; every
  operation keeps it.
* **`quotaMachine`** — the calls, each by its connection id.
* **`Held`** — who has a place: the calls that wait with a ticket, those let in, and those dropped
  while they waited.
-/

namespace Dweb

open Std (ExtTreeMap)
open Option Std.ExtTreeMap
open Function (update update_of_ne update_self)

namespace OnlineTable

/-! ## Counts -/

def ofFabric (t : OnlineTable) (fabricId : BytesN 32) : Nat :=
  countEntries t.conns fun _ owner => decide (owner = some fabricId)

def ofVisitor (t : OnlineTable) (endpointId : BytesN 32) : Nat :=
  countEntries t.conns fun key owner => decide (owner = none ∧ key.endpointId = endpointId)

/-- The counts are those of the connections, and there are no zeros. -/
structure Counted (t : OnlineTable) : Prop where
  owners : ∀ fabricId, t.owners[fabricId]? = nonzero (t.ofFabric fabricId)
  visitors : ∀ endpointId, t.visitors[endpointId]? = nonzero (t.ofVisitor endpointId)

theorem counted_empty : Counted .empty where
  owners fabricId := by
    rw [ofFabric, show OnlineTable.empty.conns = ∅ from rfl, countEntries_empty]
    exact getElem?_empty
  visitors endpointId := by
    rw [ofVisitor, show OnlineTable.empty.conns = ∅ from rfl, countEntries_empty]
    exact getElem?_empty

def insertNew (t : OnlineTable) (key : ConnKey) : Option (BytesN 32) → OnlineTable
  | some fabricId =>
    { t with
      conns := t.conns.insert key (some fabricId)
      owners := t.owners.insert fabricId (t.owners.getD fabricId 0 + 1) }
  | none =>
    { t with
      conns := t.conns.insert key none
      visitors := t.visitors.insert key.endpointId (t.visitors.getD key.endpointId 0 + 1) }

theorem getElem?_decrement {counts : ExtTreeMap (BytesN 32) Nat} {id : BytesN 32} {n : Nat}
    (h : counts[id]? = nonzero n) (id' : BytesN 32) :
    (decrement counts id)[id']? = if id = id' then nonzero (n - 1) else counts[id']? := by
  unfold decrement
  rw [h]
  match n with
  | 0 =>
    show counts[id']? = _
    split
    · next heq => rw [← heq, h]
    · rfl
  | 1 =>
    show (counts.erase id)[id']? = _
    rw [getElem?_erase]
    simp only [compare_eq_iff_eq]
    rfl
  | n + 2 =>
    show (counts.insert id (n + 1))[id']? = _
    rw [getElem?_insert]
    simp only [compare_eq_iff_eq]
    rfl

theorem getElem?_increment {counts : ExtTreeMap (BytesN 32) Nat} {id : BytesN 32} {n : Nat}
    (h : counts[id]? = nonzero n) (id' : BytesN 32) :
    (counts.insert id (counts.getD id 0 + 1))[id']?
      = if id = id' then nonzero (n + 1) else counts[id']? := by
  rw [getElem?_insert, getD_eq_getD_getElem?, h, getD_nonzero]
  simp only [compare_eq_iff_eq]
  rfl

/-- **A connection ends.** -/
theorem Counted.release {t : OnlineTable} (h : t.Counted) (key : ConnKey) :
    (t.release key).Counted := by
  unfold OnlineTable.release
  split
  · next owner hconn =>
    have hfabric := fun fabricId : BytesN 32 => countEntries_erase hconn
      fun _ owner => decide (owner = some fabricId)
    have hvisitor := fun endpointId : BytesN 32 => countEntries_erase hconn
      fun key owner => decide (owner = none ∧ key.endpointId = endpointId)
    cases owner with
    | some fabricId =>
      constructor
      · intro f
        show (decrement t.owners fabricId)[f]? = nonzero (countEntries (t.conns.erase key) _)
        rw [getElem?_decrement (h.owners fabricId)]
        split
        · next heq =>
          subst heq
          have hcount := hfabric fabricId
          rw [if_pos (decide_eq_true rfl)] at hcount
          rw [ofFabric, hcount, Nat.add_sub_cancel]
        · next hne =>
          have hcount := hfabric f
          rw [if_neg (by simpa using hne), Nat.add_zero] at hcount
          rw [h.owners f, ofFabric, hcount]
      · intro e
        show t.visitors[e]? = nonzero (countEntries (t.conns.erase key) _)
        have hcount := hvisitor e
        rw [if_neg (by simp), Nat.add_zero] at hcount
        rw [h.visitors e, ofVisitor, hcount]
    | none =>
      constructor
      · intro f
        show t.owners[f]? = nonzero (countEntries (t.conns.erase key) _)
        have hcount := hfabric f
        rw [if_neg (by simp), Nat.add_zero] at hcount
        rw [h.owners f, ofFabric, hcount]
      · intro e
        show (decrement t.visitors key.endpointId)[e]?
          = nonzero (countEntries (t.conns.erase key) _)
        rw [getElem?_decrement (h.visitors key.endpointId)]
        split
        · next heq =>
          subst heq
          have hcount := hvisitor key.endpointId
          rw [if_pos (decide_eq_true ⟨rfl, rfl⟩)] at hcount
          rw [ofVisitor, hcount, Nat.add_sub_cancel]
        · next hne =>
          have hcount := hvisitor e
          rw [if_neg (by simpa using hne), Nat.add_zero] at hcount
          rw [h.visitors e, ofVisitor, hcount]
  · exact h

/-- **A connection begins.** -/
theorem Counted.insertNew {t : OnlineTable} (h : t.Counted) {key : ConnKey}
    (hnew : t.conns[key]? = none) (owner : Option (BytesN 32)) :
    (t.insertNew key owner).Counted := by
  have hfabric := fun fabricId : BytesN 32 => countEntries_insert hnew owner
    fun _ owner => decide (owner = some fabricId)
  have hvisitor := fun endpointId : BytesN 32 => countEntries_insert hnew owner
    fun key owner => decide (owner = none ∧ key.endpointId = endpointId)
  cases owner with
  | some fabricId =>
    constructor
    · intro f
      show (t.owners.insert fabricId (t.owners.getD fabricId 0 + 1))[f]?
        = nonzero (countEntries (t.conns.insert key (some fabricId)) _)
      rw [getElem?_increment (h.owners fabricId), hfabric f]
      split
      · next heq => rw [if_pos (by simpa using heq), heq]; rfl
      · next hne => rw [if_neg (by simpa using hne), Nat.add_zero, h.owners f]; rfl
    · intro e
      show t.visitors[e]? = nonzero (countEntries (t.conns.insert key (some fabricId)) _)
      rw [hvisitor e, if_neg (by simp), Nat.add_zero, h.visitors e]
      rfl
  | none =>
    constructor
    · intro f
      show t.owners[f]? = nonzero (countEntries (t.conns.insert key none) _)
      rw [hfabric f, if_neg (by simp), Nat.add_zero, h.owners f]
      rfl
    · intro e
      show (t.visitors.insert key.endpointId (t.visitors.getD key.endpointId 0 + 1))[e]?
        = nonzero (countEntries (t.conns.insert key none) _)
      rw [getElem?_increment (h.visitors key.endpointId), hvisitor e]
      split
      · next heq => rw [if_pos (by simpa using heq), heq]; rfl
      · next hne => rw [if_neg (by simpa using hne), Nat.add_zero, h.visitors e]; rfl

theorem Counted.eq_empty {t : OnlineTable} (h : t.Counted)
    (hnone : ∀ key : ConnKey, t.conns[key]? = none) : t = .empty := by
  have hconns : t.conns = ∅ := ext_getElem? fun key => by
    rw [hnone key, getElem?_empty]
  have howners : t.owners = ∅ := ext_getElem? fun f => by
    rw [h.owners f, ofFabric, hconns, countEntries_empty, getElem?_empty, nonzero_zero]
  have hvisitors : t.visitors = ∅ := ext_getElem? fun e => by
    rw [h.visitors e, ofVisitor, hconns, countEntries_empty, getElem?_empty,
      nonzero_zero]
  obtain ⟨conns, owners, visitors⟩ := t
  subst hconns howners hvisitors
  rfl

/-! ## Reservations -/

theorem record_eq (t : OnlineTable) (key : ConnKey) (owner : Option (BytesN 32)) :
    t.record key owner = { t.release key with conns := t.conns.insert key owner } := by
  unfold record release
  cases hold : t.conns[key]? with
  | none => rfl
  | some old => cases old <;> rfl

theorem insert_erase (m : ExtTreeMap ConnKey (Option (BytesN 32))) (key : ConnKey)
    (owner : Option (BytesN 32)) : (m.erase key).insert key owner = m.insert key owner := by
  refine ext_getElem? fun k => ?_
  rw [getElem?_insert, getElem?_insert, getElem?_erase]
  split <;> rfl

theorem reserve_eq_some {t t' : OnlineTable} {fabricId : BytesN 32} {key : ConnKey}
    {limit : Option Nat} (h : t.reserve fabricId key limit = some t') :
    t' = (t.release key).insertNew key (some fabricId)
      ∧ ∀ l ∈ limit, t.owners.getD fabricId 0 < l := by
  unfold reserve at h
  split at h
  · cases h
  · next hlimit =>
    cases h
    constructor
    · simp only [record_eq, insertNew, conns_release, insert_erase]
    · intro l hl
      rw [mem_def.mp hl, any_some, decide_eq_true_iff] at hlimit
      omega

theorem reserveVisitor_eq_some {t t' : OnlineTable} {key : ConnKey} {perEndpoint global : Nat}
    (h : t.reserveVisitor key perEndpoint global = some t') :
    t' = (t.release key).insertNew key none
      ∧ t.visitors.getD key.endpointId 0 < perEndpoint ∧ t.visitors.values.sum < global := by
  unfold reserveVisitor at h
  split at h
  · cases h
  · next hper =>
    split at h
    · cases h
    · next hall =>
      cases h
      refine ⟨?_, by omega, by omega⟩
      simp only [record_eq, insertNew, conns_release, insert_erase]

theorem Counted.reserve {t t' : OnlineTable} (h : t.Counted) {fabricId : BytesN 32}
    {key : ConnKey} {limit : Option Nat} (hres : t.reserve fabricId key limit = some t') :
    t'.Counted := by
  obtain ⟨rfl, _⟩ := reserve_eq_some hres
  refine (h.release key).insertNew ?_ (some fabricId)
  rw [conns_release, getElem?_erase_self]

theorem Counted.reserveVisitor {t t' : OnlineTable} (h : t.Counted) {key : ConnKey}
    {perEndpoint global : Nat} (hres : t.reserveVisitor key perEndpoint global = some t') :
    t'.Counted := by
  obtain ⟨rfl, _⟩ := reserveVisitor_eq_some hres
  refine (h.release key).insertNew ?_ none
  rw [conns_release, getElem?_erase_self]

/-! ## Limits -/

/-- No count is over its limit, nor all visitors over theirs. -/
structure Within (t : OnlineTable) (perOwner : Option Nat) (perVisitor total : Nat) : Prop where
  owners : ∀ limit ∈ perOwner, ∀ fabricId, t.owners.getD fabricId 0 ≤ limit
  visitors : ∀ endpointId, t.visitors.getD endpointId 0 ≤ perVisitor
  total : t.visitors.values.sum ≤ total

theorem decrement_getD_le (counts : ExtTreeMap (BytesN 32) Nat) (id id' : BytesN 32) :
    (decrement counts id).getD id' 0 ≤ counts.getD id' 0 := by
  unfold decrement
  split
  · exact Nat.le_refl _
  · exact Nat.le_refl _
  · next hone =>
    rw [getD_erase]
    split
    · exact Nat.zero_le _
    · exact Nat.le_refl _
  · next n hn =>
    rw [getD_insert]
    split
    · next heq =>
      rw [← compare_eq_iff_eq.mp heq, getD_eq_getD_getElem?, hn, getD_some]
      omega
    · exact Nat.le_refl _

theorem contribution_getD (counts : ExtTreeMap (BytesN 32) Nat) (e : BytesN 32) :
    contribution counts id e = counts.getD e 0 := by
  rw [contribution, Option.map_id, getD_eq_getD_getElem?]
  rfl

theorem decrement_sum_le (counts : ExtTreeMap (BytesN 32) Nat) (e : BytesN 32) :
    (decrement counts e).values.sum ≤ counts.values.sum := by
  rw [values_sum, values_sum]
  refine mapSum_le_mapSum fun e' => ?_
  rw [contribution_getD, contribution_getD]
  exact decrement_getD_le counts e e'

theorem increment_sum (counts : ExtTreeMap (BytesN 32) Nat) (e : BytesN 32) :
    (counts.insert e (counts.getD e 0 + 1)).values.sum = counts.values.sum + 1 := by
  have hsum := mapSum_insert counts id e (counts.getD e 0 + 1)
  rw [contribution_getD, id] at hsum
  rw [values_sum, values_sum]
  omega

theorem release_le (t : OnlineTable) (key : ConnKey) :
    (∀ fabricId, (t.release key).owners.getD fabricId 0 ≤ t.owners.getD fabricId 0)
      ∧ (∀ endpointId, (t.release key).visitors.getD endpointId 0
          ≤ t.visitors.getD endpointId 0)
      ∧ (t.release key).visitors.values.sum ≤ t.visitors.values.sum := by
  unfold release
  split
  · next owner _ =>
    cases owner with
    | some fabricId =>
      exact ⟨decrement_getD_le t.owners fabricId, fun _ => Nat.le_refl _, Nat.le_refl _⟩
    | none =>
      exact ⟨fun _ => Nat.le_refl _, decrement_getD_le t.visitors key.endpointId,
        decrement_sum_le t.visitors key.endpointId⟩
  · exact ⟨fun _ => Nat.le_refl _, fun _ => Nat.le_refl _, Nat.le_refl _⟩

variable {t t' : OnlineTable} {perOwner : Option Nat} {perVisitor total : Nat}

theorem Within.release (h : t.Within perOwner perVisitor total) (key : ConnKey) :
    (t.release key).Within perOwner perVisitor total := by
  obtain ⟨howners, hvisitors, htotal⟩ := release_le t key
  constructor
  · exact fun limit hlimit f => Nat.le_trans (howners f) (h.owners limit hlimit f)
  · exact fun e => Nat.le_trans (hvisitors e) (h.visitors e)
  · exact Nat.le_trans htotal h.total

theorem Within.reserve (h : t.Within perOwner perVisitor total) {fabricId : BytesN 32}
    {key : ConnKey} (hres : t.reserve fabricId key perOwner = some t') :
    t'.Within perOwner perVisitor total := by
  obtain ⟨rfl, hroom⟩ := reserve_eq_some hres
  obtain ⟨howners, _⟩ := release_le t key
  have hrel := h.release key
  refine ⟨fun limit hlimit f => ?_, hrel.visitors, hrel.total⟩
  show ((t.release key).owners.insert fabricId _).getD f 0 ≤ limit
  rw [getD_insert]
  split
  · have hlt := hroom limit hlimit
    have hle := howners fabricId
    omega
  · exact hrel.owners limit hlimit f

theorem Within.reserveVisitor (h : t.Within perOwner perVisitor total) {key : ConnKey}
    (hres : t.reserveVisitor key perVisitor total = some t') :
    t'.Within perOwner perVisitor total := by
  obtain ⟨rfl, hroom, hall⟩ := reserveVisitor_eq_some hres
  obtain ⟨_, hvisitors, htotal⟩ := release_le t key
  have hrel := h.release key
  refine ⟨hrel.owners, fun e => ?_, ?_⟩
  · show ((t.release key).visitors.insert key.endpointId _).getD e 0 ≤ perVisitor
    rw [getD_insert]
    split
    · have hle := hvisitors key.endpointId
      omega
    · exact hrel.visitors e
  · show ((t.release key).visitors.insert key.endpointId _).values.sum ≤ total
    rw [increment_sum]
    omega

end OnlineTable

/-! ## Calls -/

namespace Quota

section

variable [ServerCrypto]

inductive Phase where
  | idle
  | waiting (input : GateInput) (q : Question)
  | dropped (input : GateInput) (q : Question)
  /-- Let in on the relay; `place` is whose connection it is in the table, if it is there. -/
  | admitted (input : GateInput) (place : Option (Option (BytesN 32)))
  /-- Denied, let in to a rendezvous request, or disconnected. -/
  | ended

structure State where
  gate : AccessGate
  calls : UInt64 → Phase

inductive Label where
  | ledgers (registry : RegistrySnapshot) (registryGeneration : UInt64)
      (visitors : ExtTreeMap (BytesN 32) VisitorEntry) (visitorGeneration : UInt64)
      (blocklist : ExtTreeMap BlockKey BlockEntry)
  | begin (input : GateInput) (clock : Clock)
  | answer (id : UInt64) (answer : Callback.Decision)
  | drop (id : UInt64)
  | disconnect (id : UInt64)

omit [ServerCrypto] in
def ticketPlace (input : GateInput) (q : Question) : Option (Option (BytesN 32)) :=
  if input.op = .relayConnect then q.cap.map fun cap => some cap.fabricId else none

namespace State

def setCall (s : State) (id : UInt64) (phase : Phase) : State :=
  { s with calls := update s.calls id phase }

omit [ServerCrypto] in
@[simp] theorem setCall_self (s : State) (id : UInt64) (phase : Phase) :
    (s.setCall id phase).calls id = phase :=
  update_self ..

omit [ServerCrypto] in
@[simp] theorem setCall_of_ne (s : State) {id other : UInt64} (phase : Phase) (h : other ≠ id) :
    (s.setCall id phase).calls other = s.calls other :=
  update_of_ne h ..

/-- `decide` after the policy. -/
def settle (s : State) (input : GateInput) (q : Question) (decision : GateDecision) : State :=
  let phase : Phase :=
    if decision = .allow ∧ input.op = .relayConnect then .admitted input (ticketPlace input q)
    else .ended
  { s with gate := s.gate.conclude input q decision }.setCall input.connectionId phase

/-- `decide` up to the webhook. -/
def begin (s : State) (input : GateInput) (clock : Clock) : State :=
  match s.gate.prepare input clock with
  | (gate, .decided .allow) =>
    { s with gate }.setCall input.connectionId (.admitted input (some none))
  | (gate, .decided (.deny _)) => { s with gate }.setCall input.connectionId .ended
  | (gate, .ask q) =>
    match gate.policy with
    -- the static policy does not wait, nor look at an answer
    | .static =>
      { s with gate }.settle input q (AccessGate.decideL2 .static q .transientUnavailable)
    | .callback => { s with gate }.setCall input.connectionId (.waiting input q)

def step (s : State) : Label → Option State
  | .ledgers registry registryGeneration visitors visitorGeneration blocklist =>
    some { s with gate := { s.gate with
      registry, registryGeneration, visitors, visitorGeneration, blocklist } }
  | .begin input clock =>
    match s.calls input.connectionId with
    | .idle => some (s.begin input clock)
    | _ => none
  | .answer id answer =>
    match s.calls id with
    | .waiting input q => some (s.settle input q (AccessGate.decideL2 s.gate.policy q answer))
    | _ => none
  | .drop id =>
    match s.calls id with
    | .waiting input q => some (s.setCall id (.dropped input q))
    | _ => none
  | .disconnect id =>
    match s.calls id with
    | .admitted input _ =>
      some ({ s with gate := { s.gate with online := s.gate.online.release input.connKey } }.setCall
        id .ended)
    | _ => none

end State

def quotaMachine : Machine State Label where
  init s := s.gate.online = .empty ∧ ∀ id, s.calls id = .idle
  step := State.step

omit [ServerCrypto] in
def State.Quiet (s : State) : Prop :=
  ∀ id, (∀ input q, s.calls id ≠ .waiting input q)
    ∧ ∀ input place, s.calls id ≠ .admitted input place

omit [ServerCrypto] in
def KeepsTickets (s : State) : Label → Prop
  | .drop id =>
    match s.calls id with
    | .waiting input q => (ticketPlace input q).isNone = true
    | _ => True
  | _ => True

/-! ## Who has a place -/

omit [ServerCrypto] in
def Phase.place (key : ConnKey) : Phase → Option (Option (BytesN 32))
  | .waiting input q => if input.connKey = key then ticketPlace input q else none
  | .dropped input q => if input.connKey = key then ticketPlace input q else none
  | .admitted input place => if input.connKey = key then place else none
  | _ => none

omit [ServerCrypto] in
def Phase.input? : Phase → Option GateInput
  | .waiting input _ => some input
  | .dropped input _ => some input
  | .admitted input _ => some input
  | _ => none

/-- What every state keeps: the connections are those of the calls that have a place, and the counts
are theirs. -/
structure Held (s : State) : Prop where
  placed : ∀ key : ConnKey, s.gate.online.conns[key]? = (s.calls key.connectionId).place key
  named : ∀ id input, (s.calls id).input? = some input → input.connectionId = id
  counted : s.gate.online.Counted
  within : s.gate.online.Within s.gate.maxConnectionsPerOwner s.gate.maxConnectionsPerVisitor
    s.gate.maxVisitorConnections

variable {s s' : State}

omit [ServerCrypto] in
theorem Held.move (h : Held s) {id : UInt64} {phase : Phase} {gate : AccessGate}
    (hown : ∀ key : ConnKey, key.connectionId = id → gate.online.conns[key]? = phase.place key)
    (hothers : ∀ key : ConnKey, key.connectionId ≠ id →
      gate.online.conns[key]? = s.gate.online.conns[key]?)
    (hnamed : ∀ input, phase.input? = some input → input.connectionId = id)
    (hcounted : gate.online.Counted)
    (hwithin : gate.online.Within gate.maxConnectionsPerOwner gate.maxConnectionsPerVisitor
      gate.maxVisitorConnections) :
    Held { gate, calls := update s.calls id phase } where
  placed key := by
    show gate.online.conns[key]? = (update s.calls id phase key.connectionId).place key
    by_cases hid : key.connectionId = id
    · rw [hid, update_self]
      exact hown key hid
    · rw [update_of_ne hid, hothers key hid]
      exact h.placed key
  named id' input hcall := by
    replace hcall : (update s.calls id phase id').input? = some input := hcall
    by_cases hid : id' = id
    · rw [hid, update_self] at hcall
      rw [hid]
      exact hnamed input hcall
    · rw [update_of_ne hid] at hcall
      exact h.named id' input hcall
  counted := hcounted
  within := hwithin

omit [ServerCrypto] in
theorem ticketPlace_eq_none {input : GateInput} {q : Question} :
    ticketPlace input q = none ↔ ¬(input.op = .relayConnect ∧ q.cap.isSome = true) := by
  unfold ticketPlace
  split
  · next hop =>
    cases q.cap with
    | none => exact iff_of_true rfl fun h => by cases h.2
    | some cap => exact iff_of_false nofun fun h => h ⟨hop, rfl⟩
  · next hop => exact iff_of_true rfl fun h => hop h.1

omit [ServerCrypto] in
/-- **An answer.** A denied ticket gives its place back; an allowed one keeps it. -/
theorem Held.settle (h : Held s) {input : GateInput} {q : Question}
    (hcall : s.calls input.connectionId = .waiting input q) (decision : GateDecision) :
    Held (s.settle input q decision) := by
  have hplaced : ∀ key : ConnKey, key.connectionId = input.connectionId →
      s.gate.online.conns[key]? = if input.connKey = key then ticketPlace input q else none := by
    intro key hid
    rw [h.placed key, hid, hcall]
    rfl
  by_cases hallow : decision = .allow
  · have hgate : s.gate.conclude input q decision = s.gate := if_neg fun hd => hd.2.2 hallow
    unfold State.settle
    rw [hgate]
    by_cases hop : input.op = .relayConnect
    · rw [if_pos ⟨hallow, hop⟩]
      exact h.move hplaced (fun _ _ => rfl) (fun _ hw => by cases hw; rfl) h.counted h.within
    · rw [if_neg fun hd => hop hd.2]
      refine h.move (fun key hid => ?_) (fun _ _ => rfl) nofun h.counted
        h.within
      rw [hplaced key hid, ticketPlace_eq_none.mpr fun ht => hop ht.1, ite_self]
      rfl
  · unfold State.settle
    rw [if_neg fun hd => hallow hd.1]
    by_cases hticket : input.op = .relayConnect ∧ q.cap.isSome = true
    · -- the place is given back
      have hgate : s.gate.conclude input q decision
          = { s.gate with online := s.gate.online.release input.connKey } :=
        if_pos ⟨hticket.1, hticket.2, hallow⟩
      rw [hgate]
      refine h.move (fun key hid => ?_) (fun key hid => ?_) nofun
        (h.counted.release _) (h.within.release _)
      · show (s.gate.online.release input.connKey).conns[key]? = none
        rw [OnlineTable.conns_release, getElem?_erase, hplaced key hid]
        simp only [compare_eq_iff_eq]
        split
        · rfl
        · rfl
      · show (s.gate.online.release input.connKey).conns[key]? = _
        rw [OnlineTable.conns_release, getElem?_erase, if_neg]
        rw [compare_eq_iff_eq]
        intro heq
        rw [← heq] at hid
        exact hid rfl
    · have hgate : s.gate.conclude input q decision = s.gate :=
        if_neg fun hd => hticket ⟨hd.1, hd.2.1⟩
      rw [hgate]
      refine h.move (fun key hid => ?_) (fun _ _ => rfl) nofun h.counted
        h.within
      rw [hplaced key hid, ticketPlace_eq_none.mpr hticket, ite_self]
      rfl

omit [ServerCrypto] in
theorem getElem?_insert_place (conns : ExtTreeMap ConnKey (Option (BytesN 32))) (key key' : ConnKey)
    (owner : Option (BytesN 32)) (hnone : conns[key']? = none) :
    (conns.insert key owner)[key']? = if key = key' then some owner else none := by
  rw [getElem?_insert, hnone]
  simp only [compare_eq_iff_eq]

omit [ServerCrypto] in
theorem Held.fresh (h : Held s) {input : GateInput} (hidle : s.calls input.connectionId = .idle)
    {key : ConnKey} (hid : key.connectionId = input.connectionId) :
    s.gate.online.conns[key]? = none := by
  rw [h.placed key, hid, hidle]
  rfl

omit [ServerCrypto] in
theorem connKey_ne {input : GateInput} {key : ConnKey}
    (hid : key.connectionId ≠ input.connectionId) : ¬compare input.connKey key = .eq := by
  rw [compare_eq_iff_eq]
  intro heq
  rw [← heq] at hid
  exact hid rfl

omit [ServerCrypto] in
theorem Held.takeTicket (h : Held s) {input : GateInput} {cap : RelayCap} {online : OnlineTable}
    (hidle : s.calls input.connectionId = .idle)
    (hroom : s.gate.reserveOwner input cap = some online) {q : Question} (hq : q.cap = some cap) :
    Held ({ s with gate := { s.gate with online } }.setCall input.connectionId
      (.waiting input q)) := by
  unfold AccessGate.reserveOwner at hroom
  split at hroom
  · next hop =>
    have hconns := OnlineTable.conns_reserve hroom
    refine h.move (fun key hid => ?_) (fun key hid => ?_) (fun _ hw => by cases hw; rfl)
      (h.counted.reserve hroom) (h.within.reserve hroom)
    · show online.conns[key]? = if input.connKey = key then ticketPlace input q else none
      rw [hconns, getElem?_insert_place _ _ _ _ (h.fresh hidle hid), ticketPlace, if_pos hop, hq]
      rfl
    · show online.conns[key]? = _
      rw [hconns, getElem?_insert, if_neg (connKey_ne hid)]
  · next hop =>
    cases hroom
    refine h.move (fun key hid => ?_) (fun _ _ => rfl) (fun _ hw => by cases hw; rfl)
      h.counted h.within
    show s.gate.online.conns[key]? = if input.connKey = key then ticketPlace input q else none
    rw [h.fresh hidle hid, ticketPlace_eq_none.mpr fun ht => hop ht.1, ite_self]

omit [ServerCrypto] in
theorem settle_waiting (s : State) (input : GateInput) (q : Question) (decision : GateDecision) :
    (s.setCall input.connectionId (.waiting input q)).settle input q decision
      = s.settle input q decision := by
  simp only [State.settle, State.setCall, Function.update_idem]

omit [ServerCrypto] in
theorem Held.policy {gate : AccessGate} {input : GateInput} {q : Question}
    (h : Held ({ s with gate }.setCall input.connectionId (.waiting input q))) :
    Held (match gate.policy with
      | .static =>
        { s with gate }.settle input q (AccessGate.decideL2 .static q .transientUnavailable)
      | .callback => { s with gate }.setCall input.connectionId (.waiting input q)) := by
  cases gate.policy with
  | callback => exact h
  | static =>
    dsimp only
    rw [← settle_waiting]
    refine h.settle ?_ _
    exact update_self input.connectionId _ s.calls

/-- **A call begins.** -/
theorem Held.begin (h : Held s) {input : GateInput} (hidle : s.calls input.connectionId = .idle)
    (clock : Clock) : Held (s.begin input clock) := by
  unfold State.begin
  rcases AccessGate.prepare_cases s.gate input clock with ⟨reason, hprepare⟩ | ⟨-, haccepts⟩
  · rw [hprepare]
    exact h.move (fun key hid => h.fresh hidle hid) (fun _ _ => rfl) nofun
      h.counted h.within
  · generalize s.gate.prepare input clock = prepared at haccepts
    cases haccepts with
    | ticket hticket hroom => exact (h.takeTicket hidle hroom rfl).policy
    | @visitor online hvisits hroom =>
      have hconns := OnlineTable.conns_reserveVisitor hroom
      refine h.move (fun key hid => ?_) (fun key hid => ?_) (fun _ hw => by cases hw; rfl)
        (h.counted.reserveVisitor hroom)
        (h.within.reserveVisitor hroom)
      · show online.conns[key]? = if input.connKey = key then some none else none
        rw [hconns, getElem?_insert_place _ _ _ _ (h.fresh hidle hid)]
      · show online.conns[key]? = _
        rw [hconns, getElem?_insert, if_neg (connKey_ne hid)]
    | noTicket hheader hquery =>
      refine Held.policy ?_
      refine h.move (fun key hid => ?_) (fun _ _ => rfl) (fun _ hw => by cases hw; rfl)
        h.counted h.within
      rw [h.fresh hidle hid]
      show none = if input.connKey = key then ticketPlace input _ else none
      rw [ticketPlace_eq_none.mpr (fun ht => by cases ht.2), ite_self]

theorem Held.step (h : Held s) {l : Label} (hstep : quotaMachine.step s l = some s') : Held s' := by
  cases l with
  | ledgers registry registryGeneration visitors visitorGeneration blocklist =>
    cases hstep
    exact ⟨h.placed, h.named, h.counted, h.within⟩
  | begin input clock =>
    simp only [quotaMachine, State.step] at hstep
    split at hstep
    · next hidle =>
      cases hstep
      exact h.begin hidle clock
    · cases hstep
  | answer id answer =>
    simp only [quotaMachine, State.step] at hstep
    split at hstep
    · next input q hcall =>
      cases hstep
      rw [← h.named id input (by rw [hcall]; rfl)] at hcall
      exact h.settle hcall _
    · cases hstep
  | drop id =>
    simp only [quotaMachine, State.step] at hstep
    split at hstep
    · next input q hcall =>
      cases hstep
      -- the place stays
      refine h.move (fun key hid => ?_) (fun _ _ => rfl) (fun input' hw => ?_) h.counted
        h.within
      · rw [h.placed key, hid, hcall]
        rfl
      · cases hw
        exact h.named id input (by rw [hcall]; rfl)
    · cases hstep
  | disconnect id =>
    simp only [quotaMachine, State.step] at hstep
    split at hstep
    · next input place hcall =>
      cases hstep
      have hinput := h.named id input (by rw [hcall]; rfl)
      refine h.move (fun key hid => ?_) (fun key hid => ?_) nofun
        (h.counted.release _) (h.within.release _)
      · show (s.gate.online.release input.connKey).conns[key]? = none
        rw [OnlineTable.conns_release, getElem?_erase, h.placed key, hid, hcall]
        simp only [compare_eq_iff_eq, Phase.place]
        split
        · rfl
        · rfl
      · show (s.gate.online.release input.connKey).conns[key]? = _
        rw [OnlineTable.conns_release, getElem?_erase,
          if_neg (connKey_ne (hinput ▸ hid))]
    · cases hstep

theorem held_of_reachable (h : quotaMachine.Reachable s) : Held s := by
  refine h.invariant (fun s hinit => ?_) fun s l s' hheld _ hstep => hheld.step hstep
  obtain ⟨hempty, hidle⟩ := hinit
  constructor
  · intro key
    rw [hempty, hidle]
    exact getElem?_empty
  · intro id input hcall
    rw [hidle id] at hcall
    cases hcall
  · rw [hempty]
    exact OnlineTable.counted_empty
  · rw [hempty]
    constructor
    · intro limit _ f
      rw [show OnlineTable.empty.owners = ∅ from rfl, getD_empty]
      exact Nat.zero_le _
    · intro e
      rw [show OnlineTable.empty.visitors = ∅ from rfl, getD_empty]
      exact Nat.zero_le _
    · rw [values_sum, show OnlineTable.empty.visitors = ∅ from rfl, mapSum_empty]
      exact Nat.zero_le _

/-! ## Calls that vanish -/

omit [ServerCrypto] in
def NoneLost (s : State) : Prop :=
  ∀ id input q, s.calls id = .dropped input q → ticketPlace input q = none

instance (s : State) (l : Label) : Decidable (KeepsTickets s l) :=
  match l with
  | .drop id =>
    match h : s.calls id with
    | .waiting input q =>
      decidable_of_iff ((ticketPlace input q).isNone = true) (by rw [KeepsTickets, h])
    | .idle => .isTrue (by rw [KeepsTickets, h]; trivial)
    | .dropped input q => .isTrue (by rw [KeepsTickets, h]; trivial)
    | .admitted input place => .isTrue (by rw [KeepsTickets, h]; trivial)
    | .ended => .isTrue (by rw [KeepsTickets, h]; trivial)
  | .ledgers _ _ _ _ _ => .isTrue trivial
  | .begin _ _ => .isTrue trivial
  | .answer _ _ => .isTrue trivial
  | .disconnect _ => .isTrue trivial

omit [ServerCrypto] in
theorem dropped_update {calls : UInt64 → Phase} {id : UInt64} {phase : Phase}
    (hbefore : ∀ input q, calls id ≠ .dropped input q)
    (hafter : ∀ input q, phase ≠ .dropped input q)
    (id' : UInt64) (input : GateInput) (q : Question) :
    update calls id phase id' = .dropped input q ↔ calls id' = .dropped input q := by
  by_cases hid : id' = id
  · rw [hid, update_self]
    exact iff_of_false (hafter input q) (hbefore input q)
  · rw [update_of_ne hid]

omit [ServerCrypto] in
theorem settle_calls (s : State) (input : GateInput) (q : Question) (decision : GateDecision) :
    ∃ phase, (∀ input q, phase ≠ .dropped input q)
      ∧ (s.settle input q decision).calls = update s.calls input.connectionId phase := by
  unfold State.settle
  by_cases hin : decision = .allow ∧ input.op = .relayConnect
  · rw [if_pos hin]
    exact ⟨.admitted input (ticketPlace input q), fun _ _ h => (by cases h), rfl⟩
  · rw [if_neg hin]
    exact ⟨.ended, fun _ _ h => (by cases h), rfl⟩

theorem begin_calls (s : State) (input : GateInput) (clock : Clock) :
    ∃ phase, (∀ input q, phase ≠ .dropped input q)
      ∧ (s.begin input clock).calls = update s.calls input.connectionId phase := by
  unfold State.begin
  split
  · exact ⟨.admitted input (some none), fun _ _ h => (by cases h), rfl⟩
  · exact ⟨.ended, fun _ _ h => (by cases h), rfl⟩
  · next gate q _ =>
    cases gate.policy with
    | static => exact settle_calls { s with gate } input q _
    | callback => exact ⟨.waiting input q, fun _ _ h => (by cases h), rfl⟩

theorem step_dropped (h : Held s) {l : Label} (hstep : quotaMachine.step s l = some s')
    (hl : ∀ id, l ≠ .drop id) (id : UInt64) (input : GateInput) (q : Question) :
    s'.calls id = .dropped input q ↔ s.calls id = .dropped input q := by
  cases l with
  | ledgers registry registryGeneration visitors visitorGeneration blocklist =>
    cases hstep
    rfl
  | begin input' clock =>
    simp only [quotaMachine, State.step] at hstep
    split at hstep
    · next hidle =>
      cases hstep
      obtain ⟨phase, hphase, hcalls⟩ := begin_calls s input' clock
      rw [hcalls]
      exact dropped_update (fun _ _ hd => by rw [hidle] at hd; cases hd) hphase id input q
    · cases hstep
  | answer id' answer =>
    simp only [quotaMachine, State.step] at hstep
    split at hstep
    · next input' q' hcall =>
      cases hstep
      obtain ⟨phase, hphase, hcalls⟩ :=
        settle_calls s input' q' (AccessGate.decideL2 s.gate.policy q' answer)
      rw [hcalls]
      rw [← h.named id' input' (by rw [hcall]; rfl)] at hcall
      exact dropped_update (fun _ _ hd => by rw [hcall] at hd; cases hd) hphase id input q
    · cases hstep
  | drop id' => exact absurd rfl (hl id')
  | disconnect id' =>
    simp only [quotaMachine, State.step] at hstep
    split at hstep
    · next input' place hcall =>
      cases hstep
      exact dropped_update (fun _ _ hd => by rw [hcall] at hd; cases hd)
        (fun _ _ hd => by cases hd) id input q
    · cases hstep

/-- **A step loses no place** exactly when it drops no call that has one. -/
theorem noneLost_step (h : Held s) {l : Label} (hstep : quotaMachine.step s l = some s') :
    NoneLost s' ↔ NoneLost s ∧ KeepsTickets s l := by
  by_cases hdrop : ∃ id, l = .drop id
  · obtain ⟨id, rfl⟩ := hdrop
    simp only [quotaMachine, State.step] at hstep
    split at hstep
    · next input q hcall =>
      cases hstep
      have hkeeps : KeepsTickets s (.drop id) ↔ ticketPlace input q = none := by
        rw [KeepsTickets, hcall]
        exact isNone_iff_eq_none
      rw [hkeeps]
      constructor
      · intro hlost
        refine ⟨fun id' input' q' hcall' => ?_, ?_⟩
        · refine hlost id' input' q' ?_
          show update s.calls id _ id' = _
          rw [update_of_ne, hcall']
          intro heq
          rw [heq, hcall] at hcall'
          cases hcall'
        · exact hlost id input q (update_self id _ s.calls)
      · intro ⟨hlost, hnone⟩ id' input' q' hcall'
        rcases update_cases hcall' with ⟨-, hcall'⟩ | ⟨-, hcall'⟩
        · cases hcall'
          exact hnone
        · exact hlost id' input' q' hcall'
    · cases hstep
  · have hl : ∀ id, l ≠ .drop id := fun id heq => hdrop ⟨id, heq⟩
    have hkeeps : KeepsTickets s l := by
      cases l with
      | drop id => exact absurd rfl (hl id)
      | ledgers => trivial
      | begin => trivial
      | answer => trivial
      | disconnect => trivial
    rw [and_iff_left hkeeps]
    exact forall_congr' fun id => forall_congr' fun input => forall_congr' fun q => by
      rw [step_dropped h hstep hl]

omit [ServerCrypto] in
theorem Held.empty_iff (h : Held s) (hquiet : s.Quiet) :
    s.gate.online = .empty ↔ NoneLost s := by
  constructor
  · intro hempty id input q hcall
    have hid := h.named id input (by rw [hcall]; rfl)
    have hplace := h.placed input.connKey
    rw [hempty, show input.connKey.connectionId = id from hid, hcall, Phase.place, if_pos rfl]
      at hplace
    exact hplace.symm.trans getElem?_empty
  · intro hlost
    refine h.counted.eq_empty fun key => ?_
    rw [h.placed key]
    cases hcall : s.calls key.connectionId with
    | idle => rfl
    | ended => rfl
    | waiting input q => exact absurd hcall ((hquiet _).1 input q)
    | admitted input place => exact absurd hcall ((hquiet _).2 input place)
    | dropped input q =>
      show (if input.connKey = key then ticketPlace input q else none) = none
      rw [hlost _ input q hcall, ite_self]

/-! ## Single steps -/

theorem step_begin_static {input : GateInput} {clock : Clock} {q : Question} {gate' : AccessGate}
    (hidle : s.calls input.connectionId = .idle)
    (hprepare : s.gate.prepare input clock = (gate', .ask q)) (hpolicy : gate'.policy = .static)
    (hallow : AccessGate.decideL2 .static q .transientUnavailable = .allow)
    (hop : input.op = .relayConnect) :
    quotaMachine.step s (.begin input clock) =
      some (({ s with gate := gate' } : State).setCall input.connectionId
        (.admitted input (ticketPlace input q))) := by
  have hstay : gate'.conclude input q .allow = gate' := if_neg fun hd => hd.2.2 rfl
  show s.step (.begin input clock) = _
  simp only [State.step, hidle, State.begin, hprepare, hpolicy, hallow, State.settle, hstay, hop,
    and_self, if_true]

theorem step_begin_callback {input : GateInput} {clock : Clock} {q : Question} {gate' : AccessGate}
    (hidle : s.calls input.connectionId = .idle)
    (hprepare : s.gate.prepare input clock = (gate', .ask q)) (hpolicy : gate'.policy = .callback) :
    quotaMachine.step s (.begin input clock) =
      some (({ s with gate := gate' } : State).setCall input.connectionId (.waiting input q)) := by
  show s.step (.begin input clock) = _
  simp only [State.step, hidle, State.begin, hprepare, hpolicy]

theorem step_drop {id : UInt64} {input : GateInput} {q : Question}
    (hcall : s.calls id = .waiting input q) :
    quotaMachine.step s (.drop id) = some (s.setCall id (.dropped input q)) := by
  show s.step (.drop id) = _
  simp only [State.step, hcall]

theorem step_disconnect {id : UInt64} {input : GateInput} {place : Option (Option (BytesN 32))}
    (hcall : s.calls id = .admitted input place) :
    quotaMachine.step s (.disconnect id) =
      some (({ s with gate := { s.gate with online := s.gate.online.release input.connKey } } :
        State).setCall id .ended) := by
  show s.step (.disconnect id) = _
  simp only [State.step, hcall]

omit [ServerCrypto] in
theorem quiet_of_left (id : UInt64) {last : Phase} (hcall : s.calls id = last)
    (hidle : ∀ other, other ≠ id → s.calls other = .idle)
    (hlast : (∀ input q, last ≠ .waiting input q) ∧ ∀ input place, last ≠ .admitted input place) :
    s.Quiet := by
  intro other
  by_cases hid : other = id
  · rw [hid, hcall]
    exact hlast
  · rw [hidle other hid]
    exact ⟨fun _ _ h => (by cases h), fun _ _ h => (by cases h)⟩

/-! ## Runs -/

/-- **Quotas are conserved.** In every state of every run the counts are those of the connections in
the table, and none is over its limit. Once no call is in progress and nobody is connected, the
table is empty exactly where no call was dropped that had taken a place. -/
theorem quota_conserved {s₀ s : State} {ls : List Label} (hinit : quotaMachine.init s₀)
    (hrun : quotaMachine.run s₀ ls = some s) :
    s.gate.online.Counted
      ∧ s.gate.online.Within s.gate.maxConnectionsPerOwner s.gate.maxConnectionsPerVisitor
        s.gate.maxVisitorConnections
      ∧ (s.Quiet →
        (s.gate.online = .empty ↔ quotaMachine.runUnder KeepsTickets s₀ ls = some s)) := by
  have hheld := held_of_reachable (Machine.reachable_of_run hinit hrun)
  refine ⟨hheld.counted, hheld.within, fun hquiet => ?_⟩
  have hstart : NoneLost s₀ := fun id input q hcall => by
    rw [hinit.2 id] at hcall
    cases hcall
  rw [hheld.empty_iff hquiet]
  exact Machine.iff_runUnder
    (fun s l s' hreach hstep => noneLost_step (held_of_reachable hreach) hstep) (.init hinit)
    hstart hrun

end

end Quota

namespace FrozenVector

open Quota

attribute [local instance] serverCrypto

def quotaStart (policy : Policy) : Quota.State where
  gate := { gate with policy }
  calls := fun _ => .idle

theorem quotaStart_init (policy : Policy) : quotaMachine.init (quotaStart policy) :=
  ⟨rfl, fun _ => rfl⟩

theorem prepare_ticket (policy : Policy) :
    ∃ gate' q, AccessGate.prepare { gate with policy } input clock = (gate', .ask q)
      ∧ q.cap = some ticket ∧ gate'.policy = policy := by
  have hticket : AccessGate.Ticketed { gate with policy } input clock ticket :=
    ⟨ticketed.token, ticketed.valid, ticketed.fabric, ticketed.owner, ticketed.bit⟩
  have hblocked : Blocklist.isBlocked gate.blocklist .endpoint input.endpointId = false := by
    decide +kernel
  have hroom : gate.online.owners.getD ticket.fabricId 0 < 1 := by decide +kernel
  have hunblocked : AccessGate.Unblocked { gate with policy } input := fun _ => hblocked
  obtain ⟨gate', q, hprepare, hcap⟩ := AccessGate.prepare_of_ticketed hunblocked hticket
    fun _ limit hlimit => by
      cases hlimit
      exact hroom
  refine ⟨gate', q, hprepare, hcap, ?_⟩
  rcases AccessGate.prepare_cases { gate with policy } input clock with ⟨_, hdeny⟩ | ⟨_, haccepts⟩
  · rw [hprepare] at hdeny
    cases hdeny
  · rw [hprepare] at haccepts
    cases haccepts <;> rfl

theorem ticket_comes_and_goes :
    ∃ s, quotaMachine.run (quotaStart .static) [.begin input clock, .disconnect 1] = some s
      ∧ s.Quiet ∧ s.gate.online = .empty := by
  obtain ⟨gate', q, hprepare, hcap, hpolicy⟩ := prepare_ticket .static
  have hallow : AccessGate.decideL2 .static q .transientUnavailable = .allow :=
    AccessGate.decideL2_static.mpr (by rw [hcap]; rfl)
  have hbegin := step_begin_static (s := quotaStart .static) rfl hprepare hpolicy hallow rfl
  have hid : input.connectionId = 1 := rfl
  rw [hid] at hbegin
  have hleave := step_disconnect (s := ({ quotaStart .static with gate := gate' } :
    Quota.State).setCall 1 (.admitted input (ticketPlace input q))) (Quota.State.setCall_self ..)
  obtain ⟨s, hs⟩ : ∃ s, quotaMachine.step _ _ = some s := ⟨_, hleave⟩
  have hrun :
      quotaMachine.run (quotaStart .static) [.begin input clock, .disconnect 1] = some s := by
    rw [Machine.run, hbegin, bind_some, Machine.run, hs]
    rfl
  have hunder : quotaMachine.runUnder KeepsTickets (quotaStart .static)
      [.begin input clock, .disconnect 1] = some s := by
    simp only [Machine.runUnder, hbegin, hs, bind_some, KeepsTickets, if_true]
  have hquiet : s.Quiet := by
    rw [hleave] at hs
    cases hs
    refine quiet_of_left 1 (Quota.State.setCall_self ..) (fun other hother => ?_)
      ⟨fun _ _ h => (by cases h), fun _ _ h => (by cases h)⟩
    exact (Quota.State.setCall_of_ne _ _ hother).trans (Quota.State.setCall_of_ne _ _ hother)
  obtain ⟨_, _, hempty⟩ := quota_conserved (quotaStart_init .static) hrun
  exact ⟨s, hrun, hquiet, (hempty hquiet).mpr hunder⟩

/-- The ticket's call is dropped while it waits for the webhook: nobody is connected or in
progress, and its place is taken for good. -/
theorem dropped_ticket_leaks :
    ∃ s, quotaMachine.Reachable s ∧ s.Quiet ∧ s.gate.online ≠ .empty := by
  obtain ⟨gate', q, hprepare, hcap, hpolicy⟩ := prepare_ticket .callback
  have hbegin := step_begin_callback (s := quotaStart .callback) rfl hprepare hpolicy
  have hid : input.connectionId = 1 := rfl
  rw [hid] at hbegin
  have hdrop := step_drop (s := ({ quotaStart .callback with gate := gate' } :
    Quota.State).setCall 1 (.waiting input q)) (Quota.State.setCall_self ..)
  have hreach : quotaMachine.Reachable _ :=
    .step (.step (.init (quotaStart_init .callback)) trivial hbegin) trivial hdrop
  refine ⟨_, hreach, ?_, fun hempty => ?_⟩
  · refine quiet_of_left 1 (Quota.State.setCall_self ..) (fun other hother => ?_)
      ⟨fun _ _ h => (by cases h), fun _ _ h => (by cases h)⟩
    exact (Quota.State.setCall_of_ne _ _ hother).trans (Quota.State.setCall_of_ne _ _ hother)
  · have hplace := (Quota.held_of_reachable hreach).placed input.connKey
    have hop : input.op = .relayConnect := rfl
    have hkey : input.connKey.connectionId = 1 := rfl
    rw [hempty, hkey, Quota.State.setCall_self, Quota.Phase.place, if_pos rfl, ticketPlace,
      if_pos hop, hcap] at hplace
    exact absurd (hplace.symm.trans getElem?_empty) (by simp)

end FrozenVector

end Dweb
