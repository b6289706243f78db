import OpenDweb.Server.Registry
import OpenDweb.Lib.Updates

/-!
# OpenDweb — the invitation-code ledger

Embedding of `dweb-server/src/access/codes.rs`: the events of `codes.jsonl`, the snapshot they fold
to, and the redemption state machine over the two files (owners first, codes second).

* **`CodeLedger.loadInner`** — the fold over the whole file, then the consume lines that the
  owners' lines call for.
* **`CodeLedger.redeemStart`**, **`completePending`** — a redemption up to the owners' line, and the
  consume line after it; **`CodeLedger.redeem`** is one after the other.
* **`CodeLedger.reload`** — publishes only when every missing consume line was appended.
-/

namespace Dweb

open Std (ExtTreeMap LawfulEqCmp ReflCmp)
open Option Std.ExtTreeMap Bool

def DEFAULT_MAX_USES : UInt32 := 1
def DEFAULT_EXPIRES_IN_DAYS : UInt64 := 7
def DEFAULT_TTL_DAYS : UInt32 := 30
def MAX_USES_LIMIT : UInt32 := 1000
def ALIAS_HINT_MAX_BYTES : Nat := 32

/-- `u64::MAX`. -/
def U64_MAX : UInt64 := 18446744073709551615

/-- `u64::checked_add`: a sum that wraps is below its summands. -/
def checkedAdd (a b : UInt64) : Option UInt64 := if a + b < a then none else some (a + b)

/-- `u64::saturating_mul`. -/
def saturatingMul (a b : UInt64) : UInt64 := UInt64.ofNat (min (a.toNat * b.toNat) (2 ^ 64 - 1))

/-! ## Events -/

inductive CodeOp where
  | issue
  | revoke
  | consume
  deriving DecidableEq

/-- One line of `codes.jsonl`. -/
structure CodeRecord where
  op : CodeOp
  codeHash : String
  aliasHint : Option String
  maxUses : Option UInt32
  expiresAt : Option UInt64
  defaultTtlDays : Option UInt32
  fabricId : Option String
  root : Option String
  ts : UInt64
  deriving DecidableEq

structure CodeEntry where
  codeHash : BytesN 32
  maxUses : UInt32
  expiresAt : Option UInt64
  defaultTtlDays : UInt32
  aliasHint : Option String
  revoked : Bool
  issuedAt : UInt64
  deriving DecidableEq

def CodeEntry.leaseExpiry (entry : CodeEntry) (now : UInt64) : Option UInt64 :=
  checkedAdd now (24 * 3600000 * entry.defaultTtlDays.toUInt64)

/-- The published snapshot, but for its generation. Of a consumed key it has the time, and the
expiry while the process that redeemed it lives. -/
structure CodeSnapshot where
  codes : ExtTreeMap (BytesN 32) CodeEntry
  consumed : ExtTreeMap RedeemKey (UInt64 × Option UInt64)

def CodeSnapshot.empty : CodeSnapshot := { codes := ∅, consumed := ∅ }

/-- `used_count`, and `snapshot_used_count`. -/
def CodeSnapshot.usedCount (s : CodeSnapshot) (hash : BytesN 32) : Nat :=
  (s.consumed.keys.filter fun key => key.codeHash = hash).length

/-- A redemption whose owners' line is durable while its consume line is not. -/
structure PendingEntry where
  owner : OwnerKey
  expiresAt : UInt64

inductive DenySource where
  | reconciliation
  | redemption
  deriving DecidableEq

structure DenyEntry where
  reason : String
  retries : Nat
  source : DenySource

/-- The ledger: its file, in records, its snapshot, and what only the process knows. -/
structure CodeLedger where
  file : List CodeRecord
  current : CodeSnapshot
  pending : ExtTreeMap (BytesN 32) PendingEntry
  deny : ExtTreeMap (BytesN 32) DenyEntry

inductive RedeemOutcome where
  | replay (expiresAt : UInt64)
  | completed (expiresAt : UInt64)
  | pendingOtherKey
  | unavailable
  | invalid
  | expired
  | exhausted
  | io (context : String)
  deriving DecidableEq

namespace CodeLedger

/-! ## Loading -/

/-- An id of a consume line; one that is missing or ill-formed counts as zeros. -/
def consumeId (id : Option String) : BytesN 32 :=
  (id.bind fun s => (parseOwnerHex s).toOption).getD (BytesN.ofNat 32 0)

/-- One record of `load_inner`. -/
def loadStep (s : CodeSnapshot) (line : Nat × CodeRecord) : Except LoadError CodeSnapshot := do
  let (lineNo, record) := line
  let hash ← parseAt lineNo record.codeHash
  match record.op with
  | .issue =>
    return { s with codes := s.codes.insert hash {
      codeHash := hash
      maxUses := record.maxUses.getD DEFAULT_MAX_USES
      expiresAt := record.expiresAt
      defaultTtlDays := record.defaultTtlDays.getD DEFAULT_TTL_DAYS
      aliasHint := record.aliasHint
      revoked := false
      issuedAt := record.ts } }
  | .revoke =>
    match s.codes[hash]? with
    | some entry => return { s with codes := s.codes.insert hash { entry with revoked := true } }
    | none => return s
  | .consume =>
    let key : RedeemKey := ⟨hash, ⟨consumeId record.fabricId, consumeId record.root⟩⟩
    return { s with consumed := s.consumed.insertIfNew key (record.ts, none) }

def loadRecords (file : List CodeRecord) : Except LoadError CodeSnapshot :=
  replay loadStep .empty file

/-- How often a code may be redeemed, by the lines of the file. -/
def uses (snap : CodeSnapshot) (hash : BytesN 32) : Nat :=
  match snap.codes[hash]? with
  | some entry => entry.maxUses.toNat
  | none => 0

/-- `consume_record`. -/
def consumeRecord (key : RedeemKey) (ts : UInt64) : CodeRecord where
  op := .consume
  codeHash := hexStr key.codeHash.toBytes
  aliasHint := none
  maxUses := none
  expiresAt := none
  defaultTtlDays := none
  fabricId := some (hexStr key.owner.fabricId.toBytes)
  root := some (hexStr key.owner.root.toBytes)
  ts

structure Reconciled where
  file : List CodeRecord
  consumed : ExtTreeMap RedeemKey (UInt64 × Option UInt64)
  deny : ExtTreeMap (BytesN 32) DenyEntry

/-- A consume line for each orphan that has none; `io n` is the clock and the ending of the
`n`-th append. -/
def reconcile (io : Nat → UInt64 × Landing) : Nat → List RedeemKey → Reconciled → Reconciled
  | _, [], s => s
  | n, key :: orphans, s =>
    if s.consumed.contains key then reconcile io n orphans s
    else
      let (now, o) := io n
      let record := consumeRecord key now
      reconcile io (n + 1) orphans <|
        match o.result with
        | .ok () =>
          { s with
            file := o.onto s.file record
            consumed := s.consumed.insert key (record.ts, none) }
        | .error e =>
          { s with
            file := o.onto s.file record
            deny := s.deny.insert key.codeHash
              { reason := e, retries := 1, source := .reconciliation } }

/-- `load_inner`: the snapshot, the codes whose lines are still missing, and the file with the
lines that were appended. -/
def loadInner (file : List CodeRecord) (orphans : List RedeemKey) (io : Nat → UInt64 × Landing) :
    Except LoadError (CodeSnapshot × Reconciled) := do
  let s ← loadRecords file
  let r := reconcile io 0 orphans { file, consumed := s.consumed, deny := ∅ }
  return ({ codes := s.codes, consumed := r.consumed }, r)

def load (file : List CodeRecord) (orphans : List RedeemKey) (io : Nat → UInt64 × Landing) :
    Except LoadError CodeLedger := do
  let (current, r) ← loadInner file orphans io
  return { file := r.file, current, pending := ∅, deny := r.deny }

/-- The deny entry of a code some of whose consumed keys the snapshot does not show. -/
def mergeDeny (failed : ExtTreeMap (BytesN 32) DenyEntry)
    (deny : ExtTreeMap (BytesN 32) DenyEntry) (hash : BytesN 32) :
    ExtTreeMap (BytesN 32) DenyEntry :=
  let reason :=
    match failed[hash]? with
    | some entry => entry.reason
    | none => "orphan consume durable but snapshot not published (partial reload round)"
  let retries :=
    match deny[hash]? with
    | some prev => prev.retries + 1
    | none => 1
  deny.insert hash { reason, retries, source := .reconciliation }

/-- `reload`: a round with a failed append keeps the snapshot and denies every code with an orphan
the snapshot does not cover. -/
def reload (s : CodeLedger) (orphans : List RedeemKey) (io : Nat → UInt64 × Landing) :
    CodeLedger × Except LoadError Unit :=
  match loadInner s.file orphans io with
  | .error e => (s, .error e)
  | .ok (snapshot, r) =>
    if r.deny.isEmpty then
      let pending := s.pending.filter fun hash p => !snapshot.consumed.contains ⟨hash, p.owner⟩
      ({ file := r.file, current := snapshot, pending, deny := r.deny }, .ok ())
    else
      let uncovered := ((orphans.filter fun key => !s.current.consumed.contains key).map
        RedeemKey.codeHash).dedup
      ({ s with file := r.file, deny := uncovered.foldl (mergeDeny r.deny) s.deny }, .ok ())

/-! ## Issuing and revoking -/

/-- `apply_event`: the event on disk, then the entry. -/
def applyEvent (s : CodeLedger) (record : CodeRecord) (hash : BytesN 32) (entry : CodeEntry)
    (o : Landing) : CodeLedger × Except String Unit :=
  match o.result with
  | .error e => ({ s with file := o.onto s.file record }, .error e)
  | .ok () =>
    ({ s with
      file := o.onto s.file record
      current := { s.current with codes := s.current.codes.insert hash entry } }, .ok ())

structure IssueParams where
  aliasHint : Option String
  maxUses : Option UInt32
  expiresInDays : Option UInt64
  defaultTtlDays : Option UInt32

/-- What `issue` checks, and the expiry it computes. -/
def checkIssue (params : IssueParams) (now : UInt64) : Except String UInt64 :=
  let maxUses := params.maxUses.getD DEFAULT_MAX_USES
  let expiresInDays := params.expiresInDays.getD DEFAULT_EXPIRES_IN_DAYS
  let defaultTtlDays := params.defaultTtlDays.getD DEFAULT_TTL_DAYS
  if ¬(1 ≤ maxUses ∧ maxUses ≤ MAX_USES_LIMIT) then
    .error s!"max_uses must be 1..={MAX_USES_LIMIT}, got {maxUses}"
  else if expiresInDays < 1 then .error "expires_in_days must be >= 1 (0 is invalid)"
  else if defaultTtlDays < 1 then .error "default_ttl_days must be >= 1"
  else if params.aliasHint.any fun hint => (utf8Bytes hint).length > ALIAS_HINT_MAX_BYTES then
    .error s!"alias_hint must be <= {ALIAS_HINT_MAX_BYTES} UTF-8 bytes"
  else
    match checkedAdd now (saturatingMul expiresInDays (24 * 3600000)) with
    | none => .error "expires_at overflow"
    | some expiresAt => .ok expiresAt

/-- `issue`, with the hashes of the codes that `generate_code` draws until one is new; `none` while
none of them is. -/
def issue (s : CodeLedger) (params : IssueParams) (drawn : List (BytesN 32)) (now now' : UInt64)
    (o : Landing) : Option (CodeLedger × Except String (BytesN 32)) :=
  match checkIssue params now with
  | .error e => some (s, .error e)
  | .ok expiresAt =>
    (drawn.find? fun hash => !s.current.codes.contains hash).map fun hash =>
      let maxUses := params.maxUses.getD DEFAULT_MAX_USES
      let defaultTtlDays := params.defaultTtlDays.getD DEFAULT_TTL_DAYS
      let record : CodeRecord :=
        { op := .issue
          codeHash := hexStr hash.toBytes
          aliasHint := params.aliasHint
          maxUses := some maxUses
          expiresAt := some expiresAt
          defaultTtlDays := some defaultTtlDays
          fabricId := none
          root := none
          ts := now' }
      let entry : CodeEntry :=
        { codeHash := hash
          maxUses
          expiresAt := some expiresAt
          defaultTtlDays
          aliasHint := record.aliasHint
          revoked := false
          issuedAt := record.ts }
      let (s', result) := s.applyEvent record hash entry o
      (s', result.map fun () => hash)

/-- `revoke`; of a code that is not in the snapshot it makes an entry. -/
def revoke (s : CodeLedger) (hash : BytesN 32) (now : UInt64) (o : Landing) :
    CodeLedger × Except String Unit :=
  let record : CodeRecord :=
    { op := .revoke
      codeHash := hexStr hash.toBytes
      aliasHint := none
      maxUses := none
      expiresAt := none
      defaultTtlDays := none
      fabricId := none
      root := none
      ts := now }
  let entry : CodeEntry := s.current.codes[hash]?.getD
    { codeHash := hash
      maxUses := DEFAULT_MAX_USES
      expiresAt := none
      defaultTtlDays := DEFAULT_TTL_DAYS
      aliasHint := none
      revoked := false
      issuedAt := record.ts }
  s.applyEvent record hash { entry with revoked := true } o

/-! ## Redeeming -/

/-- `complete_pending`: the consume line, then the snapshot; a failure denies the code. -/
def completePending (s : CodeLedger) (key : RedeemKey) (expiresAt now : UInt64) (o : Landing) :
    CodeLedger × Except String Unit :=
  let record := consumeRecord key now
  match o.result with
  | .error e =>
    let prev := s.deny[key.codeHash]?
    let retries :=
      match prev with
      | some d => d.retries + 1
      | none => 1
    let source :=
      match prev with
      | some d => if d.source = .reconciliation then .reconciliation else .redemption
      | none => .redemption
    ({ s with
      file := o.onto s.file record
      deny := s.deny.insert key.codeHash { reason := e, retries, source } },
      .error "codes consume append failed")
  | .ok () =>
    -- a code that a reload denied stays denied until a snapshot is published
    let deny :=
      match s.deny[key.codeHash]? with
      | some d => if d.source = .redemption then s.deny.erase key.codeHash else s.deny
      | none => s.deny
    ({ file := o.onto s.file record
       current := { s.current with consumed := s.current.consumed.insert key (now, some expiresAt) }
       pending := s.pending.erase key.codeHash
       deny }, .ok ())

/-- Where `redeem` stands when it has an answer, or has only the consume line to write. -/
inductive RedeemStep where
  | done (outcome : RedeemOutcome)
  | complete (expiresAt : UInt64)

/-- The new redemption of `redeem`, up to `complete_pending`. The owners' clock is `nowMs`. -/
def redeemNew (s : CodeLedger) (owners : OwnerRegistry) (key : RedeemKey) (entry : CodeEntry)
    (aliasName : Option String) (now nowMs : UInt64) (o : Landing) :
    CodeLedger × OwnerRegistry × RedeemStep :=
  match entry.leaseExpiry now with
  | none => (s, owners, .done (.io "expires_at overflow"))
  | some expiresAt =>
    -- the device's own alias comes before the code's hint
    let aliasCandidate := aliasName.or entry.aliasHint
    let pending := s.pending.insert key.codeHash { owner := key.owner, expiresAt }
    match owners.registerViaCode key.owner.fabricId key.owner.root (some expiresAt)
        key.codeHash aliasCandidate nowMs o with
    -- taken as without effect on disk: the reservation is rolled back
    | (owners', .error _) =>
      ({ s with pending := pending.erase key.codeHash }, owners',
        .done (.io "owners register append failed"))
    | (owners', .ok ()) => ({ s with pending }, owners', .complete expiresAt)

/-- `redeem` up to `complete_pending`. -/
def redeemStart (s : CodeLedger) (owners : OwnerRegistry) (key : RedeemKey)
    (aliasName : Option String) (now nowMs : UInt64) (o : Landing) :
    CodeLedger × OwnerRegistry × RedeemStep :=
  -- a key that was consumed is replayed
  match s.current.consumed[key]? with
  | some (_, expires) =>
    let expiresAt := expires.getD ((owners.current.entryExpiresAt key.owner).getD (U64_MAX))
    (s, owners, .done (.replay expiresAt))
  | none =>
  match s.pending[key.codeHash]? with
  | some p =>
    if p.owner = key.owner then (s, owners, .complete p.expiresAt)
    else
      match s.deny[key.codeHash]? with
      | some d =>
        if d.source = .reconciliation then (s, owners, .done .unavailable)
        else (s, owners, .done .pendingOtherKey)
      | none => (s, owners, .done .pendingOtherKey)
  | none =>
  if s.deny.contains key.codeHash then (s, owners, .done .unavailable)
  else
    match s.current.codes[key.codeHash]? with
    | none => (s, owners, .done .invalid)
    | some entry =>
      if entry.revoked then (s, owners, .done .invalid)
      else if entry.expiresAt.any fun e => e ≤ now then (s, owners, .done .expired)
      else if entry.maxUses.toNat ≤ s.current.usedCount key.codeHash then
        (s, owners, .done .exhausted)
      else s.redeemNew owners key entry aliasName now nowMs o

/-- `redeem`; `o` and `o'` end the appends to the owners' and the codes' file. -/
def redeem (s : CodeLedger) (owners : OwnerRegistry) (key : RedeemKey) (aliasName : Option String)
    (now nowMs : UInt64) (o o' : Landing) : CodeLedger × OwnerRegistry × RedeemOutcome :=
  match s.redeemStart owners key aliasName now nowMs o with
  | (s', owners', .done outcome) => (s', owners', outcome)
  | (s', owners', .complete expiresAt) =>
    match s'.completePending key expiresAt now o' with
    | (s'', .ok ()) => (s'', owners', .completed expiresAt)
    | (s'', .error e) => (s'', owners', .io e)

/-! ## What a redemption does first -/

/-- The ways `redeemStart` ends, and what each tells of the state before. -/
inductive RedeemStarted (s : CodeLedger) (owners : OwnerRegistry) (key : RedeemKey) (o : Landing) :
    CodeLedger × OwnerRegistry × RedeemStep → Prop where
  | answered {outcome : RedeemOutcome} (hnew : ∀ e, outcome ≠ .completed e) :
      RedeemStarted s owners key o (s, owners, .done outcome)
  | resumed {p : PendingEntry} (hconsumed : s.current.consumed[key]? = none)
      (hpending : s.pending[key.codeHash]? = some p) (howner : p.owner = key.owner) :
      RedeemStarted s owners key o (s, owners, .complete p.expiresAt)
  | registered {entry : CodeEntry} {expiresAt nowMs : UInt64} {aliasName : Option String}
      {owners' : OwnerRegistry} (hconsumed : s.current.consumed[key]? = none)
      (hpending : s.pending[key.codeHash]? = none) (hdeny : s.deny.contains key.codeHash = false)
      (hentry : s.current.codes[key.codeHash]? = some entry) (hrevoked : entry.revoked = false)
      (hused : s.current.usedCount key.codeHash < entry.maxUses.toNat)
      (howners : owners.registerViaCode key.owner.fabricId key.owner.root (some expiresAt)
        key.codeHash aliasName nowMs o = (owners', .ok ())) :
      RedeemStarted s owners key o
        ({ s with pending := s.pending.insert key.codeHash { owner := key.owner, expiresAt } },
          owners', .complete expiresAt)
  | failed {expiresAt nowMs : UInt64} {aliasName : Option String} {owners' : OwnerRegistry}
      {e : String} (hpending : s.pending[key.codeHash]? = none)
      (howners : owners.registerViaCode key.owner.fabricId key.owner.root (some expiresAt)
        key.codeHash aliasName nowMs o = (owners', .error e)) :
      RedeemStarted s owners key o
        ({ s with pending :=
            (s.pending.insert key.codeHash { owner := key.owner, expiresAt }).erase key.codeHash },
          owners', .done (.io "owners register append failed"))

variable {s : CodeLedger} {file : List CodeRecord} {snap : CodeSnapshot} {hash : BytesN 32}

theorem redeemNew_started {owners : OwnerRegistry} {key : RedeemKey} {entry : CodeEntry}
    {aliasName : Option String} {now nowMs : UInt64} {o : Landing}
    (hconsumed : s.current.consumed[key]? = none) (hpending : s.pending[key.codeHash]? = none)
    (hdeny : s.deny.contains key.codeHash = false)
    (hentry : s.current.codes[key.codeHash]? = some entry) (hrevoked : entry.revoked = false)
    (hused : s.current.usedCount key.codeHash < entry.maxUses.toNat) :
    RedeemStarted s owners key o (s.redeemNew owners key entry aliasName now nowMs o) := by
  unfold redeemNew
  generalize entry.leaseExpiry now = sum
  cases sum with
  | none => exact .answered nofun
  | some expiresAt =>
    dsimp only
    split
    · next howners => exact .failed hpending howners
    · next howners =>
      exact .registered hconsumed hpending hdeny hentry hrevoked hused howners

theorem redeemStart_started (s : CodeLedger) (owners : OwnerRegistry) (key : RedeemKey)
    (aliasName : Option String) (now nowMs : UInt64) (o : Landing) :
    RedeemStarted s owners key o (s.redeemStart owners key aliasName now nowMs o) := by
  unfold redeemStart
  cases hconsumed : s.current.consumed[key]? with
  | some v => exact .answered nofun
  | none =>
    cases hpending : s.pending[key.codeHash]? with
    | some p =>
      dsimp only
      by_cases howner : p.owner = key.owner
      · rw [if_pos howner]
        exact .resumed hconsumed hpending howner
      · rw [if_neg howner]
        cases s.deny[key.codeHash]? with
        | none => exact .answered nofun
        | some d =>
          dsimp only
          by_cases hsource : d.source = .reconciliation
          · rw [if_pos hsource]
            exact .answered nofun
          · rw [if_neg hsource]
            exact .answered nofun
    | none =>
      dsimp only
      by_cases hdeny : s.deny.contains key.codeHash = true
      · rw [if_pos hdeny]
        exact .answered nofun
      · rw [if_neg hdeny]
        cases hentry : s.current.codes[key.codeHash]? with
        | none => exact .answered nofun
        | some entry =>
          dsimp only
          by_cases hrevoked : entry.revoked = true
          · rw [if_pos hrevoked]
            exact .answered nofun
          · rw [if_neg hrevoked]
            by_cases hexpired : (entry.expiresAt.any fun e => decide (e ≤ now)) = true
            · rw [if_pos hexpired]
              exact .answered nofun
            · rw [if_neg hexpired]
              by_cases hused : entry.maxUses.toNat ≤ s.current.usedCount key.codeHash
              · rw [if_pos hused]
                exact .answered nofun
              · rw [if_neg hused]
                exact redeemNew_started hconsumed hpending (eq_false_of_not_eq_true hdeny)
                  hentry (eq_false_of_not_eq_true hrevoked) (Nat.lt_of_not_le hused)

/-! ## Reservations -/

def Reserved (pending : ExtTreeMap (BytesN 32) PendingEntry) (key : RedeemKey) : Prop :=
  ∃ p, pending[key.codeHash]? = some p ∧ p.owner = key.owner

section

variable {pending : ExtTreeMap (BytesN 32) PendingEntry} {key other : RedeemKey}

theorem Reserved.eq_of_codeHash_eq (h : Reserved pending key) (hother : Reserved pending other)
    (hhash : other.codeHash = key.codeHash) : other = key := by
  obtain ⟨p, hp, howner⟩ := h
  obtain ⟨p', hp', howner'⟩ := hother
  rw [hhash, hp] at hp'
  cases hp'
  obtain ⟨hash, owner⟩ := key
  rw [show other = ⟨other.codeHash, other.owner⟩ from rfl, hhash, ← howner', howner]

theorem reserved_insert_self (key : RedeemKey) (expiresAt : UInt64) :
    Reserved (pending.insert key.codeHash { owner := key.owner, expiresAt }) key :=
  ⟨_, getElem?_insert_self, rfl⟩

theorem Reserved.insert (h : Reserved pending other) (hfree : pending[key.codeHash]? = none)
    (p : PendingEntry) : Reserved (pending.insert key.codeHash p) other := by
  obtain ⟨q, hq, howner⟩ := h
  refine ⟨q, ?_, howner⟩
  rw [getElem?_insert, if_neg]
  · exact hq
  · intro hcmp
    -- no other redemption of the code was pending
    rw [LawfulEqCmp.eq_of_compare hcmp, hq] at hfree
    cases hfree

theorem eq_or_reserved_of_insert {expiresAt : UInt64}
    (h : Reserved (pending.insert key.codeHash { owner := key.owner, expiresAt }) other) :
    other = key ∨ Reserved pending other := by
  obtain ⟨p, hp, howner⟩ := h
  rcases getElem?_insert_cases hp with ⟨hhash, rfl⟩ | ⟨-, hp⟩
  · left
    obtain ⟨hash, owner⟩ := other
    rw [show key = ⟨key.codeHash, key.owner⟩ from rfl, hhash]
    exact congrArg _ howner.symm
  · exact .inr ⟨p, hp, howner⟩

theorem erase_insert_of_free (hfree : pending[key.codeHash]? = none) (p : PendingEntry) :
    (pending.insert key.codeHash p).erase key.codeHash = pending := by
  refine ext_getElem? fun hash => ?_
  rw [getElem?_erase, getElem?_insert]
  by_cases hcmp : compare key.codeHash hash = .eq
  · rw [if_pos hcmp, ← LawfulEqCmp.eq_of_compare hcmp, hfree]
  · rw [if_neg hcmp, if_neg hcmp]

theorem Reserved.erase (h : Reserved pending other) (hkey : Reserved pending key) :
    other = key ∨ Reserved (pending.erase key.codeHash) other := by
  by_cases hhash : key.codeHash = other.codeHash
  · exact .inl (hkey.eq_of_codeHash_eq h hhash.symm)
  · obtain ⟨p, hp, howner⟩ := h
    refine .inr ⟨p, ?_, howner⟩
    rw [getElem?_erase, if_neg]
    · exact hp
    · exact fun hcmp => hhash (LawfulEqCmp.eq_of_compare hcmp)

theorem reserved_of_erase (h : Reserved (pending.erase key.codeHash) other) :
    key.codeHash ≠ other.codeHash ∧ Reserved pending other := by
  obtain ⟨p, hp, howner⟩ := h
  obtain ⟨hne, hp⟩ := getElem?_erase_some hp
  exact ⟨hne, p, hp, howner⟩

theorem Reserved.retain (h : Reserved pending key)
    (consumed : ExtTreeMap RedeemKey (UInt64 × Option UInt64)) :
    consumed.contains key = true
      ∨ Reserved (pending.filter fun hash p => !consumed.contains ⟨hash, p.owner⟩) key := by
  obtain ⟨p, hp, howner⟩ := h
  cases hin : consumed.contains key with
  | true => exact .inl rfl
  | false =>
    refine .inr ⟨p, ?_, howner⟩
    rw [getElem?_filter', hp, filter_some, if_pos]
    rw [howner, show (⟨key.codeHash, key.owner⟩ : RedeemKey) = key from rfl, hin]
    rfl

theorem reserved_of_retain {consumed : ExtTreeMap RedeemKey (UInt64 × Option UInt64)}
    (h : Reserved (pending.filter fun hash p => !consumed.contains ⟨hash, p.owner⟩) key) :
    consumed.contains key = false ∧ Reserved pending key := by
  obtain ⟨p, hp, howner⟩ := h
  rw [getElem?_filter', filter_eq_some_iff] at hp
  obtain ⟨hp, hout⟩ := hp
  rw [howner, show (⟨key.codeHash, key.owner⟩ : RedeemKey) = key from rfl,
    not_eq_eq_eq_not, Bool.not_true] at hout
  exact ⟨hout, p, hp, howner⟩

end

/-! ## Single lines of the file -/

theorem loadRecords_consume (h : loadRecords file = .ok snap) (key : RedeemKey) (ts : UInt64) :
    loadRecords (file ++ [consumeRecord key ts])
      = .ok { snap with consumed := snap.consumed.insertIfNew key (ts, none) } := by
  rw [loadRecords, replay_snoc h]
  simp only [loadStep, consumeRecord, parseAt_hexStr, consumeId, bind_some,
    parseOwnerHex_hexStr]
  rfl

theorem loadRecords_onto {snap' : CodeSnapshot} (h : loadRecords file = .ok snap) {r : CodeRecord}
    (hstep : ∀ n, loadStep snap (n, r) = .ok snap') (o : Landing) :
    loadRecords (o.onto file r) = .ok (if o.lands then snap' else snap) := by
  rw [Landing.onto_eq]
  split
  · rw [loadRecords, replay_snoc h, hstep]
  · exact h

theorem issue_event {s' : CodeLedger} {params : IssueParams} {drawn : List (BytesN 32)}
    {now now' : UInt64} {o : Landing} {result : Except String (BytesN 32)}
    (h : s.issue params drawn now now' o = some (s', result)) :
    s' = s ∨ ∃ record hash entry, s.current.codes.contains hash = false
      ∧ entry.revoked = false
      ∧ (∀ snap n, loadStep snap (n, record)
        = .ok { snap with codes := snap.codes.insert hash entry })
      ∧ s' = (s.applyEvent record hash entry o).1 := by
  simp only [issue] at h
  split at h
  · cases h
    exact Or.inl rfl
  · obtain ⟨hash, hfind, heq⟩ := map_eq_some_iff.mp h
    have hnew : s.current.codes.contains hash = false := by
      simpa using List.find?_some hfind
    cases heq
    refine Or.inr ⟨_, hash, _, hnew, ?_, fun snap n => ?_, rfl⟩
    · rfl
    · simp only [loadStep, parseAt_hexStr]
      rfl

theorem applyEvent_eq (s : CodeLedger) (record : CodeRecord) (hash : BytesN 32)
    (entry : CodeEntry) (o : Landing) :
    (s.applyEvent record hash entry o).1
      = { s with
          file := o.onto s.file record
          current :=
            if o = .ok then { s.current with codes := s.current.codes.insert hash entry }
            else s.current } := by
  cases o <;> rfl

theorem uses_insert (snap : CodeSnapshot) (hash hash' : BytesN 32) (entry : CodeEntry) :
    uses { snap with codes := snap.codes.insert hash entry } hash'
      = if hash = hash' then entry.maxUses.toNat else uses snap hash' := by
  unfold uses
  rw [getElem?_insert]
  by_cases heq : hash = hash'
  · rw [if_pos (LawfulEqCmp.compare_eq_iff_eq.mpr heq), if_pos heq]
  · rw [if_neg fun hcmp => heq (LawfulEqCmp.compare_eq_iff_eq.mp hcmp), if_neg heq]

theorem revoke_event (s : CodeLedger) (hash : BytesN 32) (now : UInt64) (o : Landing) :
    ∃ record entry, (s.revoke hash now o).1 = (s.applyEvent record hash entry o).1
      ∧ entry.revoked = true
      ∧ ∀ snap, ∃ snap', (∀ n, loadStep snap (n, record) = .ok snap')
        ∧ snap'.consumed = snap.consumed ∧ ∀ hash', uses snap' hash' = uses snap hash' := by
  refine ⟨_, _, rfl, rfl, fun snap => ?_⟩
  simp only [loadStep, parseAt_hexStr, bind, Except.bind]
  cases hget : snap.codes[hash]? with
  | none => exact ⟨snap, fun _ => rfl, rfl, fun _ => rfl⟩
  | some entry =>
    refine ⟨_, fun _ => rfl, rfl, fun hash' => ?_⟩
    rw [uses_insert]
    split
    · next heq =>
      rw [← heq, uses, hget]
    · rfl

/-! ## Denied codes -/

def AwaitsReload (deny : ExtTreeMap (BytesN 32) DenyEntry) (hash : BytesN 32) : Prop :=
  ∃ d : DenyEntry, deny[hash]? = some d ∧ d.source = .reconciliation

theorem completePending_awaitsReload (h : AwaitsReload s.deny hash) (key : RedeemKey)
    (expiresAt now : UInt64) (o : Landing) :
    AwaitsReload (s.completePending key expiresAt now o).1.deny hash := by
  obtain ⟨d, hd, hsource⟩ := h
  cases o with
  | ok =>
    refine ⟨d, ?_, hsource⟩
    simp only [CodeLedger.completePending, Landing.result]
    cases hprev : s.deny[key.codeHash]? with
    | none => exact hd
    | some d' =>
      by_cases hown : d'.source = .redemption
      · simp only [if_pos hown]
        rw [getElem?_erase, if_neg]
        · exact hd
        · intro hcmp
          -- the denial of this code is of the other source
          rw [LawfulEqCmp.eq_of_compare hcmp, hd] at hprev
          cases hprev
          rw [hsource] at hown
          cases hown
      · simp only [if_neg hown]
        exact hd
  | failed e kept =>
    simp only [AwaitsReload, CodeLedger.completePending, Landing.result, getElem?_insert]
    by_cases hcmp : compare key.codeHash hash = .eq
    · rw [LawfulEqCmp.eq_of_compare hcmp, hd]
      simp only [ReflCmp.compare_self, if_true, hsource]
      exact ⟨_, rfl, rfl⟩
    · simp only [if_neg hcmp]
      exact ⟨d, hd, hsource⟩

theorem foldl_mergeDeny_awaitsReload {failed deny : ExtTreeMap (BytesN 32) DenyEntry}
    (hashes : List (BytesN 32)) (h : AwaitsReload deny hash) :
    AwaitsReload (hashes.foldl (mergeDeny failed) deny) hash := by
  induction hashes generalizing deny with
  | nil => exact h
  | cons hash' hashes ih =>
    refine ih ?_
    unfold AwaitsReload mergeDeny
    simp only [getElem?_insert]
    split
    · exact ⟨_, rfl, rfl⟩
    · exact h

theorem mem_foldl_mergeDeny_awaitsReload {failed deny : ExtTreeMap (BytesN 32) DenyEntry}
    {hashes : List (BytesN 32)} (h : hash ∈ hashes) :
    AwaitsReload (hashes.foldl (mergeDeny failed) deny) hash := by
  induction hashes generalizing deny with
  | nil => cases h
  | cons hash' hashes ih =>
    rcases List.mem_cons.mp h with rfl | hmem
    · refine foldl_mergeDeny_awaitsReload hashes ?_
      unfold AwaitsReload mergeDeny
      simp only [getElem?_insert_self]
      exact ⟨_, rfl, rfl⟩
    · exact ih hmem

/-! ## Reconciliation -/

section

variable {io : Nat → UInt64 × Landing} {n : Nat} {orphans : List RedeemKey} {r : Reconciled}

attribute [local simp] reconcile

theorem contains_reconcile {key : RedeemKey} (h : r.consumed.contains key = true) :
    (reconcile io n orphans r).consumed.contains key = true := by
  induction orphans generalizing n r with
  | nil => exact h
  | cons key' orphans ih =>
    rw [reconcile]
    split
    · exact ih h
    · refine ih ?_
      cases (io n).2.result with
      | error e => exact h
      | ok => rw [contains_insert, h, Bool.or_true]

theorem deny_reconcile {hash : BytesN 32} (h : r.deny.contains hash = true) :
    (reconcile io n orphans r).deny.contains hash = true := by
  induction orphans generalizing n r with
  | nil => exact h
  | cons key' orphans ih =>
    rw [reconcile]
    split
    · exact ih h
    · refine ih ?_
      cases (io n).2.result with
      | error e => rw [contains_insert, h, Bool.or_true]
      | ok => exact h

/-- **Every orphan is consumed or its code denied.** -/
theorem reconcile_covers {key : RedeemKey} (h : key ∈ orphans) :
    (reconcile io n orphans r).consumed.contains key = true
      ∨ (reconcile io n orphans r).deny.contains key.codeHash = true := by
  induction orphans generalizing n r with
  | nil => cases h
  | cons key' orphans ih =>
    rw [reconcile]
    rcases List.mem_cons.mp h with rfl | hmem
    · split
      · next hin => exact Or.inl (contains_reconcile hin)
      · cases hres : (io n).2.result with
        | error e =>
          refine Or.inr (deny_reconcile ?_)
          simp only [hres, contains_insert_self]
        | ok =>
          refine Or.inl (contains_reconcile ?_)
          simp only [hres, contains_insert_self]
    · split
      · exact ih hmem
      · exact ih hmem

theorem reconcile_of_covered (h : ∀ key ∈ orphans, r.consumed.contains key = true) :
    reconcile io n orphans r = r := by
  induction orphans with
  | nil => rfl
  | cons key orphans ih =>
    rw [reconcile, if_pos (h key List.mem_cons_self)]
    exact ih fun key' hmem => h key' (List.mem_cons_of_mem key hmem)

theorem reconcile_loads {snap : CodeSnapshot} (h : loadRecords r.file = .ok snap)
    (hconsumed : ∀ key, r.consumed.contains key = true → snap.consumed.contains key = true) :
    ∃ snap', loadRecords (reconcile io n orphans r).file = .ok snap' ∧ snap'.codes = snap.codes
      ∧ ∀ key, (reconcile io n orphans r).consumed.contains key = true →
        snap'.consumed.contains key = true := by
  induction orphans generalizing n r snap with
  | nil => exact ⟨snap, h, rfl, hconsumed⟩
  | cons key orphans ih =>
    rw [reconcile]
    split
    · exact ih h hconsumed
    · generalize io n = append
      obtain ⟨now, o⟩ := append
      have hfile := loadRecords_consume h key now
      have hkept : ∀ key', r.consumed.contains key' = true →
          (snap.consumed.insertIfNew key (now, none)).contains key' = true := fun key' hkey' => by
        rw [contains_insertIfNew, hconsumed key' hkey', Bool.or_true]
      have hnew : ∀ key', (r.consumed.insert key (now, none)).contains key' = true →
          (snap.consumed.insertIfNew key (now, none)).contains key' = true := fun key' hkey' => by
        rw [contains_insert, or_eq_true] at hkey'
        rw [contains_insertIfNew, or_eq_true]
        exact hkey'.imp_right (hconsumed key')
      cases o with
      | ok =>
        exact @ih (n + 1)
          ⟨r.file ++ [consumeRecord key now], r.consumed.insert key (now, none), r.deny⟩
          { snap with consumed := snap.consumed.insertIfNew key (now, none) } hfile hnew
      | failed e kept =>
        let deny := r.deny.insert key.codeHash
          { reason := e, retries := 1, source := .reconciliation }
        cases kept with
        | false => exact ih (r := ⟨r.file, r.consumed, deny⟩) h hconsumed
        -- the line is there, although memory does not know
        | true =>
          exact @ih (n + 1) ⟨r.file ++ [consumeRecord key now], r.consumed, deny⟩
            { snap with consumed := snap.consumed.insertIfNew key (now, none) } hfile hkept

theorem source_reconcile
    (h : ∀ (hash : BytesN 32) (d : DenyEntry), r.deny[hash]? = some d →
      d.source = .reconciliation) (hash : BytesN 32) (d : DenyEntry)
    (hd : (reconcile io n orphans r).deny[hash]? = some d) : d.source = .reconciliation := by
  induction orphans generalizing n r with
  | nil => exact h hash d hd
  | cons key orphans ih =>
    rw [reconcile] at hd
    split at hd
    · exact ih h hd
    · refine ih ?_ hd
      cases (io n).2.result with
      | ok => exact h
      | error e =>
        intro hash' d' hd'
        simp only [getElem?_insert] at hd'
        split at hd'
        · cases hd'
          rfl
        · exact h hash' d' hd'

theorem contains_of_reconcile (h : (reconcile io n orphans r).deny.isEmpty = true)
    (hash : BytesN 32) : r.deny.contains hash = false := by
  by_contra hcontains
  have hkept : (reconcile io n orphans r).deny.contains hash = true :=
    deny_reconcile (eq_true_of_not_eq_false hcontains)
  rw [ExtTreeMap.isEmpty_iff.mp h, contains_empty] at hkept
  cases hkept

/-- **A reconciliation that denies nothing leaves the fold of its file.** -/
theorem reconcile_replayed {codes : ExtTreeMap (BytesN 32) CodeEntry}
    (h : loadRecords r.file = .ok { codes, consumed := r.consumed })
    (hdeny : (reconcile io n orphans r).deny.isEmpty = true) :
    loadRecords (reconcile io n orphans r).file
      = .ok { codes, consumed := (reconcile io n orphans r).consumed } := by
  induction orphans generalizing n r with
  | nil => exact h
  | cons key orphans ih =>
    rw [reconcile] at hdeny ⊢
    split at hdeny
    · next hin =>
      rw [if_pos hin]
      exact ih h hdeny
    · next hnew =>
      rw [if_neg hnew]
      generalize io n = append at hdeny ⊢
      obtain ⟨now, o⟩ := append
      cases o with
      | ok =>
        refine ih ?_ hdeny
        -- the line is the first of its key
        have hfirst : r.consumed.insertIfNew key (now, none)
            = r.consumed.insert key (now, none) := by
          refine ext_getElem? fun key' => ?_
          rw [getElem?_insertIfNew, getElem?_insert]
          by_cases hcmp : compare key key' = .eq
          · rw [if_pos hcmp, if_pos ⟨hcmp, by simpa using hnew⟩]
          · rw [if_neg hcmp, if_neg fun hand => hcmp hand.1]
        have hline := loadRecords_consume h key now
        rw [hfirst] at hline
        exact hline
      | failed e kept =>
        -- a failed append denies the code for the rest of the round
        dsimp only [Landing.result] at hdeny
        have hnone := contains_of_reconcile hdeny key.codeHash
        rw [contains_insert_self] at hnone
        cases hnone

theorem deny_reconcile_ok (hok : ∀ k, k < n + orphans.length → (io k).2 = .ok) :
    (reconcile io n orphans r).deny = r.deny := by
  induction orphans generalizing n r with
  | nil => rfl
  | cons key orphans ih =>
    rw [List.length_cons] at hok
    rw [reconcile]
    split
    · exact ih fun k hk => hok k (by omega)
    · rw [ih fun k hk => hok k (by omega), hok n (by omega)]
      rfl

theorem mem_reconcile {x : CodeRecord} (h : x ∈ r.file) : x ∈ (reconcile io n orphans r).file := by
  induction orphans generalizing n r with
  | nil => exact h
  | cons key orphans ih =>
    rw [reconcile]
    split
    · exact ih h
    · refine ih ?_
      cases (io n).2.result with
      | ok => exact Landing.mem_onto.mpr (Or.inl h)
      | error e => exact Landing.mem_onto.mpr (Or.inl h)

end

theorem loadInner_of_loads (h : loadRecords file = .ok snap) (orphans : List RedeemKey)
    (io : Nat → UInt64 × Landing) :
    loadInner file orphans io = .ok (
      { codes := snap.codes
        consumed :=
          (reconcile io 0 orphans { file, consumed := snap.consumed, deny := ∅ }).consumed },
      reconcile io 0 orphans { file, consumed := snap.consumed, deny := ∅ }) := by
  rw [loadInner, h]
  rfl

theorem reload_keeps (s : CodeLedger) (orphans : List RedeemKey) (io : Nat → UInt64 × Landing) :
    (∀ x ∈ s.file, x ∈ (s.reload orphans io).1.file)
      ∧ ∀ (hash : BytesN 32) (p : PendingEntry),
        (s.reload orphans io).1.pending[hash]? = some p → s.pending[hash]? = some p := by
  unfold reload
  split
  · exact ⟨fun _ hx => hx, fun _ _ hp => hp⟩
  · next snapshot r hinner =>
    obtain ⟨snap, -, hpure⟩ := bind_eq_ok.mp hinner
    cases pure_eq_ok.mp hpure
    split
    · refine ⟨fun x hx => mem_reconcile hx, fun hash p hp => ?_⟩
      rw [getElem?_filter'] at hp
      exact (filter_eq_some_iff.mp hp).1
    · exact ⟨fun x hx => mem_reconcile hx, fun _ _ hp => hp⟩

end CodeLedger

end Dweb
