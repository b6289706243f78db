import OpenDweb.Fabric.InviteTokens
import OpenDweb.Fabric.Receipts
import OpenDweb.Fabric.Redemption

/-!
# OpenDweb — the redeem transaction

Embedding of what the issuer does under its locks: `redeem_verify`, `redeem_verify_v2` and
`consume_invite` of `dweb-fabric/src/roster.rs`, and the state transaction of
`handle_redeem_as_issuer_gated` of `session.rs`.

* **`Roster.verifyRedemption_eq_ok`** — what a verified redemption has shown.
* **`Handle.consumeInvite_cases`** — an invite is consumed once, whatever the file system does.
* **`Issuer.transaction_cases`** — a transaction adds no fact, or one grant for a verified
  redemption of an invite that nobody had consumed.
-/

namespace Dweb

section

variable [Crypto]

/-! ## Verification -/

/-- `RosterError`, the variants that the verification of a redemption raises. -/
inductive VerifyError where
  | wrongFabric (got expected : FabricId)
  | inviteNotRoot (issuer : EndpointId) (root : Option EndpointId)
  | protocol (e : ProtocolError)
  | inviteExpired (expiresAtMs nowMs : UInt64)
  | inviteRecipientMismatch (expected redeemer : EndpointId)
  | badPoP (redeemer : EndpointId)
deriving DecidableEq

/-- What both versions of an invite say to the verification. -/
structure InviteClaims where
  fabricId : FabricId
  inviteId : BytesN 16
  issuer : EndpointId
  expiresAtMs : UInt64
  recipient : Option EndpointId

/-- The recipient of an invite, if it has one, is the redeemer. -/
def checkRecipient (recipient : Option EndpointId) (redeemer : EndpointId) :
    Except VerifyError Unit :=
  match recipient with
  | some expected =>
    if expected ≠ redeemer then .error (.inviteRecipientMismatch expected redeemer) else .ok ()
  | none => .ok ()

/-- The chain of `redeem_verify` and `redeem_verify_v2`; `name` is the token in the error. -/
def Roster.verifyClaims (r : Roster) (claims : InviteClaims) (verified : Except ProtocolError Unit)
    (name : String) (redeemer : EndpointId) (popChallenge : BytesN 32) (popSig : Signature)
    (nowMs : UInt64) : Except VerifyError EndpointId := do
  if claims.fabricId ≠ r.fabricId then throw (.wrongFabric claims.fabricId r.fabricId)
  if some claims.issuer ≠ r.root then throw (.inviteNotRoot claims.issuer r.root)
  verified.mapError fun e =>
    .protocol (.quarantine (name ++ " failed verification: " ++ e.display))
  if claims.expiresAtMs ≤ nowMs then throw (.inviteExpired claims.expiresAtMs nowMs)
  checkRecipient claims.recipient redeemer
  let challenge := redeemChallengeBytes r.fabricId claims.inviteId popChallenge
  if ¬Crypto.verify redeemer.asBytes challenge popSig then throw (.badPoP redeemer)
  return redeemer

def InviteToken.claims (token : InviteToken) : InviteClaims where
  fabricId := token.invite.fabricId
  inviteId := token.invite.inviteId
  issuer := token.invite.issuer
  expiresAtMs := token.invite.expiresAtMs
  recipient := token.invite.recipient

def InviteV2Token.claims (token : InviteV2Token) : InviteClaims where
  fabricId := token.invite.fabricId
  inviteId := token.invite.inviteId
  issuer := token.invite.issuer
  expiresAtMs := token.invite.expiresAtMs
  recipient := some token.invite.recipient

/-- `redeem_verify`. -/
def Roster.redeemVerify (r : Roster) (token : InviteToken) (redeemer : EndpointId)
    (popChallenge : BytesN 32) (popSig : Signature) (nowMs : UInt64) :
    Except VerifyError EndpointId :=
  r.verifyClaims token.claims token.verify "invite token" redeemer popChallenge popSig nowMs

/-- `redeem_verify_v2`. The recipient is never missing. -/
def Roster.redeemVerifyV2 (r : Roster) (token : InviteV2Token) (redeemer : EndpointId)
    (popChallenge : BytesN 32) (popSig : Signature) (nowMs : UInt64) :
    Except VerifyError EndpointId :=
  r.verifyClaims token.claims token.verify "invite v2 token" redeemer popChallenge popSig nowMs

namespace InviteVersion

def claims : InviteVersion → InviteClaims
  | v1 token => token.claims
  | v2 token => token.claims

def Verified : InviteVersion → Prop
  | v1 token => token.Verified
  | v2 token => token.Verified

def redeemVerify (token : InviteVersion) (r : Roster) (redeemer : EndpointId)
    (popChallenge : BytesN 32) (popSig : Signature) (nowMs : UInt64) :
    Except VerifyError EndpointId :=
  match token with
  | v1 token => r.redeemVerify token redeemer popChallenge popSig nowMs
  | v2 token => r.redeemVerifyV2 token redeemer popChallenge popSig nowMs

end InviteVersion

/-- What a redemption has to show: a token of the root for this fabric, in time and for the
redeemer, and the redeemer's signature of the challenge. -/
structure Redeemable (r : Roster) (token : InviteVersion) (redeemer : EndpointId)
    (popChallenge : BytesN 32) (popSig : Signature) (nowMs : UInt64) : Prop where
  fabric : token.claims.fabricId = r.fabricId
  root : some token.claims.issuer = r.root
  signed : token.Verified
  inTime : nowMs < token.claims.expiresAtMs
  bound : ∀ expected ∈ token.claims.recipient, expected = redeemer
  possession : Crypto.verify redeemer.asBytes
    (redeemChallengeBytes r.fabricId token.claims.inviteId popChallenge) popSig = true

variable {redeemer : EndpointId}

theorem checkRecipient_eq_ok {recipient : Option EndpointId} :
    checkRecipient recipient redeemer = .ok () ↔ ∀ expected ∈ recipient, expected = redeemer := by
  unfold checkRecipient
  cases recipient with
  | none => exact iff_of_true rfl fun expected hmem => absurd hmem (Option.not_mem_none expected)
  | some expected =>
    dsimp only
    by_cases hsame : expected = redeemer
    · rw [if_neg (not_not.mpr hsame)]
      exact iff_of_true rfl fun e hmem => Option.some.inj hmem ▸ hsame
    · rw [if_pos hsame]
      exact iff_of_false nofun fun hall => hsame (hall expected rfl)

theorem Roster.verifyClaims_eq_ok {r : Roster} {claims : InviteClaims}
    {verified : Except ProtocolError Unit} {name : String} {redeemer' : EndpointId}
    {popChallenge : BytesN 32} {popSig : Signature} {nowMs : UInt64} :
    r.verifyClaims claims verified name redeemer popChallenge popSig nowMs = .ok redeemer'
      ↔ claims.fabricId = r.fabricId ∧ some claims.issuer = r.root ∧ verified = .ok ()
        ∧ nowMs < claims.expiresAtMs ∧ (∀ expected ∈ claims.recipient, expected = redeemer)
        ∧ Crypto.verify redeemer.asBytes
          (redeemChallengeBytes r.fabricId claims.inviteId popChallenge) popSig = true
        ∧ redeemer = redeemer' := by
  simp only [verifyClaims, bind_eq_ok, ite_throw_eq_ok, mapError_eq_ok, not_not, not_le,
    pure_eq_ok]
  constructor
  · rintro ⟨hfabric, hroot, _, hverified, htime, _, hbound, hrest⟩
    exact ⟨hfabric, hroot, hverified, htime, checkRecipient_eq_ok.mp hbound, hrest⟩
  · rintro ⟨hfabric, hroot, hverified, htime, hbound, hrest⟩
    exact ⟨hfabric, hroot, (), hverified, htime, (), checkRecipient_eq_ok.mpr hbound, hrest⟩

/-- **What a verified redemption has shown.** The token is canonical, because it was decoded. -/
theorem InviteVersion.redeemVerify_eq_ok {token : InviteVersion} {r : Roster}
    {redeemer' : EndpointId} {popChallenge : BytesN 32} {popSig : Signature} {nowMs : UInt64}
    (h : token.redeemVerify r redeemer popChallenge popSig nowMs = .ok redeemer') :
    Redeemable r token redeemer popChallenge popSig nowMs := by
  cases token with
  | v1 token =>
    obtain ⟨hfabric, hroot, hverify, htime, hbound, hpop, -⟩ := Roster.verifyClaims_eq_ok.mp h
    exact ⟨hfabric, hroot, (InviteToken.verify_eq_ok.mp hverify).2, htime, hbound, hpop⟩
  | v2 token =>
    obtain ⟨hfabric, hroot, hverify, htime, hbound, hpop, -⟩ := Roster.verifyClaims_eq_ok.mp h
    exact ⟨hfabric, hroot, (InviteV2Token.verify_eq_ok.mp hverify).2, htime, hbound, hpop⟩

/-- `fabric_id_short16`. -/
def fabricIdShort16 (id : FabricId) : String := hexStr (id.toBytes.take 8)

/-- `redeem_verify_emit`: what is sent of a failed verification. -/
def redeemVerifyEmit : VerifyError → Option RedeemErrorKind
  | .wrongFabric got expected => some (.other
      ("wrong fabric " ++ fabricIdShort16 got ++ " vs " ++ fabricIdShort16 expected))
  | .inviteNotRoot _ _ => some .notRoot
  | .inviteExpired _ _ => some (.other "invite expired")
  | .inviteRecipientMismatch _ _ => some (.other "recipient mismatch")
  | .badPoP _ => some .badPoP
  | .protocol _ => none

/-! ## Consumption -/

/-- What the file system does during one `consume_invite`. -/
inductive ConsumeIo where
  | done
  | lockFails (source : IoError)
  | readFails (source : IoError)
  | openFails (source : IoError)
  | writeFails (written : Nat) (source : IoError)

namespace Handle

def logBytes (h : Handle) : Bytes := h.dir.invitesConsumed.getD []

def withConsumed (h : Handle) (consumed : Finset (BytesN 16)) : Handle :=
  { h with roster := { h.roster with consumedInvites := consumed } }

def withLog (h : Handle) (bytes : Bytes) : Handle :=
  { h with dir := { h.dir with invitesConsumed := some bytes } }

/-- `consume_invite` in one go: no other process has the data directory open. -/
def consumeInvite (h : Handle) (inviteId : BytesN 16) (nowMs : UInt64) (io : ConsumeIo) :
    Handle × Except RosterError Bool :=
  if inviteId ∈ h.roster.consumedInvites then (h, .ok false)
  else
    match io with
    | .lockFails source => (h, .error (.persistence (h.dir.path ++ "/roster.lock") source))
    | .readFails source => (h, .error (.persistence h.dir.consumedInvitesFilePath source))
    | _ =>
      match loadConsumedInvites h.dir with
      | .error e => (h, .error e)
      | .ok consumed =>
        let h := h.withConsumed consumed
        if inviteId ∈ consumed then (h, .ok false)
        else
          let record := consumedRecord inviteId nowMs
          match io with
          | .openFails source => (h, .error (.persistence h.dir.consumedInvitesFilePath source))
          | .writeFails written source =>
            (h.withLog (h.logBytes ++ record.take written),
              .error (.persistence h.dir.consumedInvitesFilePath source))
          | _ => ((h.withLog (h.logBytes ++ record)).withConsumed (insert inviteId consumed), .ok true)

/-- Facts, root and fabric are those of before, and no consumed invite is forgotten. -/
structure Keeps (h h' : Handle) : Prop where
  facts : h'.roster.facts = h.roster.facts
  root : h'.roster.root = h.roster.root
  genesis : h'.roster.genesisFactId = h.roster.genesisFactId
  fabric : h'.roster.fabricId = h.roster.fabricId
  log : ∀ x, Recorded h.logBytes x → Recorded h'.logBytes x

theorem Keeps.refl (h : Handle) : h.Keeps h := ⟨rfl, rfl, rfl, rfl, fun _ hx => hx⟩

/-- **An invite is consumed once**: `Ok(true)` takes it from not recorded to recorded, and nothing
that happens makes a recorded one forgotten. -/
theorem consumeInvite_cases (h : Handle) (inviteId : BytesN 16) (nowMs : UInt64) (io : ConsumeIo) :
    h.Keeps (h.consumeInvite inviteId nowMs io).1
      ∧ ((h.consumeInvite inviteId nowMs io).2 = .ok true →
        ¬Recorded h.logBytes inviteId
          ∧ Recorded (h.consumeInvite inviteId nowMs io).1.logBytes inviteId) := by
  have hsame := Keeps.refl h
  have hreloaded : ∀ consumed, h.Keeps (h.withConsumed consumed) :=
    fun consumed => ⟨rfl, rfl, rfl, rfl, fun _ hx => hx⟩
  unfold consumeInvite
  split
  · exact ⟨hsame, nofun⟩
  · cases io with
    | lockFails source => exact ⟨hsame, nofun⟩
    | readFails source => exact ⟨hsame, nofun⟩
    | done =>
      dsimp only
      split
      · exact ⟨hsame, nofun⟩
      · next consumed hload =>
        split
        · exact ⟨hreloaded consumed, nofun⟩
        · next hnew =>
          obtain ⟨haligned, hmem⟩ := loadConsumedInvites_eq_ok hload
          refine ⟨⟨rfl, rfl, rfl, rfl, fun x hx => hx.append _⟩, fun _ => ⟨fun hrec => ?_, ?_⟩⟩
          · exact hnew ((hmem inviteId).mpr hrec)
          · exact (recorded_append_record haligned inviteId inviteId nowMs).mpr (Or.inr rfl)
    | openFails source =>
      dsimp only
      split
      · exact ⟨hsame, nofun⟩
      · next consumed hload =>
        split
        · exact ⟨hreloaded consumed, nofun⟩
        · exact ⟨hreloaded consumed, nofun⟩
    | writeFails written source =>
      dsimp only
      split
      · exact ⟨hsame, nofun⟩
      · next consumed hload =>
        split
        · exact ⟨hreloaded consumed, nofun⟩
        · exact ⟨⟨rfl, rfl, rfl, rfl, fun x hx => hx.append _⟩, nofun⟩

end Handle

/-! ## The grant -/

theorem Handle.root_of_requireRoot {h : Handle} {identity : NodeIdentity} {root : EndpointId}
    (hroot : h.requireRoot identity = .ok root) : some root = h.roster.root := by
  unfold requireRoot at hroot
  cases hstored : h.roster.root with
  | none =>
    rw [hstored] at hroot
    cases hroot
  | some stored =>
    rw [hstored] at hroot
    dsimp only at hroot
    split at hroot
    · cases hroot
      rfl
    · cases hroot

theorem Handle.signAndInsert_cases (h : Handle) (identity : NodeIdentity) (fact : Fact)
    (what : String) (io : PersistIo) :
    h.dir.SameLog (h.signAndInsert identity fact what io).1.dir
      ∧ ((h.signAndInsert identity fact what io).1.roster = h.roster
        ∨ ∃ signed : SignedFact, signed.fact = fact ∧ h.roster.Admits signed
          ∧ (h.signAndInsert identity fact what io).1.roster = h.roster.insertFact signed) := by
  unfold signAndInsert
  cases hsign : SignedFact.sign fact identity.secretKey with
  | error e =>
    dsimp only
    exact ⟨⟨rfl, rfl⟩, Or.inl rfl⟩
  | ok signed =>
    obtain ⟨_, -, hsigned⟩ := bind_eq_ok.mp hsign
    have hfact : signed.fact = fact := by
      rw [← pure_eq_ok.mp hsigned]
    obtain ⟨hadm, heq⟩ | ⟨-, -, heq⟩ | ⟨-, reason, heq⟩ :=
      Roster.validateAndInsert_cases h.roster signed
    · simp only [heq]
      refine ⟨persisting_sameLog _ _ _ _, Or.inr ⟨signed, hfact, hadm, ?_⟩⟩
      rw [persisting_roster]
    · simp only [heq]
      refine ⟨persisting_sameLog _ _ _ _, Or.inl ?_⟩
      rw [persisting_roster]
    · simp only [heq]
      exact ⟨⟨rfl, rfl⟩, Or.inl trivial⟩

theorem Handle.grant_cases (h : Handle) (identity : NodeIdentity) (subject : EndpointId)
    (nowMs : UInt64) (io : PersistIo) :
    h.dir.SameLog (h.grant identity subject none none nowMs io).1.dir
      ∧ ((h.grant identity subject none none nowMs io).1.roster = h.roster
        ∨ ∃ signed : SignedFact, h.roster.Admits signed
          ∧ (h.grant identity subject none none nowMs io).1.roster = h.roster.insertFact signed
          ∧ signed.fact.kind = .grant ∧ signed.fact.subject = subject
          ∧ some signed.fact.issuer = h.roster.root) := by
  unfold grant buildAndInsert
  cases hroot : h.requireRoot identity with
  | error e => exact ⟨⟨rfl, rfl⟩, Or.inl rfl⟩
  | ok root =>
    obtain ⟨hlog, hsame | ⟨signed, hfact, hadm, hroster⟩⟩ := h.signAndInsert_cases identity
      { kind := .grant, fabricId := h.roster.fabricId, issuer := root, subject, displayName := none,
        issuedAtMs := nowMs, expiresAtMs := none, targetFactId := none } "fact" io
    · exact ⟨hlog, Or.inl hsame⟩
    · have hissuer := root_of_requireRoot hroot
      exact ⟨hlog, Or.inr ⟨signed, hadm, hroster, by rw [hfact], by rw [hfact], by rw [hfact, hissuer]⟩⟩

/-! ## The transaction -/

inductive Flow where
  | emit (kind : RedeemErrorKind)
  | receipt (frameType : UInt8) (payload : Bytes)

inductive Silent where
  | verify (e : VerifyError)
  | consume (e : RosterError)
  | grant (e : RosterError)
  | encode (e : ProtocolError)

structure TransactionClock where
  verify : UInt64
  consume : UInt64
  grant : UInt64
  mint : UInt64

structure TransactionIo where
  consume : ConsumeIo
  persist : PersistIo

structure Issuer where
  identity : NodeIdentity
  v2Minter : Option RedeemCapMinter

namespace Issuer

/-- The capabilities that go with the receipt of a token of the second version. -/
def caps (issuer : Issuer) (token : InviteV2Token) (redeemer : EndpointId) (nowMs : UInt64) :
    List (String × String) :=
  match issuer.v2Minter with
  | some minter => minter.mintFor redeemer token.invite.relays nowMs
  | none => []

/-- The receipt: all facts, and for the second version the capabilities. -/
def receipt (issuer : Issuer) (r : Roster) (token : InviteVersion) (redeemer : EndpointId)
    (nowMs : UInt64) : Except Silent Flow :=
  match SignedFact.encodeAll r.values with
  | .error e => .error (.encode e)
  | .ok buf =>
    match token with
    | .v1 _ => .ok (.receipt FrameType.REDEEM_OK buf)
    | .v2 token => .ok (.receipt FrameType.REDEEM_OK2
        (buf ++ encodeOk2CapSegment (issuer.caps token redeemer nowMs)))

/-- What follows the verification: consume, grant, receipt. -/
def commit (issuer : Issuer) (h : Handle) (token : InviteVersion) (redeemer : EndpointId)
    (clock : TransactionClock) (io : TransactionIo) : Handle × Except Silent Flow :=
  match h.consumeInvite token.claims.inviteId clock.consume io.consume with
  | (h, .error e) => (h, .error (.consume e))
  | (h, .ok false) => (h, .ok (.emit .consumed))
  | (h, .ok true) =>
    match h.grant issuer.identity redeemer none none clock.grant io.persist with
    | (h, .error e) => (h, .error (.grant e))
    | (h, .ok _) => (h, issuer.receipt h.roster token redeemer clock.mint)

/-- The state transaction of `handle_redeem_as_issuer_gated`. -/
def transaction (issuer : Issuer) (h : Handle) (token : InviteVersion) (redeemer : EndpointId)
    (challenge : BytesN 32) (sig : Signature) (clock : TransactionClock) (io : TransactionIo) :
    Handle × Except Silent Flow :=
  match token.redeemVerify h.roster redeemer challenge sig clock.verify with
  | .error e =>
    match redeemVerifyEmit e with
    | some kind => (h, .ok (.emit kind))
    | none => (h, .error (.verify e))
  | .ok _ => issuer.commit h token redeemer clock io

/-- One fact more: a grant of the subject, in exchange for the invite. -/
structure Grants (h h' : Handle) (inviteId : BytesN 16) (subject : EndpointId)
    (signed : SignedFact) : Prop where
  fresh : h.roster.facts[signed.factId]? = none
  acceptable : signed.Acceptable h.roster.fabricId
  facts : h'.roster.facts = h.roster.facts.insert signed.factId signed
  root : h'.roster.root = h.roster.root
  genesis : h'.roster.genesisFactId = h.roster.genesisFactId
  fabric : h'.roster.fabricId = h.roster.fabricId
  kind : signed.fact.kind = .grant
  subject : signed.fact.subject = subject
  issuer : some signed.fact.issuer = h.roster.root
  unspent : ¬Recorded h.logBytes inviteId
  spent : Recorded h'.logBytes inviteId
  log : ∀ x, Recorded h.logBytes x → Recorded h'.logBytes x

theorem commit_cases (issuer : Issuer) (h : Handle) (token : InviteVersion) (redeemer : EndpointId)
    (clock : TransactionClock) (io : TransactionIo) :
    h.Keeps (issuer.commit h token redeemer clock io).1
      ∨ ∃ signed, Grants h (issuer.commit h token redeemer clock io).1 token.claims.inviteId redeemer
        signed := by
  obtain ⟨hidle, htrue⟩ := h.consumeInvite_cases token.claims.inviteId clock.consume io.consume
  unfold commit
  revert hidle htrue
  rcases h.consumeInvite token.claims.inviteId clock.consume io.consume with ⟨h', _ | b⟩
  · intro hidle _
    exact Or.inl hidle
  · cases b with
    | false =>
      intro hidle _
      exact Or.inl hidle
    | true =>
      intro hidle htrue
      obtain ⟨hunspent, hspent⟩ := htrue rfl
      dsimp only at hidle hspent ⊢
      obtain ⟨hlog, hcases⟩ := h'.grant_cases issuer.identity redeemer clock.grant io.persist
      have hbytes : (h'.grant issuer.identity redeemer none none clock.grant io.persist).1.logBytes
          = h'.logBytes := by
        rw [Handle.logBytes, hlog.log_eq]
        rfl
      -- the receipt does not touch the handle
      have hhandle : ∀ out : Handle × Except RosterError SignedFact,
          (match out with
            | (h, .error e) => ((h, .error (.grant e)) : Handle × Except Silent Flow)
            | (h, .ok _) => (h, issuer.receipt h.roster token redeemer clock.mint)).1 = out.1 := by
        rintro ⟨h'', _ | signed⟩
        · rfl
        · rfl
      rw [hhandle]
      obtain hsame | ⟨signed, hadm, hroster, hkind, hsubject, hissuer⟩ := hcases
      · refine Or.inl ⟨?_, ?_, ?_, ?_, fun x hx => ?_⟩
        · rw [hsame, hidle.facts]
        · rw [hsame, hidle.root]
        · rw [hsame, hidle.genesis]
        · rw [hsame, hidle.fabric]
        · rw [hbytes]
          exact hidle.log x hx
      · have hnot : ¬(signed.fact.kind = .genesis ∧ h'.roster.genesisFactId = none) := by
          rw [hkind]
          exact fun hgenesis => FactKind.noConfusion hgenesis.1
        refine Or.inr ⟨signed, ?_⟩
        exact
          { fresh := hidle.facts ▸ hadm.fresh
            acceptable := hidle.fabric ▸ hadm.acceptable
            facts := by rw [hroster, Roster.insertFact_facts, hidle.facts]
            root := by rw [hroster, Roster.insertFact_root, if_neg hnot, hidle.root]
            genesis := by rw [hroster, Roster.insertFact_genesisFactId, if_neg hnot, hidle.genesis]
            fabric := by rw [hroster, Roster.insertFact_fabricId, hidle.fabric]
            kind := hkind
            subject := hsubject
            issuer := hissuer.trans hidle.root
            unspent := hunspent
            spent := by rw [hbytes]; exact hspent
            log := fun x hx => by rw [hbytes]; exact hidle.log x hx }

/-- **What a transaction can do to the roster**: nothing, or one grant for a verified redemption. -/
theorem transaction_cases (issuer : Issuer) (h : Handle) (token : InviteVersion)
    (redeemer : EndpointId) (challenge : BytesN 32) (sig : Signature) (clock : TransactionClock)
    (io : TransactionIo) :
    h.Keeps (issuer.transaction h token redeemer challenge sig clock io).1
      ∨ ∃ signed, Redeemable h.roster token redeemer challenge sig clock.verify
        ∧ Grants h (issuer.transaction h token redeemer challenge sig clock io).1
          token.claims.inviteId redeemer signed := by
  have hsame := Handle.Keeps.refl h
  unfold transaction
  cases hverify : token.redeemVerify h.roster redeemer challenge sig clock.verify with
  | error e =>
    dsimp only
    cases redeemVerifyEmit e with
    | none => exact Or.inl hsame
    | some kind => exact Or.inl hsame
  | ok verified =>
    dsimp only
    have hredeemable := InviteVersion.redeemVerify_eq_ok hverify
    exact (issuer.commit_cases h token redeemer clock io).imp_right
      fun ⟨signed, hgrants⟩ => ⟨signed, hredeemable, hgrants⟩

end Issuer

end

/-! ## A sample redemption

The root of the sample fabric has invited the member, and names a relay by a URL of 519 bytes. -/

namespace SampleRedeem

open Sample (rootKey memberKey fabricId genesisBytes grantBytes genesisSignature grantSignature)

def relayUrl : String := "https://relay.test/" ++ String.ofList (List.replicate 500 'a')

def inviteId : BytesN 16 := .ofNat 16 0x09090909090909090909090909090909
def challenge : BytesN 32 := ⟨List.replicate 32 5, List.length_replicate⟩
def serverId : BytesN 32 := ⟨List.replicate 32 3, List.length_replicate⟩

def inviteBytes : Bytes :=
  INVITE2_DOMAIN ++ ([INVITE2_VERSION] ++ (fabricId.toBytes ++ (inviteId.toBytes
    ++ (rootKey.toBytes ++ (beBytes 8 600000 ++ (memberKey.toBytes ++ ([1]
      ++ ((textField 2 relayUrl ++ beBytes 2 0) ++ [0]))))))))

def capBytes : Bytes :=
  RELAY_CAP_DOMAIN ++ ([RELAY_CAP_VERSION] ++ (fabricId.toBytes ++ (serverId.toBytes
    ++ (rootKey.toBytes ++ (memberKey.toBytes ++ ([CAP_RELAY]
      ++ (beBytes 8 2000 ++ beBytes 8 7776002000)))))))

def inviteSignature : BytesN 64 := .ofNat 64
  0xaae167cccc844dd7012e039fbdbdb883983577d8bc7964496ed89dd5a536ad2658d2d34e75fe4ac04d1c4507e655cad5026bb2923631b2ee536ae4e6796a2000

def popSignature : BytesN 64 := .ofNat 64
  0x1cf964432241847d71c662cc988bc5466a37d7ea3e0247a310b79725af3b1b939d3386b46bd4433a2c2fbd0ccbfa5fe3b6febb5ee95eae5bf06cfd9ff405ff0a

def capSignature : BytesN 64 := .ofNat 64
  0x0ac62a0e792e97159a310c271e2eaaca938bb1232aa411b95b18599e32d17e94b8f88df9a0974c49148b0085e43dbb3da6a3fc838acf838e71aeb5ecef608909

@[reducible] def crypto : Crypto :=
  .known [rootKey, memberKey]
    [(genesisBytes,
        .ofNat 32 0xa51814281402f3ec8593a6a95bc68d8cd0f44abded4e8b8de2f81aa5549f778d),
      (grantBytes,
        .ofNat 32 0xa57b7cf9f3a63891537b8b5f9b2f0c40743c912222211dace2662b7b6dd6fe72),
      (Sample.fileHead [(genesisBytes, genesisSignature)],
        .ofNat 32 0xd6d7141c1d1266acf8c72c52ee2a3020727346bacbd355462e2dcb7e10982bd7),
      (Sample.fileHead [(genesisBytes, genesisSignature), (grantBytes, grantSignature)],
        .ofNat 32 0x1e12cb9cf15c52d57298f1b594b33205c899499876691ce51641a6eebd844014)]
    [(rootKey, genesisBytes, genesisSignature), (rootKey, grantBytes, grantSignature),
      (rootKey, inviteBytes, inviteSignature),
      (memberKey, redeemChallengeBytes fabricId inviteId challenge, popSignature),
      (rootKey, capBytes, capSignature)]

attribute [local instance] crypto

theorem rootKey_known : rootKey ∈ [rootKey, memberKey] := by decide

theorem memberKey_known : memberKey ∈ [rootKey, memberKey] := by decide

def root : NodeIdentity := ⟨⟨rootKey, rootKey_known⟩⟩
def member : NodeIdentity := ⟨⟨memberKey, memberKey_known⟩⟩

def genesis : SignedFact where
  fact :=
    { kind := .genesis, fabricId, issuer := root.endpointId, subject := root.endpointId,
      displayName := none, issuedAtMs := 1000, expiresAtMs := none, targetFactId := none }
  signature := genesisSignature

def created : Handle where
  dir := { Sample.dir "/root" with
    rosterFacts := some ((Roster.empty fabricId ∅).insertFact genesis).file }
  roster := (Roster.empty fabricId ∅).insertFact genesis

def invite : InviteV2Token where
  invite :=
    { fabricId, inviteId, issuer := root.endpointId, expiresAtMs := 600000,
      recipient := member.endpointId, relays := [⟨relayUrl, none⟩], directAddrs := [] }
  signature := inviteSignature

def issuer : Issuer where
  identity := root
  v2Minter := some ⟨fabricId, root.secretKey, [(relayUrl, serverId)]⟩

def clock : TransactionClock := ⟨2000, 2000, 2000, 2000⟩

theorem canonical_invite : invite.invite.Canonical := by
  refine ⟨by decide, by decide, fun relay hmem => ?_⟩
  obtain rfl := List.mem_singleton.mp hmem
  exact ⟨by decide +kernel, nofun⟩

theorem verified_invite : invite.Verified := by
  unfold InviteV2Token.Verified
  decide +kernel

end SampleRedeem

end Dweb
