import OpenDweb.Fabric.Invites

/-!
# OpenDweb — invite tokens

Embedding of `InviteToken`, `InviteV2Token` and `InviteVersion` of
`dweb-fabric/src/protocol.rs`: an invite and its signature, as a text.

* **`InviteToken.decode_eq_ok`**, **`InviteV2Token.decode_eq_ok`** — the texts each decoder
  accepts: one for each signed invite.
* **`invite_codecs`** — the round trips in both directions, and that no text has two versions.
-/

namespace Dweb

open List

section

variable [Crypto]

/-! ## Payloads -/

/-- The bytes before the signature, and the signature, of a text `tag || base64url`. -/
def tokenPayload (tag s : String) : Except ProtocolError (Bytes × Signature) := do
  let b64 ← okOr (stripPrefix s tag) (.quarantine ("token does not start with \"" ++ tag ++ "\""))
  -- the base64 library's own text, which follows in the source, is left out
  let payload ← okOr (base64Decode b64) (.quarantine "token base64 decoding failed")
  if h : payload.length < SIGNATURE_LENGTH then
    throw (.quarantine "token payload shorter than a signature")
  else
    let split := payload.length - SIGNATURE_LENGTH
    return (payload.take split, ⟨payload.drop split, by
      rw [length_drop, Nat.sub_sub_self (Nat.le_of_not_lt h)]
      rfl⟩)

omit [Crypto] in
theorem tokenPayload_eq_ok {tag s : String} {bytes : Bytes} {signature : Signature} :
    tokenPayload tag s = .ok (bytes, signature)
      ↔ s = tag ++ base64Encode (bytes ++ signature.toBytes) := by
  unfold tokenPayload
  simp only [bind_eq_ok, okOr_eq_ok, stripPrefix_eq_some]
  constructor
  · rintro ⟨b64, rfl, payload, hpayload, hsplit⟩
    split at hsplit
    · cases hsplit
    · cases hsplit
      rw [take_append_drop, base64Encode_of_base64Decode hpayload]
  · rintro rfl
    have hlen : (bytes ++ signature.toBytes).length = bytes.length + SIGNATURE_LENGTH := by
      rw [length_append, signature.length_toBytes]
      rfl
    have hsplit : (bytes ++ signature.toBytes).length - SIGNATURE_LENGTH = bytes.length := by
      rw [hlen, Nat.add_sub_cancel]
    refine ⟨_, rfl, _, base64Decode_base64Encode _, ?_⟩
    rw [dif_neg (by rw [hlen]; exact Nat.not_lt.mpr (Nat.le_add_left _ _))]
    refine congrArg Except.ok (Prod.ext ?_ (BytesN.toBytes_injective ?_))
    · show (bytes ++ signature.toBytes).take _ = bytes
      rw [hsplit, take_left]
    · show (bytes ++ signature.toBytes).drop _ = signature.toBytes
      rw [hsplit, drop_left]

/-! ## The first version -/

structure InviteToken where
  invite : InviteV1
  signature : Signature
deriving DecidableEq

namespace InviteToken

def sign (invite : InviteV1) (secret : Crypto.SecretKey) : Except ProtocolError InviteToken := do
  let bytes ← invite.canonicalBytes
  return ⟨invite, Crypto.sign secret bytes⟩

def encode (token : InviteToken) : Except ProtocolError String := do
  let payload ← token.invite.canonicalBytes
  return TOKEN_PREFIX ++ base64Encode (payload ++ token.signature.toBytes)

def verify (token : InviteToken) : Except ProtocolError Unit := do
  let bytes ← token.invite.canonicalBytes
  if Crypto.verify token.invite.issuer.asBytes bytes token.signature then return ()
  else throw (.quarantine "invite signature verification failed")

/-- `decode` of a text that is not of the second version. -/
def decodeV1 (s : String) : Except ProtocolError InviteToken := do
  let (bytes, signature) ← tokenPayload TOKEN_PREFIX s
  let invite ← InviteV1.decodeStrict bytes
  let token : InviteToken := { invite, signature }
  token.verify.mapError fun _ => .quarantine "invite token signature verification failed"
  return token

def decode (s : String) : Except InviteError InviteToken :=
  if (stripPrefix s TOKEN2_PREFIX).isSome then
    .error (.unsupportedInviteVersion ("invite token is v2 (dweb2.) but this decoder supports " ++
      "v1 only; upgrade the SDK to redeem v2 invites"))
  else (decodeV1 s).mapError .protocol

end InviteToken

/-! ## The second version -/

structure InviteV2Token where
  invite : InviteV2
  signature : Signature
deriving DecidableEq

namespace InviteV2Token

def sign (invite : InviteV2) (secret : Crypto.SecretKey) : Except ProtocolError InviteV2Token := do
  let bytes ← invite.canonicalBytes
  return ⟨invite, Crypto.sign secret bytes⟩

def encode (token : InviteV2Token) : Except ProtocolError String := do
  let payload ← token.invite.canonicalBytes
  return TOKEN2_PREFIX ++ base64Encode (payload ++ token.signature.toBytes)

def verify (token : InviteV2Token) : Except ProtocolError Unit := do
  let bytes ← token.invite.canonicalBytes
  if Crypto.verify token.invite.issuer.asBytes bytes token.signature then return ()
  else throw (.quarantine "invite v2 signature verification failed")

def decode (s : String) : Except ProtocolError InviteV2Token := do
  let (bytes, signature) ← tokenPayload TOKEN2_PREFIX s
  let invite ← InviteV2.decodeStrict bytes
  let token : InviteV2Token := { invite, signature }
  token.verify.mapError fun _ => .quarantine "invite v2 token signature verification failed"
  return token

end InviteV2Token

inductive InviteVersion where
  | v1 (token : InviteToken)
  | v2 (token : InviteV2Token)
deriving DecidableEq

/-- `InviteVersion::decode`. -/
def InviteVersion.decode (s : String) : Except InviteError InviteVersion :=
  if (stripPrefix s TOKEN2_PREFIX).isSome then
    ((InviteV2Token.decode s).map .v2).mapError .protocol
  else (InviteToken.decode s).map .v1

/-! ## Proof of possession -/

/-- `b"dweb/redeem-pop/v1\0"`. -/
def POP_DOMAIN : Bytes :=
  [100, 119, 101, 98, 47, 114, 101, 100, 101, 101, 109, 45, 112, 111, 112, 47, 118, 49, 0]

/-- `redeem_challenge_bytes`: what the redeeming device signs. -/
def redeemChallengeBytes (fabricId : FabricId) (inviteId : BytesN 16) (challenge : BytesN 32) :
    Bytes :=
  POP_DOMAIN ++ (fabricId.toBytes ++ (inviteId.toBytes ++ challenge.toBytes))

/-! ## What the decoders accept -/

def InviteToken.Verified (token : InviteToken) : Prop :=
  Crypto.verify token.invite.issuer.asBytes token.invite.layout token.signature = true

def InviteV2Token.Verified (token : InviteV2Token) : Prop :=
  Crypto.verify token.invite.issuer.asBytes token.invite.layout token.signature = true

def InviteToken.text (token : InviteToken) : String :=
  TOKEN_PREFIX ++ base64Encode (token.invite.layout ++ token.signature.toBytes)

def InviteV2Token.text (token : InviteV2Token) : String :=
  TOKEN2_PREFIX ++ base64Encode (token.invite.layout ++ token.signature.toBytes)

omit [Crypto] in
theorem verify_link {c : Bool} {e : ProtocolError} {u : Unit} :
    (if c then (return () : Except ProtocolError Unit) else throw e) = .ok u ↔ c = true := by
  cases c with
  | true => exact iff_of_true rfl rfl
  | false => exact iff_of_false nofun nofun

theorem InviteToken.verify_eq_ok {token : InviteToken} {u : Unit} :
    token.verify = .ok u ↔ token.invite.Canonical ∧ token.Verified := by
  simp only [verify, bind_eq_ok, InviteV1.canonicalBytes_eq_ok, verify_link]
  constructor
  · rintro ⟨_, ⟨hcanon, rfl⟩, hverified⟩
    exact ⟨hcanon, hverified⟩
  · rintro ⟨hcanon, hverified⟩
    exact ⟨_, ⟨hcanon, rfl⟩, hverified⟩

variable {token : InviteV2Token} {s : String}

theorem InviteV2Token.verify_eq_ok {u : Unit} :
    token.verify = .ok u ↔ token.invite.Canonical ∧ token.Verified := by
  simp only [verify, bind_eq_ok, InviteV2.canonicalBytes_eq_ok, verify_link]
  constructor
  · rintro ⟨_, ⟨hcanon, rfl⟩, hverified⟩
    exact ⟨hcanon, hverified⟩
  · rintro ⟨hcanon, hverified⟩
    exact ⟨_, ⟨hcanon, rfl⟩, hverified⟩

theorem InviteToken.encode_eq_ok {token : InviteToken} {s : String} :
    token.encode = .ok s ↔ token.invite.Canonical ∧ s = token.text := by
  simp only [encode, bind_eq_ok, InviteV1.canonicalBytes_eq_ok, pure_eq_ok]
  constructor
  · rintro ⟨_, ⟨hcanon, rfl⟩, rfl⟩
    exact ⟨hcanon, rfl⟩
  · rintro ⟨hcanon, rfl⟩
    exact ⟨_, ⟨hcanon, rfl⟩, rfl⟩

theorem InviteV2Token.encode_eq_ok :
    token.encode = .ok s ↔ token.invite.Canonical ∧ s = token.text := by
  simp only [encode, bind_eq_ok, InviteV2.canonicalBytes_eq_ok, pure_eq_ok]
  constructor
  · rintro ⟨_, ⟨hcanon, rfl⟩, rfl⟩
    exact ⟨hcanon, rfl⟩
  · rintro ⟨hcanon, rfl⟩
    exact ⟨_, ⟨hcanon, rfl⟩, rfl⟩

omit [Crypto] in
theorem prefixes_differ {x y : String} : TOKEN_PREFIX ++ x ≠ TOKEN2_PREFIX ++ y := by
  intro h
  have hlist := congrArg String.toList h
  rw [String.toList_append, String.toList_append] at hlist
  -- the fifth characters differ
  have hfifth := congrArg (fun cs : List Char => cs[4]?) hlist
  have hone : (TOKEN_PREFIX.toList ++ x.toList)[4]? = some '1' := rfl
  have htwo : (TOKEN2_PREFIX.toList ++ y.toList)[4]? = some '2' := rfl
  rw [hone, htwo] at hfifth
  cases hfifth

/-- **The texts of the first version.** -/
theorem InviteToken.decode_eq_ok {token : InviteToken} :
    decode s = .ok token ↔ token.invite.Canonical ∧ token.Verified ∧ s = token.text := by
  have hv1 : decodeV1 s = .ok token
      ↔ token.invite.Canonical ∧ token.Verified ∧ s = token.text := by
    simp only [decodeV1, bind_eq_ok, InviteV1.decodeStrict_eq_ok, mapError_eq_ok, verify_eq_ok,
      pure_eq_ok]
    constructor
    · rintro ⟨⟨_, signature⟩, hpayload, invite, ⟨hcanon, rfl⟩, _, ⟨-, hverified⟩, rfl⟩
      exact ⟨hcanon, hverified, tokenPayload_eq_ok.mp hpayload⟩
    · rintro ⟨hcanon, hverified, htext⟩
      exact ⟨(token.invite.layout, token.signature), tokenPayload_eq_ok.mpr htext, token.invite,
        ⟨hcanon, rfl⟩, (), ⟨hcanon, hverified⟩, rfl⟩
  unfold decode
  rw [← hv1]
  split
  · next hsome =>
    obtain ⟨rest, hrest⟩ := Option.isSome_iff_exists.mp hsome
    refine iff_of_false nofun fun h => ?_
    have htext := (hv1.mp h).2.2
    rw [stripPrefix_eq_some.mp hrest] at htext
    exact prefixes_differ htext.symm
  · exact mapError_eq_ok

/-- **The texts of the second version.** -/
theorem InviteV2Token.decode_eq_ok :
    decode s = .ok token
      ↔ (token.invite.Canonical ∧ token.invite.Carried) ∧ token.Verified ∧ s = token.text := by
  simp only [decode, bind_eq_ok, InviteV2.decodeStrict_eq_ok, mapError_eq_ok, verify_eq_ok,
    pure_eq_ok]
  constructor
  · rintro ⟨⟨_, signature⟩, hpayload, invite, ⟨hcanon, rfl⟩, _, ⟨-, hverified⟩, rfl⟩
    exact ⟨hcanon, hverified, tokenPayload_eq_ok.mp hpayload⟩
  · rintro ⟨hcanon, hverified, htext⟩
    exact ⟨(token.invite.layout, token.signature), tokenPayload_eq_ok.mpr htext, token.invite,
      ⟨hcanon, rfl⟩, (), ⟨hcanon.1, hverified⟩, rfl⟩

/-! ## Round trips -/

/-- What the layout has of an invite: its addresses without flow and scope. -/
def InviteV2.carried (invite : InviteV2) : InviteV2 :=
  { invite with directAddrs := invite.directAddrs.map SocketAddr.carried }

def InviteV2Token.carried (token : InviteV2Token) : InviteV2Token :=
  { token with invite := token.invite.carried }

@[simp] theorem InviteV2.layout_carried (invite : InviteV2) :
    invite.carried.layout = invite.layout := by
  simp only [layout, carried, length_map, flatMap_map, SocketAddr.field_carried]

theorem InviteV2.canonical_carried {invite : InviteV2} (h : invite.Canonical) :
    invite.carried.Canonical where
  relays := h.relays
  addrs := by
    show (invite.directAddrs.map SocketAddr.carried).length ≤ _
    rw [length_map]
    exact h.addrs
  relay := h.relay

theorem InviteV2.carried_carried (invite : InviteV2) : invite.carried.Carried := by
  intro addr hmem
  obtain ⟨addr', -, rfl⟩ := mem_map.mp hmem
  exact addr'.carried_carried

theorem InviteV1.decodeStrict_canonicalBytes {invite : InviteV1} {bytes : Bytes}
    (h : invite.canonicalBytes = .ok bytes) : decodeStrict bytes = .ok invite :=
  decodeStrict_eq_ok.mpr (canonicalBytes_eq_ok.mp h)

theorem InviteV2.decodeStrict_canonicalBytes {invite : InviteV2} {bytes : Bytes}
    (h : invite.canonicalBytes = .ok bytes) : decodeStrict bytes = .ok invite.carried := by
  obtain ⟨hcanon, rfl⟩ := canonicalBytes_eq_ok.mp h
  exact decodeStrict_eq_ok.mpr
    ⟨⟨canonical_carried hcanon, invite.carried_carried⟩, invite.layout_carried.symm⟩

def SignsVerifiably (secret : Crypto.SecretKey) (bytes : Bytes) : Prop :=
  Crypto.verify (Crypto.publicKey secret) bytes (Crypto.sign secret bytes) = true

/-- **The invite codecs.** A signed invite is read back, but for the flow and the scope of an IPv6
address; what is read is what is written; what one side writes the other accepts; and no text is
of both versions. -/
theorem invite_codecs :
    (∀ (secret : Crypto.SecretKey) (invite : InviteV1) (token : InviteToken) (s : String),
      invite.issuer.asBytes = Crypto.publicKey secret → SignsVerifiably secret invite.layout →
      InviteToken.sign invite secret = .ok token → token.encode = .ok s →
      InviteToken.decode s = .ok token)
    ∧ (∀ (secret : Crypto.SecretKey) (invite : InviteV2) (token : InviteV2Token) (s : String),
      invite.issuer.asBytes = Crypto.publicKey secret → SignsVerifiably secret invite.layout →
      InviteV2Token.sign invite secret = .ok token → token.encode = .ok s →
      InviteV2Token.decode s = .ok token.carried)
    ∧ (∀ s token, InviteToken.decode s = .ok token → token.encode = .ok s)
    ∧ (∀ s token, InviteV2Token.decode s = .ok token → token.encode = .ok s)
    ∧ (∀ (invite : InviteV1) bytes, invite.canonicalBytes = .ok bytes →
      InviteV1.decodeStrict bytes = .ok invite)
    ∧ (∀ (invite : InviteV2) bytes, invite.canonicalBytes = .ok bytes →
      InviteV2.decodeStrict bytes = .ok invite.carried)
    ∧ ∀ s token token', InviteToken.decode s = .ok token → InviteV2Token.decode s ≠ .ok token' := by
  refine ⟨fun secret invite token s hissuer hverifies hsign hencode => ?_,
    fun secret invite token s hissuer hverifies hsign hencode => ?_, fun s token hdecode => ?_,
    fun s token hdecode => ?_, fun invite bytes hbytes => ?_, fun invite bytes hbytes => ?_,
    fun s token token' hdecode hdecode' => ?_⟩
  · obtain ⟨_, hbytes, hpure⟩ := bind_eq_ok.mp hsign
    obtain ⟨hcanon, rfl⟩ := InviteV1.canonicalBytes_eq_ok.mp hbytes
    cases pure_eq_ok.mp hpure
    have htext := (InviteToken.encode_eq_ok.mp hencode).2
    rw [SignsVerifiably, ← hissuer] at hverifies
    exact InviteToken.decode_eq_ok.mpr ⟨hcanon, hverifies, htext⟩
  · obtain ⟨_, hbytes, hpure⟩ := bind_eq_ok.mp hsign
    obtain ⟨hcanon, rfl⟩ := InviteV2.canonicalBytes_eq_ok.mp hbytes
    cases pure_eq_ok.mp hpure
    have htext := (InviteV2Token.encode_eq_ok.mp hencode).2
    rw [SignsVerifiably, ← hissuer] at hverifies
    refine InviteV2Token.decode_eq_ok.mpr
      ⟨⟨InviteV2.canonical_carried hcanon, invite.carried_carried⟩, ?_, ?_⟩
    · show Crypto.verify invite.issuer.asBytes invite.carried.layout _ = true
      rw [invite.layout_carried]
      exact hverifies
    · rw [htext, InviteV2Token.text, InviteV2Token.text, InviteV2Token.carried,
        InviteV2.layout_carried]
  · obtain ⟨hcanon, -, htext⟩ := InviteToken.decode_eq_ok.mp hdecode
    exact InviteToken.encode_eq_ok.mpr ⟨hcanon, htext⟩
  · obtain ⟨⟨hcanon, -⟩, -, htext⟩ := InviteV2Token.decode_eq_ok.mp hdecode
    exact InviteV2Token.encode_eq_ok.mpr ⟨hcanon, htext⟩
  · exact InviteV1.decodeStrict_canonicalBytes hbytes
  · exact InviteV2.decodeStrict_canonicalBytes hbytes
  · have htext := (InviteToken.decode_eq_ok.mp hdecode).2.2
    rw [(InviteV2Token.decode_eq_ok.mp hdecode').2.2] at htext
    exact prefixes_differ htext.symm

end

/-! ## Known answers -/

namespace SampleInvites

def issuer : BytesN 32 :=
  .ofNat 32 62661036972089873194988114229977232981811067054527611535751773680930539925340

def recipient : BytesN 32 :=
  .ofNat 32 91628109653329269446615640518334049285888367141089099501821708681845268987516

def fabricId : FabricId := ⟨List.replicate 32 3, rfl⟩

def inviteId : BytesN 16 := ⟨List.replicate 16 5, rfl⟩

/-- `fe80::1`, on the link that the scope names. -/
def linkLocal : SocketAddr :=
  .v6 ⟨[0xfe, 0x80, 0, 0, 0, 0, 0, 0, 0, 0, 0, 0, 0, 0, 0, 1], rfl⟩ 4433 0 1

def bytesV1 : Bytes :=
  INVITE_DOMAIN ++ ([INVITE_VERSION] ++ (fabricId.toBytes ++ (inviteId.toBytes
    ++ (issuer.toBytes ++ (textField 2 "https://relay.test/x" ++ ([0]
      ++ (beBytes 8 1800000000000 ++ ([0] ++ [1]))))))))

def bytesV2 : Bytes :=
  INVITE2_DOMAIN ++ ([INVITE2_VERSION] ++ (fabricId.toBytes ++ (inviteId.toBytes
    ++ (issuer.toBytes ++ (beBytes 8 1800000000000 ++ (recipient.toBytes ++ ([0] ++ ([1]
      ++ linkLocal.field))))))))

def signatures : List (BytesN 32 × Bytes × BytesN 64) :=
  let r1 := 53245316485578422449836574324027965857883844018406878536856875812688681492389
  let s1 := 2041295911898394854030596975432308436716996470371113356350092544860827268105
  let r2 := 50327673881280197612588511598909153798760864541573804593992883590759064385824
  let s2 := 79287593531611369712959590405871592874418593376060747893886311276506107820544
  [(issuer, bytesV1, .ofNat 64 (r1 * 2 ^ 256 + s1)),
    (issuer, bytesV2, .ofNat 64 (r2 * 2 ^ 256 + s2))]

@[reducible] def crypto : Crypto := .known [issuer, recipient] [] signatures

attribute [local instance] crypto

def secret : Crypto.SecretKey := ⟨issuer, by decide +kernel⟩

def inviteV1 : InviteV1 where
  fabricId
  inviteId
  issuer := ⟨issuer, by decide +kernel⟩
  issuerRelayUrl := "https://relay.test/x"
  issuerDirectAddrs := []
  expiresAtMs := 1800000000000
  recipient := none

def inviteV2 : InviteV2 where
  fabricId
  inviteId
  issuer := ⟨issuer, by decide +kernel⟩
  expiresAtMs := 1800000000000
  recipient := ⟨recipient, by decide +kernel⟩
  relays := []
  directAddrs := [linkLocal]

theorem canonical_inviteV1 : inviteV1.Canonical :=
  ⟨by decide, by decide, fun addr hmem => absurd hmem not_mem_nil⟩

theorem canonical_inviteV2 : inviteV2.Canonical :=
  ⟨by decide, by decide, fun relay hmem => absurd hmem not_mem_nil⟩

theorem invite_codecs_v1 :
    ∃ token s, InviteToken.sign inviteV1 secret = .ok token ∧ token.encode = .ok s
      ∧ InviteToken.decode s = .ok token := by
  let token : InviteToken := ⟨inviteV1, Crypto.sign secret inviteV1.layout⟩
  have hsign : InviteToken.sign inviteV1 secret = .ok token := bind_eq_ok.mpr
    ⟨_, InviteV1.canonicalBytes_eq_ok.mpr ⟨canonical_inviteV1, rfl⟩, rfl⟩
  have hencode : token.encode = .ok token.text :=
    InviteToken.encode_eq_ok.mpr ⟨canonical_inviteV1, rfl⟩
  have hverifies : SignsVerifiably secret inviteV1.layout := by
    unfold SignsVerifiably
    decide +kernel
  exact ⟨token, token.text, hsign, hencode,
    invite_codecs.1 secret inviteV1 token _ rfl hverifies hsign hencode⟩

theorem scope_id_dropped :
    ∃ token s token', InviteV2Token.sign inviteV2 secret = .ok token ∧ token.encode = .ok s
      ∧ InviteV2Token.decode s = .ok token'
      ∧ token.invite.issuer.asBytes = Crypto.publicKey secret ∧ token' ≠ token := by
  let token : InviteV2Token := ⟨inviteV2, Crypto.sign secret inviteV2.layout⟩
  have hsign : InviteV2Token.sign inviteV2 secret = .ok token := bind_eq_ok.mpr
    ⟨_, InviteV2.canonicalBytes_eq_ok.mpr ⟨canonical_inviteV2, rfl⟩, rfl⟩
  have hencode : token.encode = .ok token.text :=
    InviteV2Token.encode_eq_ok.mpr ⟨canonical_inviteV2, rfl⟩
  have hverified : token.carried.Verified := by
    unfold InviteV2Token.Verified
    decide +kernel
  have hdecode : InviteV2Token.decode token.text = .ok token.carried :=
    InviteV2Token.decode_eq_ok.mpr ⟨⟨InviteV2.canonical_carried canonical_inviteV2,
      inviteV2.carried_carried⟩, hverified, congrArg
        (fun bytes => TOKEN2_PREFIX ++ base64Encode (bytes ++ token.signature.toBytes))
        inviteV2.layout_carried.symm⟩
  refine ⟨token, token.text, token.carried, hsign, hencode, hdecode, rfl, fun heq => ?_⟩
  have haddrs : [linkLocal.carried] = [linkLocal] :=
    congrArg (fun t : InviteV2Token => t.invite.directAddrs) heq
  revert haddrs
  decide

end SampleInvites

end Dweb
