import OpenDweb.Fabric.Protocol
import OpenDweb.Lib.Scan

/-!
# OpenDweb — relay capabilities, as the fabric writes and reads them

Embedding of `RelayCapV1` of `dweb-fabric/src/protocol.rs`: a fixed layout of 146 bytes, signed
under a domain that is not sent, and a text of 287 characters.

* **`RelayCapV1.decode_eq_ok`** — the decoder accepts exactly the texts of the layout, with known
  capability bits and valid keys, whatever the signature.
-/

namespace Dweb

open List

/-- `b"dweb/relay-cap/v1\0"`. -/
def RELAY_CAP_DOMAIN : Bytes :=
  [100, 119, 101, 98, 47, 114, 101, 108, 97, 121, 45, 99, 97, 112, 47, 118, 49, 0]

def RELAY_CAP_TOKEN_PREFIX : String := "dwebr1."

def CAP_RELAY : UInt8 := (1 : UInt8) <<< 0
def CAP_RDZ_ANNOUNCE : UInt8 := (1 : UInt8) <<< 1
def CAP_RDZ_RESOLVE : UInt8 := (1 : UInt8) <<< 2
def CAP_KNOWN_MASK : UInt8 := CAP_RELAY ||| CAP_RDZ_ANNOUNCE ||| CAP_RDZ_RESOLVE

def RELAY_CAP_MAX_TTL_MS : UInt64 := 180 * 24 * 60 * 60 * 1000

def RELAY_CAP_CANONICAL_LEN : Nat := 1 + 4 * 32 + 1 + 2 * 8
def RELAY_CAP_WIRE_LEN : Nat := RELAY_CAP_CANONICAL_LEN + 64
def RELAY_CAP_ENCODED_LEN : Nat := 280
def RELAY_CAP_MAX_TOKEN_LEN : Nat := 1024
def RELAY_CAP_VERSION : UInt8 := 0x01

/-- `matches!(b, b'A'..=b'Z' | b'a'..=b'z' | b'0'..=b'9' | b'-' | b'_')`. -/
def isBase64UrlAscii (b : UInt8) : Bool :=
  (65 ≤ b && b ≤ 90) || (97 ≤ b && b ≤ 122) || (48 ≤ b && b ≤ 57) || b == 45 || b == 95

theorem isBase64UrlAscii_of_isBase64 {b : UInt8} (h : IsBase64 b) : isBase64UrlAscii b = true := by
  have hall : ∀ k < 256, (base64Val (UInt8.ofNat k)).isSome →
      isBase64UrlAscii (UInt8.ofNat k) = true := by decide +kernel
  have hb := hall b.toNat b.toNat_lt
  rw [UInt8.ofNat_toNat] at hb
  exact hb h

variable [Crypto]

structure RelayCapV1 where
  fabricId : FabricId
  serverId : BytesN 32
  issuer : EndpointId
  recipient : EndpointId
  caps : UInt8
  issuedAt : UInt64
  expiresAt : UInt64
deriving DecidableEq

namespace RelayCapV1

/-- `canonical_bytes`. -/
def canonicalBytes (cap : RelayCapV1) : Bytes :=
  [RELAY_CAP_VERSION] ++ (cap.fabricId.toBytes ++ (cap.serverId.toBytes
    ++ (cap.issuer.asBytes.toBytes ++ (cap.recipient.asBytes.toBytes ++ ([cap.caps]
      ++ (beBytes 8 cap.issuedAt.toNat ++ beBytes 8 cap.expiresAt.toNat))))))

def signedBytes (cap : RelayCapV1) : Bytes := RELAY_CAP_DOMAIN ++ cap.canonicalBytes

def token (cap : RelayCapV1) (signature : Signature) : String :=
  RELAY_CAP_TOKEN_PREFIX ++ base64Encode (cap.canonicalBytes ++ signature.toBytes)

/-- `sign_and_encode`. -/
def signAndEncode (secret : Crypto.SecretKey) (fabricId : FabricId) (serverId : BytesN 32)
    (recipient : EndpointId) (caps : UInt8) (issuedAt expiresAt : UInt64) :
    Except ProtocolError String :=
  if caps &&& ~~~CAP_KNOWN_MASK ≠ 0 then
    .error (.encoding (s!"caps 0x{hexByte caps} contains reserved bits " ++
      s!"(known mask 0x{hexByte CAP_KNOWN_MASK})"))
  else if expiresAt < issuedAt then
    .error (.encoding "issued_at must not exceed expires_at")
  else if RELAY_CAP_MAX_TTL_MS < expiresAt - issuedAt then
    .error (.encoding
      s!"capability TTL over the {RELAY_CAP_MAX_TTL_MS}ms ceiling (design §11.1)")
  else
    let cap : RelayCapV1 :=
      { fabricId
        serverId
        issuer := ⟨Crypto.publicKey secret, Crypto.isPublicKey_publicKey secret⟩
        recipient
        caps
        issuedAt
        expiresAt }
    .ok (cap.token (Crypto.sign secret cap.signedBytes))

/-- What `decode` says of a text that is not of the layout. -/
def badToken : ProtocolError := .quarantine "not a well-formed dwebr1. capability token"

/-- The 210 bytes of `decode`. The bits are checked before the keys, and the signature is not
looked at; the length has been checked, so that nothing is short here. -/
def scanWire : Scan ProtocolError RelayCapV1 := do
  let version ← Scan.u8 badToken
  Scan.check (version ≠ RELAY_CAP_VERSION) badToken
  let fabricId ← Scan.array 32 badToken
  let serverId ← Scan.array 32 badToken
  let issuer ← Scan.array 32 badToken
  let recipient ← Scan.array 32 badToken
  let caps ← Scan.u8 badToken
  let issuedAt ← Scan.u64 badToken
  let expiresAt ← Scan.u64 badToken
  Scan.check (caps &&& ~~~CAP_KNOWN_MASK ≠ 0)
    (.quarantine s!"capability caps 0x{hexByte caps} contains reserved bits")
  let issuer ← Scan.ofExcept (keyFromBytes issuer)
  let recipient ← Scan.ofExcept (keyFromBytes recipient)
  return { fabricId, serverId, issuer, recipient, caps, issuedAt, expiresAt }

/-- `decode`. -/
def decode (s : String) : Except ProtocolError RelayCapV1 := do
  if RELAY_CAP_MAX_TOKEN_LEN < (utf8Bytes s).length then throw badToken
  let payload ← okOr (stripPrefix s RELAY_CAP_TOKEN_PREFIX) badToken
  if (utf8Bytes payload).length ≠ RELAY_CAP_ENCODED_LEN
      ∨ ¬(utf8Bytes payload).all isBase64UrlAscii then throw badToken
  let wire ← okOr (base64Decode payload) badToken
  if wire.length ≠ RELAY_CAP_WIRE_LEN then throw badToken
  let (cap, _) ← scanWire.run wire
  return cap

/-! ## What is accepted -/

/-- The bits of `caps` are known. -/
def KnownCaps (caps : UInt8) : Prop := caps &&& ~~~CAP_KNOWN_MASK = 0

instance (caps : UInt8) : Decidable (KnownCaps caps) := by
  unfold KnownCaps
  infer_instance

@[simp] theorem length_canonicalBytes (cap : RelayCapV1) :
    cap.canonicalBytes.length = RELAY_CAP_CANONICAL_LEN := by
  simp only [canonicalBytes, length_append, BytesN.length_toBytes, length_beBytes,
    length_singleton]
  rfl

end RelayCapV1

theorem keyFromBytes_eq_ok {bytes : BytesN 32} {key : EndpointId} :
    keyFromBytes bytes = .ok key ↔ key.asBytes = bytes := by
  rw [keyFromBytes, okOr_eq_ok]
  constructor
  · exact EndpointId.fromBytes_eq_some
  · rintro rfl
    exact EndpointId.fromBytes_asBytes key

namespace RelayCapV1

theorem codes_scanWire : Scan.Codes scanWire canonicalBytes fun cap => KnownCaps cap.caps := by
  intro bs cap rest
  simp only [scanWire, Scan.run_bind_eq_ok, Scan.run_check_eq_ok, Scan.codes_u8 _ _ _ _,
    Scan.codes_array _ _ _ _ _, Scan.codes_u64 _ _ _ _, Scan.run_ofExcept_eq_ok,
    Scan.run_pure_eq_ok, keyFromBytes_eq_ok, true_and, ne_eq, not_not]
  constructor
  · rintro ⟨_, _, rfl, _, _, ⟨rfl, rfl⟩, fabricId, _, rfl, serverId, _, rfl, _, _, rfl, _, _, rfl,
      caps, _, rfl, issuedAt, _, rfl, expiresAt, _, rfl, _, _, ⟨hcaps, rfl⟩, issuer, _, ⟨rfl, rfl⟩,
      recipient, _, ⟨rfl, rfl⟩, rfl, rfl⟩
    refine ⟨hcaps, ?_⟩
    simp only [canonicalBytes, append_assoc]
  · rintro ⟨hcaps, rfl⟩
    simp only [canonicalBytes, append_assoc]
    exact ⟨_, _, rfl, (), _, ⟨rfl, rfl⟩, _, _, rfl, _, _, rfl, _, _, rfl, _, _, rfl, _, _, rfl, _,
      _, rfl, _, _, rfl, (), _, ⟨hcaps, rfl⟩, _, _, ⟨rfl, rfl⟩, _, _, ⟨rfl, rfl⟩, rfl, rfl⟩

omit [Crypto] in
theorem length_base64Encode_wire {wire : Bytes} (h : wire.length = RELAY_CAP_WIRE_LEN) :
    (utf8Bytes (base64Encode wire)).length = RELAY_CAP_ENCODED_LEN := by
  rw [utf8Bytes_base64Encode, length_base64Text, h]
  decide

/-- **The texts that `decode` accepts.** -/
theorem decode_eq_ok {s : String} {cap : RelayCapV1} :
    decode s = .ok cap ↔ KnownCaps cap.caps ∧ ∃ signature, s = cap.token signature := by
  unfold decode
  simp only [bind_eq_ok, ite_throw_eq_ok, okOr_eq_ok, stripPrefix_eq_some, pure_eq_ok]
  constructor
  · rintro ⟨-, payload, rfl, -, wire, hwire, hlen, ⟨_, rest⟩, hscan, rfl⟩
    obtain ⟨hcaps, rfl⟩ := (codes_scanWire _ _ _).mp hscan
    have hrest : rest.length = 64 := by
      rw [not_not, length_append, length_canonicalBytes, RELAY_CAP_WIRE_LEN] at hlen
      omega
    refine ⟨hcaps, ⟨rest, hrest⟩, ?_⟩
    rw [token, base64Encode_of_base64Decode hwire]
  · rintro ⟨hcaps, signature, rfl⟩
    have hlen : (cap.canonicalBytes ++ signature.toBytes).length = RELAY_CAP_WIRE_LEN := by
      rw [length_append, length_canonicalBytes, signature.length_toBytes]
      rfl
    have hpayload := length_base64Encode_wire hlen
    have hprefix : (utf8Bytes RELAY_CAP_TOKEN_PREFIX).length = 7 := by decide +kernel
    refine ⟨?_, _, rfl, ?_, _, base64Decode_base64Encode _, not_not.mpr hlen, (cap, _),
      (codes_scanWire _ _ _).mpr ⟨hcaps, rfl⟩, rfl⟩
    · rw [token, utf8Bytes_append, length_append, hpayload, hprefix]
      decide
    · rw [hpayload]
      refine not_or.mpr ⟨fun h => h rfl, not_not.mpr ?_⟩
      rw [utf8Bytes_base64Encode, all_eq_true]
      exact fun b hb => isBase64UrlAscii_of_isBase64 (isBase64_base64Text _ b hb)

theorem signAndEncode_eq_ok {secret : Crypto.SecretKey} {fabricId : FabricId}
    {serverId : BytesN 32} {recipient : EndpointId} {caps : UInt8} {issuedAt expiresAt : UInt64}
    {s : String}
    (h : signAndEncode secret fabricId serverId recipient caps issuedAt expiresAt = .ok s) :
    KnownCaps caps ∧ issuedAt ≤ expiresAt ∧ expiresAt - issuedAt ≤ RELAY_CAP_MAX_TTL_MS
      ∧ ∃ cap : RelayCapV1, cap = ⟨fabricId, serverId,
          ⟨Crypto.publicKey secret, Crypto.isPublicKey_publicKey secret⟩, recipient, caps,
          issuedAt, expiresAt⟩
        ∧ s = cap.token (Crypto.sign secret cap.signedBytes) := by
  unfold signAndEncode at h
  split at h
  · cases h
  · next hcaps =>
    split at h
    · cases h
    · next hissued =>
      split at h
      · cases h
      · next httl =>
        cases h
        exact ⟨not_not.mp hcaps, le_of_not_gt hissued, le_of_not_gt httl, _, rfl, rfl⟩

end RelayCapV1

end Dweb
