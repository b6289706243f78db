import OpenDweb.Lib.Scan

/-!
# OpenDweb — relay capabilities, as the server reads and verifies them

Embedding of `dweb-server/src/access/cap.rs`: the decoder of `dwebr1.` texts and the checks of
`verify_l1`. Ids are bytes here, and a key is looked at only when its signature is verified.

* **`Cap.decode_eq_ok`** — the decoder accepts exactly the texts of the layout.
* **`Cap.verifyL1_eq_ok`** — what the checks of `verify_l1` come to.
-/

namespace Dweb

open List

/-- `ed25519_dalek`, as the server uses it. -/
class ServerCrypto where
  /-- `VerifyingKey::from_bytes` accepts. -/
  isVerifyingKey : BytesN 32 → Bool
  /-- `VerifyingKey::verify` accepts. -/
  verifies : BytesN 32 → Bytes → BytesN 64 → Bool

/-- `u64::abs_diff`. -/
def absDiff (a b : UInt64) : UInt64 := if a < b then b - a else a - b

namespace Cap

def TOKEN_PREFIX : String := "dwebr1."

/-- `b"dweb/relay-cap/v1\0"`. -/
def DOMAIN : Bytes :=
  [100, 119, 101, 98, 47, 114, 101, 108, 97, 121, 45, 99, 97, 112, 47, 118, 49, 0]

def CAP_RELAY : UInt8 := (1 : UInt8) <<< 0
def CAP_RDZ_ANNOUNCE : UInt8 := (1 : UInt8) <<< 1
def CAP_RDZ_RESOLVE : UInt8 := (1 : UInt8) <<< 2
def CAP_KNOWN_MASK : UInt8 := CAP_RELAY ||| CAP_RDZ_ANNOUNCE ||| CAP_RDZ_RESOLVE

def VERSION : UInt8 := 0x01
def KEY_LEN : Nat := 32
def SIG_LEN : Nat := 64
def CANONICAL_LEN : Nat := 1 + 4 * KEY_LEN + 1 + 2 * 8
def WIRE_LEN : Nat := CANONICAL_LEN + SIG_LEN
def ENCODED_LEN : Nat := 280
def MAX_TOKEN_LEN : Nat := 1024
def CLOCK_SKEW_MS : UInt64 := 120000
def MAX_TTL_MS : UInt64 := 180 * 24 * 60 * 60 * 1000

end Cap

inductive CapDeny where
  | noCapability
  | malformedCapability
  | capsUnsupported
  | badSignature
  | wrongServer
  | capabilityExpired
  | notRecipient
  deriving DecidableEq

/-- `CapDeny::reason`. -/
def CapDeny.reason : CapDeny → String
  | noCapability => "dweb/no-capability"
  | malformedCapability => "dweb/malformed-capability"
  | capsUnsupported => "dweb/caps-unsupported"
  | badSignature => "dweb/bad-signature"
  | wrongServer => "dweb/wrong-server"
  | capabilityExpired => "dweb/capability-expired"
  | notRecipient => "dweb/not-recipient"

structure RelayCap where
  fabricId : BytesN 32
  serverId : BytesN 32
  issuer : BytesN 32
  recipient : BytesN 32
  caps : UInt8
  issuedAt : UInt64
  expiresAt : UInt64
  signature : BytesN 64
  deriving DecidableEq

namespace RelayCap

/-- `canonical_bytes`. -/
def canonicalBytes (cap : RelayCap) : Bytes :=
  [Cap.VERSION] ++ (cap.fabricId.toBytes ++ (cap.serverId.toBytes ++ (cap.issuer.toBytes
    ++ (cap.recipient.toBytes ++ ([cap.caps] ++ (beBytes 8 cap.issuedAt.toNat
      ++ beBytes 8 cap.expiresAt.toNat))))))

/-- `has_cap`. -/
def hasCap (cap : RelayCap) (bit : UInt8) : Bool := cap.caps &&& bit = bit

def token (cap : RelayCap) : String :=
  Cap.TOKEN_PREFIX ++ base64Encode (cap.canonicalBytes ++ cap.signature.toBytes)

end RelayCap

namespace Cap

/-- `is_base64url_ascii`. -/
def isBase64urlAscii (b : UInt8) : Bool :=
  (65 ≤ b && b ≤ 90) || (97 ≤ b && b ≤ 122) || (48 ≤ b && b ≤ 57) || b == 45 || b == 95

/-- The `split_at`s of `decode`. The length has been checked, so that nothing is short here. -/
def scanWire : Scan CapDeny RelayCap := do
  let version ← Scan.u8 .malformedCapability
  Scan.check (version ≠ VERSION) .malformedCapability
  let fabricId ← Scan.array KEY_LEN .malformedCapability
  let serverId ← Scan.array KEY_LEN .malformedCapability
  let issuer ← Scan.array KEY_LEN .malformedCapability
  let recipient ← Scan.array KEY_LEN .malformedCapability
  let caps ← Scan.u8 .malformedCapability
  let issuedAt ← Scan.u64 .malformedCapability
  let expiresAt ← Scan.u64 .malformedCapability
  let signature ← Scan.array SIG_LEN .malformedCapability
  return { fabricId, serverId, issuer, recipient, caps, issuedAt, expiresAt, signature }

/-- `decode`. -/
def decode (token : String) : Except CapDeny RelayCap := do
  if MAX_TOKEN_LEN < (utf8Bytes token).length then throw .malformedCapability
  let payload ← okOr (stripPrefix token TOKEN_PREFIX) .malformedCapability
  if (utf8Bytes payload).length ≠ ENCODED_LEN ∨ ¬(utf8Bytes payload).all isBase64urlAscii then
    throw .malformedCapability
  let wire ← okOr (base64Decode payload) .malformedCapability
  if wire.length ≠ WIRE_LEN then throw .malformedCapability
  let (cap, _) ← scanWire.run wire
  return cap

/-- `verify_l1`. -/
def verifyL1 [ServerCrypto] (cap : RelayCap) (expectedServerId authenticatedEndpointId : BytesN 32)
    (nowMs : UInt64) : Except CapDeny Unit :=
  if cap.caps &&& ~~~CAP_KNOWN_MASK ≠ 0 then .error .capsUnsupported
  else if ¬ServerCrypto.isVerifyingKey cap.issuer then .error .badSignature
  else if ¬ServerCrypto.verifies cap.issuer (DOMAIN ++ cap.canonicalBytes) cap.signature then
    .error .badSignature
  else if cap.serverId ≠ expectedServerId then .error .wrongServer
  else if nowMs ≥ cap.expiresAt then .error .capabilityExpired
  else if cap.issuedAt > saturatingAdd nowMs CLOCK_SKEW_MS then .error .capabilityExpired
  else if cap.issuedAt > cap.expiresAt then .error .capabilityExpired
  else if cap.expiresAt - cap.issuedAt > MAX_TTL_MS then .error .capabilityExpired
  else if cap.recipient ≠ authenticatedEndpointId then .error .notRecipient
  else .ok ()

/-! ## What is accepted -/

theorem codes_scanWire :
    Scan.Codes scanWire (fun cap => cap.canonicalBytes ++ cap.signature.toBytes) fun _ => True := by
  intro bs cap rest
  simp only [scanWire, Scan.run_bind_eq_ok, Scan.run_check_eq_ok, Scan.codes_u8 _ _ _ _,
    Scan.codes_array _ _ _ _ _, Scan.codes_u64 _ _ _ _, Scan.run_pure_eq_ok, true_and, ne_eq,
    not_not, RelayCap.canonicalBytes, append_assoc]
  constructor
  · rintro ⟨_, _, rfl, _, _, ⟨rfl, rfl⟩, fabricId, _, rfl, serverId, _, rfl, issuer, _, rfl,
      recipient, _, rfl, caps, _, rfl, issuedAt, _, rfl, expiresAt, _, rfl, signature, _, rfl, rfl,
      rfl⟩
    rfl
  · rintro rfl
    exact ⟨_, _, rfl, (), _, ⟨rfl, rfl⟩, _, _, rfl, _, _, rfl, _, _, rfl, _, _, rfl, _, _, rfl, _,
      _, rfl, _, _, rfl, _, _, rfl, rfl, rfl⟩

theorem isBase64urlAscii_of_isBase64 {b : UInt8} (h : IsBase64 b) : isBase64urlAscii b = true := by
  have hall : ∀ k < 256, (base64Val (UInt8.ofNat k)).isSome →
      isBase64urlAscii (UInt8.ofNat k) = true := by decide +kernel
  have hb := hall b.toNat b.toNat_lt
  rw [UInt8.ofNat_toNat] at hb
  exact hb h

theorem length_wire (cap : RelayCap) :
    (cap.canonicalBytes ++ cap.signature.toBytes).length = WIRE_LEN := by
  simp only [RelayCap.canonicalBytes, length_append, BytesN.length_toBytes, length_beBytes,
    length_singleton]
  rfl

/-- **The texts that `decode` accepts.** -/
theorem decode_eq_ok {token : String} {cap : RelayCap} :
    decode token = .ok cap ↔ token = cap.token := by
  unfold decode
  simp only [bind_eq_ok, ite_throw_eq_ok, okOr_eq_ok, stripPrefix_eq_some, pure_eq_ok]
  constructor
  · rintro ⟨-, payload, rfl, -, wire, hwire, hlen, ⟨_, rest⟩, hscan, rfl⟩
    obtain ⟨-, rfl⟩ := (codes_scanWire _ _ _).mp hscan
    -- the length leaves nothing after the signature
    rw [not_not, length_append, length_wire, Nat.add_eq_left] at hlen
    rw [length_eq_zero_iff.mp hlen, append_nil] at hwire
    rw [RelayCap.token, base64Encode_of_base64Decode hwire]
  · rintro rfl
    have hlen := length_wire cap
    have hpayload : (utf8Bytes (base64Encode (cap.canonicalBytes
        ++ cap.signature.toBytes))).length = ENCODED_LEN := by
      rw [utf8Bytes_base64Encode, length_base64Text, hlen]
      decide
    have hprefix : (utf8Bytes TOKEN_PREFIX).length = 7 := by decide +kernel
    refine ⟨?_, _, rfl, ?_, _, base64Decode_base64Encode _, not_not.mpr hlen, (cap, []),
      (codes_scanWire _ _ _).mpr ⟨trivial, (append_nil _).symm⟩, rfl⟩
    · rw [RelayCap.token, utf8Bytes_append, length_append, hpayload, hprefix]
      decide
    · rw [hpayload]
      refine not_or.mpr ⟨fun h => h rfl, not_not.mpr ?_⟩
      rw [utf8Bytes_base64Encode, all_eq_true]
      exact fun b hb => isBase64urlAscii_of_isBase64 (isBase64_base64Text _ b hb)

/-- What `verify_l1` accepts: signed by the issuer, for this server and endpoint, at this time. -/
structure ValidAt [ServerCrypto] (cap : RelayCap) (serverId endpointId : BytesN 32)
    (nowMs : UInt64) : Prop where
  caps : cap.caps &&& ~~~CAP_KNOWN_MASK = 0
  issuer : ServerCrypto.isVerifyingKey cap.issuer = true
  signature : ServerCrypto.verifies cap.issuer (DOMAIN ++ cap.canonicalBytes) cap.signature = true
  server : cap.serverId = serverId
  notExpired : nowMs < cap.expiresAt
  notAhead : cap.issuedAt.toNat ≤ nowMs.toNat + CLOCK_SKEW_MS.toNat
  ordered : cap.issuedAt ≤ cap.expiresAt
  ttl : cap.expiresAt - cap.issuedAt ≤ MAX_TTL_MS
  recipient : cap.recipient = endpointId

theorem verifyL1_eq_ok [ServerCrypto] {cap : RelayCap} {serverId endpointId : BytesN 32}
    {nowMs : UInt64} :
    verifyL1 cap serverId endpointId nowMs = .ok () ↔ ValidAt cap serverId endpointId nowMs := by
  have hahead := @le_saturatingAdd nowMs CLOCK_SKEW_MS cap.issuedAt
  constructor
  · intro h
    unfold verifyL1 at h
    split_ifs at h with hcaps hissuer hsignature hserver hexpired hskew hordered httl hrecipient
    exact ⟨not_not.mp hcaps, hissuer, hsignature, not_not.mp hserver,
      not_le.mp hexpired, hahead.mp (not_lt.mp hskew), not_lt.mp hordered, not_lt.mp httl,
      not_not.mp hrecipient⟩
  · intro h
    unfold verifyL1
    rw [if_neg (not_not.mpr h.caps), if_neg (not_not.mpr h.issuer),
      if_neg (not_not.mpr h.signature), if_neg (not_not.mpr h.server), if_neg h.notExpired.not_ge,
      if_neg (hahead.mpr h.notAhead).not_gt, if_neg h.ordered.not_gt, if_neg h.ttl.not_gt,
      if_neg (not_not.mpr h.recipient)]

end Cap

end Dweb
