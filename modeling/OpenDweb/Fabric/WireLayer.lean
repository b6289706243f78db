import OpenDweb.Fabric.InviteTokens

/-!
# OpenDweb — the wire layer of the token decoders

`InviteV2Token::decode` and `RelayCapV1::decode` without what they do besides parsing: no key is
checked, no embedded capability is read, no signature is verified.

* **`InviteV2Token.decode_eq_ok_iff_wire`**, **`RelayCapV1.decode_eq_ok_iff_wire`** — a decoder is
  its wire layer and these checks.
* **`InviteV2Raw.decodeWire_eq_ok`**, **`RelayCapRaw.decodeWire_eq_ok`** — the texts that the wire
  layer accepts.
-/

namespace Dweb

open List

/-! ## Invites -/

/-- An invite of the second version, as its bytes have it. -/
structure InviteV2Raw where
  fabricId : FabricId
  inviteId : BytesN 16
  issuer : BytesN 32
  expiresAtMs : UInt64
  recipient : BytesN 32
  relays : List InviteRelayV2
  directAddrs : List SocketAddr
deriving DecidableEq

namespace InviteV2Raw

def layout (raw : InviteV2Raw) : Bytes :=
  INVITE2_DOMAIN ++ ([INVITE2_VERSION] ++ (raw.fabricId.toBytes ++ (raw.inviteId.toBytes
    ++ (raw.issuer.toBytes ++ (beBytes 8 raw.expiresAtMs.toNat
      ++ (raw.recipient.toBytes ++ ([UInt8.ofNat raw.relays.length]
        ++ (raw.relays.flatMap InviteV2.relayField ++ ([UInt8.ofNat raw.directAddrs.length]
          ++ raw.directAddrs.flatMap SocketAddr.field)))))))))

def text (raw : InviteV2Raw) (signature : BytesN 64) : String :=
  TOKEN2_PREFIX ++ base64Encode (raw.layout ++ signature.toBytes)

/-- `InviteV2.scanCapability`, the capability unread. -/
def scanCapability (i : Nat) : Scan ProtocolError (Option String) := do
  let capLen ← Scan.be 2 (InviteV2.trunc s!"relay {i} capability length prefix")
  Scan.check (MAX_RELAY_CAP_BYTES < capLen) (.quarantine
    s!"relay capability of {capLen} bytes exceeds the {MAX_RELAY_CAP_BYTES} byte limit")
  Scan.need capLen (InviteV2.trunc s!"relay {i} capability bytes")
  if capLen = 0 then return none
  else
    let cap ← Scan.text capLen (InviteV2.trunc s!"relay {i} capability bytes")
      (.quarantine "relay capability is not valid UTF-8")
    return some cap

/-- `InviteV2.scanRelay`. -/
def scanRelay (i : Nat) : Scan ProtocolError InviteRelayV2 := do
  let url ← scanText 2 MAX_RELAY_URL_BYTES (InviteV2.trunc s!"relay {i} url length prefix")
    (fun len => .quarantine
      s!"relay URL of {len} bytes exceeds the {MAX_RELAY_URL_BYTES} byte limit")
    (InviteV2.trunc s!"relay {i} url bytes") (.quarantine "relay URL is not valid UTF-8")
  let capability ← scanCapability i
  return { url, capability }

/-- `InviteV2.scan`, the keys unchecked. -/
def scan (bytes : Bytes) : Scan ProtocolError InviteV2Raw := do
  let short := InviteV2.trunc "shorter than the fixed prefix"
  let domain ← Scan.take 15 short
  Scan.check (domain ≠ INVITE2_DOMAIN) (.quarantine
    s!"bad invite v2 domain {debugBytes bytes} (expected {debugBytes INVITE2_DOMAIN})")
  let version ← Scan.u8 short
  Scan.check (version ≠ INVITE2_VERSION)
    (.quarantine s!"unsupported invite v2 version 0x{hexByte version}")
  let fabricId ← Scan.array 32 short
  let inviteId ← Scan.array 16 short
  let issuer ← Scan.array 32 short
  let expiresAtMs ← Scan.u64 short
  let recipient ← Scan.array 32 short
  let relayCount ← Scan.u8 short
  Scan.check (MAX_RELAYS_V2 < relayCount.toNat)
    (.quarantine s!"{relayCount} relays exceeds the limit of {MAX_RELAYS_V2}")
  let relays ← Scan.times scanRelay 0 relayCount.toNat
  let addrCount ← Scan.u8 (InviteV2.trunc "direct addr count")
  Scan.check (MAX_DIRECT_ADDRS < addrCount.toNat)
    (.quarantine s!"{addrCount} direct addrs exceeds the limit of {MAX_DIRECT_ADDRS}")
  let directAddrs ← Scan.times (SocketAddr.scan InviteV2.trunc) 0 addrCount.toNat
  return { fabricId, inviteId, issuer, expiresAtMs, recipient, relays, directAddrs }

/-- `InviteV2.decodeStrict`. -/
def decodeStrict (bytes : Bytes) : Except ProtocolError InviteV2Raw := do
  if bytes.length < INVITE2_MIN_LEN then
    throw (InviteV2.trunc "shorter than the fixed prefix")
  let (raw, rest) ← (scan bytes).run bytes
  if rest.length ≠ 0 then
    throw (.quarantine (s!"invite v2 length mismatch: expected {bytes.length - rest.length} " ++
      s!"bytes, got {bytes.length}"))
  return raw

/-- The wire layer of `InviteV2Token.decode`. -/
def decodeWire (s : String) : Except ProtocolError (InviteV2Raw × BytesN 64) := do
  let (bytes, signature) ← tokenPayload TOKEN2_PREFIX s
  let raw ← decodeStrict bytes
  return (raw, signature)

structure RelayFits (relay : InviteRelayV2) : Prop where
  url : (utf8Bytes relay.url).length ≤ MAX_RELAY_URL_BYTES
  capability : ∀ cap, relay.capability = some cap →
    0 < (utf8Bytes cap).length ∧ (utf8Bytes cap).length ≤ MAX_RELAY_CAP_BYTES

structure Fits (raw : InviteV2Raw) : Prop where
  relays : raw.relays.length ≤ MAX_RELAYS_V2
  addrs : raw.directAddrs.length ≤ MAX_DIRECT_ADDRS
  relay : ∀ relay ∈ raw.relays, RelayFits relay
  carried : ∀ addr ∈ raw.directAddrs, addr.carried = addr

theorem codes_scanCapability (i : Nat) :
    Scan.Codes (scanCapability i) InviteV2.capabilityField fun capability =>
      ∀ cap, capability = some cap →
        0 < (utf8Bytes cap).length ∧ (utf8Bytes cap).length ≤ MAX_RELAY_CAP_BYTES := by
  intro bs capability rest
  simp only [scanCapability, Scan.run_bind_eq_ok, Scan.codes_be _ _ _ _ _, Scan.run_check_eq_ok,
    Scan.run_need_eq_ok, not_lt]
  constructor
  · rintro ⟨capLen, _, ⟨-, rfl⟩, _, _, ⟨hle, rfl⟩, _, _, ⟨-, rfl⟩, hrun⟩
    by_cases hzero : capLen = 0
    · simp only [hzero, if_true, Scan.run_pure_eq_ok] at hrun
      obtain ⟨rfl, rfl⟩ := hrun
      rw [hzero]
      exact ⟨(by intros; contradiction), rfl⟩
    · simp only [hzero, if_false, Scan.run_bind_eq_ok, Scan.run_text_eq_ok,
        Scan.run_pure_eq_ok] at hrun
      obtain ⟨cap, _, ⟨rfl, rfl⟩, rfl, rfl⟩ := hrun
      refine ⟨fun cap' hsome => ?_, ?_⟩
      · cases hsome
        exact ⟨Nat.pos_of_ne_zero hzero, hle⟩
      · simp only [InviteV2.capabilityField, textField, append_assoc]
  · rintro ⟨hfits, rfl⟩
    cases capability with
    | none =>
      refine ⟨0, rest, ⟨by decide, rfl⟩, (), rest, ⟨Nat.zero_le _, rfl⟩, (), rest,
        ⟨Nat.zero_le _, rfl⟩, ?_⟩
      simp only [if_true, Scan.run_pure_eq_ok, and_self]
    | some cap =>
      obtain ⟨hpos, hle⟩ := hfits cap rfl
      have hlt : (utf8Bytes cap).length < 256 ^ 2 := by
        rw [MAX_RELAY_CAP_BYTES] at hle
        omega
      have hneed : (utf8Bytes cap).length ≤ (utf8Bytes cap ++ rest).length := by
        rw [length_append]
        exact Nat.le_add_right _ _
      refine ⟨_, utf8Bytes cap ++ rest, ⟨hlt, ?_⟩, (), _, ⟨hle, rfl⟩, (), _, ⟨hneed, rfl⟩, ?_⟩
      · simp only [InviteV2.capabilityField, textField, append_assoc]
      · simp only [Nat.pos_iff_ne_zero.mp hpos, if_false, Scan.run_bind_eq_ok,
          Scan.run_text_eq_ok, Scan.run_pure_eq_ok]
        exact ⟨cap, rest, ⟨rfl, rfl⟩, rfl, rfl⟩

theorem codes_scanRelay (i : Nat) :
    Scan.Codes (scanRelay i) InviteV2.relayField RelayFits := by
  have hurl := @codes_scanText 2 MAX_RELAY_URL_BYTES (by decide)
  intro bs relay rest
  simp only [scanRelay, Scan.run_bind_eq_ok, hurl _ _ _ _ _ _ _, codes_scanCapability _ _ _ _,
    Scan.run_pure_eq_ok, InviteV2.relayField]
  constructor
  · rintro ⟨url, _, ⟨hurl, rfl⟩, capability, _, ⟨hcap, rfl⟩, rfl, rfl⟩
    exact ⟨⟨hurl, hcap⟩, by rw [append_assoc]⟩
  · rintro ⟨hfits, rfl⟩
    rw [append_assoc]
    exact ⟨_, _, ⟨hfits.url, rfl⟩, _, _, ⟨hfits.capability, rfl⟩, rfl, rfl⟩

theorem toNat_ofNat_count {n : Nat} (h : n ≤ 8) : (UInt8.ofNat n).toNat = n := by
  rw [UInt8.toNat_ofNat']
  omega

theorem codes_scan (bytes : Bytes) : Scan.Codes (scan bytes) layout Fits := by
  intro bs raw rest
  simp only [scan, Scan.run_bind_eq_ok, Scan.codes_take _ _ _ _ _, Scan.codes_u8 _ _ _ _,
    Scan.codes_array _ _ _ _ _, Scan.codes_u64 _ _ _ _, Scan.run_check_eq_ok,
    Scan.Codes.times codes_scanRelay _ _ _ _ _,
    Scan.Codes.times (SocketAddr.codes_scan _) _ _ _ _ _, Scan.run_pure_eq_ok, true_and, ne_eq,
    not_not, not_lt, id]
  constructor
  · rintro ⟨_, _, ⟨-, rfl⟩, _, _, ⟨rfl, rfl⟩, _, _, rfl, _, _, ⟨rfl, rfl⟩, fabricId, _, rfl,
      inviteId, _, rfl, issuer, _, rfl, expiresAtMs, _, rfl, recipient, _, rfl, relayCount, _, rfl,
      _, _, ⟨hrelays, rfl⟩, relays, _, ⟨⟨hlen, hrelay⟩, rfl⟩, addrCount, _, rfl, _, _,
      ⟨haddrs, rfl⟩, addrs, _, ⟨⟨hlen', haddr⟩, rfl⟩, rfl, rfl⟩
    refine ⟨⟨hlen ▸ hrelays, hlen' ▸ haddrs, hrelay, haddr⟩, ?_⟩
    simp only [layout, hlen, hlen', UInt8.ofNat_toNat, append_assoc]
  · rintro ⟨hfits, rfl⟩
    have hrelays := toNat_ofNat_count hfits.relays
    have haddrs := toNat_ofNat_count (hfits.addrs.trans (by decide))
    simp only [layout, append_assoc]
    exact ⟨INVITE2_DOMAIN, _, ⟨rfl, rfl⟩, (), _, ⟨rfl, rfl⟩, _, _, rfl, (), _, ⟨rfl, rfl⟩, _, _,
      rfl, _, _, rfl, _, _, rfl, _, _, rfl, _, _, rfl, _, _, rfl, (), _,
      ⟨hrelays.trans_le hfits.relays, rfl⟩, _, _, ⟨⟨hrelays.symm, hfits.relay⟩, rfl⟩, _, _, rfl,
      (), _, ⟨haddrs.trans_le hfits.addrs, rfl⟩, _, _, ⟨⟨haddrs.symm, hfits.carried⟩, rfl⟩, rfl,
      rfl⟩

theorem le_length_layout (raw : InviteV2Raw) : INVITE2_MIN_LEN ≤ raw.layout.length := by
  simp only [layout, INVITE2_MIN_LEN, INVITE2_FIXED_LEN, INVITE2_DOMAIN, length_append,
    BytesN.length_toBytes, length_beBytes, length_cons, length_nil]
  omega

theorem decodeStrict_eq_ok {bytes : Bytes} {raw : InviteV2Raw} :
    decodeStrict bytes = .ok raw ↔ raw.Fits ∧ bytes = raw.layout := by
  unfold decodeStrict
  simp only [bind_eq_ok, ite_throw_eq_ok, pure_eq_ok]
  constructor
  · rintro ⟨-, ⟨_, rest⟩, hscan, hlen, rfl⟩
    obtain ⟨hfits, rfl⟩ := (codes_scan _ _ _ _).mp hscan
    obtain rfl := length_eq_zero_iff.mp (not_not.mp hlen)
    exact ⟨hfits, append_nil _⟩
  · rintro ⟨hfits, rfl⟩
    have hscan := (codes_scan raw.layout raw.layout raw []).mpr
      ⟨hfits, (append_nil _).symm⟩
    exact ⟨Nat.not_lt.mpr raw.le_length_layout, _, hscan, fun h => h rfl, rfl⟩

/-- **The texts that the wire layer of the invite decoder accepts.** -/
theorem decodeWire_eq_ok {s : String} {raw : InviteV2Raw} {signature : BytesN 64} :
    decodeWire s = .ok (raw, signature) ↔ raw.Fits ∧ s = raw.text signature := by
  simp only [decodeWire, bind_eq_ok, decodeStrict_eq_ok, pure_eq_ok, Prod.mk.injEq]
  constructor
  · rintro ⟨⟨_, _⟩, hpayload, _, ⟨hfits, rfl⟩, rfl, rfl⟩
    exact ⟨hfits, tokenPayload_eq_ok.mp hpayload⟩
  · rintro ⟨hfits, rfl⟩
    exact ⟨(raw.layout, signature), tokenPayload_eq_ok.mpr rfl, raw, ⟨hfits, rfl⟩, rfl, rfl⟩

end InviteV2Raw

section

variable [Crypto]

def InviteV2.raw (invite : InviteV2) : InviteV2Raw where
  fabricId := invite.fabricId
  inviteId := invite.inviteId
  issuer := invite.issuer.asBytes
  expiresAtMs := invite.expiresAtMs
  recipient := invite.recipient.asBytes
  relays := invite.relays
  directAddrs := invite.directAddrs

theorem InviteV2.Canonical.fits_raw {invite : InviteV2} (h : invite.Canonical)
    (hcarried : invite.Carried) : invite.raw.Fits where
  relays := h.relays
  addrs := h.addrs
  relay relay hmem :=
    { url := (h.relay relay hmem).url
      capability := fun cap hcap => by
        have hfits := (h.relay relay hmem).capability cap hcap
        obtain ⟨parsed, hparsed, -⟩ := hfits.reads
        exact ⟨Nat.pos_of_ne_zero (InviteV2.length_ne_zero_of_decode hparsed), hfits.length⟩ }
  carried := hcarried

/-- Every capability of the invite is one for its recipient that ends before it. -/
def InviteV2.CapabilitiesFit (invite : InviteV2) : Prop :=
  ∀ relay ∈ invite.relays, ∀ cap, relay.capability = some cap →
    InviteV2.CapabilityFits invite.recipient invite.expiresAtMs cap

/-- **The invite decoder is its wire layer**, with keys, capabilities and the signature checked. -/
theorem InviteV2Token.decode_eq_ok_iff_wire {s : String} {token : InviteV2Token} :
    InviteV2Token.decode s = .ok token
      ↔ InviteV2Raw.decodeWire s = .ok (token.invite.raw, token.signature)
        ∧ token.invite.CapabilitiesFit ∧ token.Verified := by
  rw [InviteV2Token.decode_eq_ok, InviteV2Raw.decodeWire_eq_ok]
  constructor
  · rintro ⟨⟨hcanon, hcarried⟩, hverified, htext⟩
    exact ⟨⟨hcanon.fits_raw hcarried, htext⟩,
      fun relay hmem => (hcanon.relay relay hmem).capability, hverified⟩
  · rintro ⟨⟨hfits, htext⟩, hcaps, hverified⟩
    exact ⟨⟨⟨hfits.relays, hfits.addrs, fun relay hmem => ⟨(hfits.relay relay hmem).url,
      hcaps relay hmem⟩⟩, hfits.carried⟩, hverified, htext⟩

end

/-! ## Capabilities -/

structure RelayCapRaw where
  fabricId : FabricId
  serverId : BytesN 32
  issuer : BytesN 32
  recipient : BytesN 32
  caps : UInt8
  issuedAt : UInt64
  expiresAt : UInt64
deriving DecidableEq

namespace RelayCapRaw

def canonicalBytes (raw : RelayCapRaw) : Bytes :=
  [RELAY_CAP_VERSION] ++ (raw.fabricId.toBytes ++ (raw.serverId.toBytes
    ++ (raw.issuer.toBytes ++ (raw.recipient.toBytes ++ ([raw.caps]
      ++ (beBytes 8 raw.issuedAt.toNat ++ beBytes 8 raw.expiresAt.toNat))))))

def token (raw : RelayCapRaw) (signature : BytesN 64) : String :=
  RELAY_CAP_TOKEN_PREFIX ++ base64Encode (raw.canonicalBytes ++ signature.toBytes)

/-- `RelayCapV1.scanWire`, the keys unchecked. -/
def scan : Scan ProtocolError RelayCapRaw := do
  let version ← Scan.u8 RelayCapV1.badToken
  Scan.check (version ≠ RELAY_CAP_VERSION) RelayCapV1.badToken
  let fabricId ← Scan.array 32 RelayCapV1.badToken
  let serverId ← Scan.array 32 RelayCapV1.badToken
  let issuer ← Scan.array 32 RelayCapV1.badToken
  let recipient ← Scan.array 32 RelayCapV1.badToken
  let caps ← Scan.u8 RelayCapV1.badToken
  let issuedAt ← Scan.u64 RelayCapV1.badToken
  let expiresAt ← Scan.u64 RelayCapV1.badToken
  Scan.check (caps &&& ~~~CAP_KNOWN_MASK ≠ 0)
    (.quarantine s!"capability caps 0x{hexByte caps} contains reserved bits")
  return { fabricId, serverId, issuer, recipient, caps, issuedAt, expiresAt }

/-- The wire layer of `RelayCapV1.decode`. -/
def decodeWire (s : String) : Except ProtocolError RelayCapRaw := do
  if RELAY_CAP_MAX_TOKEN_LEN < (utf8Bytes s).length then throw RelayCapV1.badToken
  let payload ← okOr (stripPrefix s RELAY_CAP_TOKEN_PREFIX) RelayCapV1.badToken
  if (utf8Bytes payload).length ≠ RELAY_CAP_ENCODED_LEN
      ∨ ¬(utf8Bytes payload).all isBase64UrlAscii then throw RelayCapV1.badToken
  let wire ← okOr (base64Decode payload) RelayCapV1.badToken
  if wire.length ≠ RELAY_CAP_WIRE_LEN then throw RelayCapV1.badToken
  let (raw, _) ← scan.run wire
  return raw

@[simp] theorem length_canonicalBytes (raw : RelayCapRaw) :
    raw.canonicalBytes.length = RELAY_CAP_CANONICAL_LEN := by
  simp only [canonicalBytes, length_append, BytesN.length_toBytes, length_beBytes,
    length_singleton]
  rfl

theorem codes_scan :
    Scan.Codes scan canonicalBytes fun raw => RelayCapV1.KnownCaps raw.caps := by
  intro bs raw rest
  simp only [scan, Scan.run_bind_eq_ok, Scan.run_check_eq_ok, Scan.codes_u8 _ _ _ _,
    Scan.codes_array _ _ _ _ _, Scan.codes_u64 _ _ _ _, Scan.run_pure_eq_ok, true_and, ne_eq,
    not_not]
  constructor
  · rintro ⟨_, _, rfl, _, _, ⟨rfl, rfl⟩, fabricId, _, rfl, serverId, _, rfl, _, _, rfl, _, _, rfl,
      caps, _, rfl, issuedAt, _, rfl, expiresAt, _, rfl, _, _, ⟨hcaps, rfl⟩, rfl, rfl⟩
    refine ⟨hcaps, ?_⟩
    simp only [canonicalBytes, append_assoc]
  · rintro ⟨hcaps, rfl⟩
    simp only [canonicalBytes, append_assoc]
    exact ⟨_, _, rfl, (), _, ⟨rfl, rfl⟩, _, _, rfl, _, _, rfl, _, _, rfl, _, _, rfl, _, _, rfl, _,
      _, rfl, _, _, rfl, (), _, ⟨hcaps, rfl⟩, rfl, rfl⟩

/-- **The texts that the wire layer of the capability decoder accepts.** -/
theorem decodeWire_eq_ok {s : String} {raw : RelayCapRaw} :
    decodeWire s = .ok raw
      ↔ RelayCapV1.KnownCaps raw.caps ∧ ∃ signature, s = raw.token signature := by
  unfold decodeWire
  simp only [bind_eq_ok, ite_throw_eq_ok, okOr_eq_ok, stripPrefix_eq_some, pure_eq_ok]
  constructor
  · rintro ⟨-, payload, rfl, -, wire, hwire, hlen, ⟨_, rest⟩, hscan, rfl⟩
    obtain ⟨hcaps, rfl⟩ := (codes_scan _ _ _).mp hscan
    have hrest : rest.length = 64 := by
      rw [not_not, length_append, length_canonicalBytes, RELAY_CAP_WIRE_LEN] at hlen
      omega
    refine ⟨hcaps, ⟨rest, hrest⟩, ?_⟩
    rw [token, base64Encode_of_base64Decode hwire]
  · rintro ⟨hcaps, signature, rfl⟩
    have hlen : (raw.canonicalBytes ++ signature.toBytes).length = RELAY_CAP_WIRE_LEN := by
      rw [length_append, length_canonicalBytes, signature.length_toBytes]
      rfl
    have hpayload := RelayCapV1.length_base64Encode_wire hlen
    have hprefix : (utf8Bytes RELAY_CAP_TOKEN_PREFIX).length = 7 := by decide +kernel
    refine ⟨?_, _, rfl, ?_, _, base64Decode_base64Encode _, not_not.mpr hlen, (raw, _),
      (codes_scan _ _ _).mpr ⟨hcaps, rfl⟩, rfl⟩
    · rw [token, utf8Bytes_append, length_append, hpayload, hprefix]
      decide
    · rw [hpayload]
      refine not_or.mpr ⟨fun h => h rfl, not_not.mpr ?_⟩
      rw [utf8Bytes_base64Encode, all_eq_true]
      exact fun b hb => isBase64UrlAscii_of_isBase64 (isBase64_base64Text _ b hb)

end RelayCapRaw

section

variable [Crypto]

def RelayCapV1.raw (cap : RelayCapV1) : RelayCapRaw where
  fabricId := cap.fabricId
  serverId := cap.serverId
  issuer := cap.issuer.asBytes
  recipient := cap.recipient.asBytes
  caps := cap.caps
  issuedAt := cap.issuedAt
  expiresAt := cap.expiresAt

/-- **The capability decoder is its wire layer**: besides, the two keys are keys. -/
theorem RelayCapV1.decode_eq_ok_iff_wire {s : String} {cap : RelayCapV1} :
    RelayCapV1.decode s = .ok cap ↔ RelayCapRaw.decodeWire s = .ok cap.raw := by
  rw [RelayCapV1.decode_eq_ok, RelayCapRaw.decodeWire_eq_ok]
  rfl

end

end Dweb
