import OpenDweb.Fabric.RelayCap

/-!
# OpenDweb — invites

Embedding of the invite part of `dweb-fabric/src/protocol.rs`: the canonical layouts of `InviteV1`
and `InviteV2`, their strict parsers, and the token texts `dweb1.…` and `dweb2.…`.

* **`InviteV1.canonicalBytes_eq_ok`**, **`InviteV1.decodeStrict_eq_ok`** — encoder and decoder
  accept the same invites, in one layout.
* **`InviteV2.canonicalBytes_eq_ok`**, **`InviteV2.decodeStrict_eq_ok`** — so do those of the
  second version, except that the layout has no place for the flow and scope of an IPv6 address.
-/

namespace Dweb

open List

/-! ## Layout constants -/

/-- `b"dweb/invite/v1\0"`. -/
def INVITE_DOMAIN : Bytes := [100, 119, 101, 98, 47, 105, 110, 118, 105, 116, 101, 47, 118, 49, 0]

/-- `b"dweb/invite/v2\0"`. -/
def INVITE2_DOMAIN : Bytes := [100, 119, 101, 98, 47, 105, 110, 118, 105, 116, 101, 47, 118, 50, 0]

def INVITE_VERSION : UInt8 := 0x01
def INVITE2_VERSION : UInt8 := 0x02
def TOKEN_PREFIX : String := "dweb1."
def TOKEN2_PREFIX : String := "dweb2."
def MAX_RELAYS_V2 : Nat := 8
def MAX_RELAY_CAP_BYTES : Nat := 512
def MAX_RELAY_URL_BYTES : Nat := 2048
def MAX_DIRECT_ADDRS : Nat := 4
def MAX_DIRECT_ADDR_BYTES : Nat := 64
def INVITE_FIXED_LEN : Nat := 15 + 1 + 32 + 16 + 32
def INVITE_MIN_LEN : Nat := INVITE_FIXED_LEN + 2 + 1 + 8 + 1 + 1
def INVITE2_FIXED_LEN : Nat := 15 + 1 + 32 + 16 + 32 + 8 + 32
def INVITE2_MIN_LEN : Nat := INVITE2_FIXED_LEN + 1 + 1
def ADDR_FAMILY_V4 : UInt8 := 4
def ADDR_FAMILY_V6 : UInt8 := 6

/-- `ProtocolError`, with the variant that only the invite decoders raise. -/
inductive InviteError where
  | protocol (e : ProtocolError)
  | unsupportedInviteVersion (message : String)
deriving DecidableEq

/-! ## Length-prefixed texts -/

/-- A text behind its length in `w` bytes; the length is checked before the bytes are. -/
def scanText (w max : Nat) (noLength : ProtocolError) (tooLong : Nat → ProtocolError)
    (short invalid : ProtocolError) : Scan ProtocolError String := do
  let len ← Scan.be w noLength
  Scan.check (max < len) (tooLong len)
  Scan.text len short invalid

def textField (w : Nat) (s : String) : Bytes := beBytes w (utf8Bytes s).length ++ utf8Bytes s

theorem codes_scanText {w max : Nat} (hmax : max < 256 ^ w) (noLength : ProtocolError)
    (tooLong : Nat → ProtocolError) (short invalid : ProtocolError) :
    Scan.Codes (scanText w max noLength tooLong short invalid) (textField w)
      fun s => (utf8Bytes s).length ≤ max := by
  intro bs s rest
  simp only [scanText, Scan.run_bind_eq_ok, Scan.codes_be _ _ _ _ _, Scan.run_check_eq_ok,
    Scan.run_text_eq_ok, not_lt, textField, append_assoc]
  constructor
  · rintro ⟨_, _, ⟨-, rfl⟩, _, _, ⟨hle, rfl⟩, rfl, rfl⟩
    exact ⟨hle, rfl⟩
  · rintro ⟨hle, rfl⟩
    exact ⟨_, _, ⟨hle.trans_lt hmax, rfl⟩, (), _, ⟨hle, rfl⟩, rfl, rfl⟩

/-! ## Addresses -/

/-- `std::net::SocketAddr`. -/
inductive SocketAddr where
  | v4 (ip : BytesN 4) (port : UInt16)
  | v6 (ip : BytesN 16) (port : UInt16) (flowinfo scopeId : UInt32)
deriving DecidableEq

namespace SocketAddr

def field : SocketAddr → Bytes
  | v4 ip port => [ADDR_FAMILY_V4] ++ (ip.toBytes ++ beBytes 2 port.toNat)
  | v6 ip port _ _ => [ADDR_FAMILY_V6] ++ (ip.toBytes ++ beBytes 2 port.toNat)

def carried : SocketAddr → SocketAddr
  | v4 ip port => v4 ip port
  | v6 ip port _ _ => v6 ip port 0 0

@[simp] theorem field_carried (addr : SocketAddr) : addr.carried.field = addr.field := by
  cases addr <;> rfl

@[simp] theorem carried_carried (addr : SocketAddr) : addr.carried.carried = addr.carried := by
  cases addr <;> rfl

/-- `u16::from_be_bytes` on the next two bytes. -/
def scanPort (short : ProtocolError) : Scan ProtocolError UInt16 := do
  let n ← Scan.be 2 short
  return UInt16.ofNat n

/-- The `i`-th address of `InviteV2::decode_strict`. -/
def scan (trunc : String → ProtocolError) (i : Nat) : Scan ProtocolError SocketAddr := do
  let family ← Scan.u8 (trunc s!"direct addr {i} family tag")
  if family = ADDR_FAMILY_V4 then
    let short := trunc s!"direct addr {i} v4 bytes"
    Scan.need (4 + 2) short
    let ip ← Scan.array 4 short
    let port ← scanPort short
    return v4 ip port
  else if family = ADDR_FAMILY_V6 then
    let short := trunc s!"direct addr {i} v6 bytes"
    Scan.need (16 + 2) short
    let ip ← Scan.array 16 short
    let port ← scanPort short
    return v6 ip port 0 0
  else
    Scan.ofExcept (.error (.quarantine
      s!"direct addr {i} has unknown family tag 0x{hexByte family}"))

theorem codes_scanPort (short : ProtocolError) :
    Scan.Codes (scanPort short) (fun port => beBytes 2 port.toNat) fun _ => True := by
  intro bs port rest
  simp only [scanPort, Scan.run_bind_eq_ok, Scan.codes_be _ _ _ _ _, Scan.run_pure_eq_ok, true_and]
  constructor
  · rintro ⟨n, _, ⟨hlt, rfl⟩, rfl, rfl⟩
    rw [UInt16.toNat_ofNat_of_lt' hlt]
  · rintro rfl
    exact ⟨port.toNat, _, ⟨port.toNat_lt, rfl⟩, UInt16.ofNat_toNat, rfl⟩

theorem codes_scan (trunc : String → ProtocolError) (i : Nat) :
    Scan.Codes (scan trunc i) field fun addr => addr.carried = addr := by
  intro bs addr rest
  have hv6 : ADDR_FAMILY_V6 ≠ ADDR_FAMILY_V4 := by decide
  simp only [scan, Scan.run_bind_eq_ok, Scan.codes_u8 _ _ _ _, true_and]
  constructor
  · rintro ⟨family, _, rfl, hrun⟩
    by_cases h4 : family = ADDR_FAMILY_V4
    · simp only [h4, if_true, Scan.run_bind_eq_ok, Scan.run_need_eq_ok, Scan.codes_array _ _ _ _ _,
        codes_scanPort _ _ _ _, Scan.run_pure_eq_ok, true_and] at hrun
      obtain ⟨_, _, ⟨-, rfl⟩, ip, _, rfl, port, _, rfl, rfl, rfl⟩ := hrun
      rw [h4]
      exact ⟨rfl, by simp only [field, append_assoc]⟩
    · by_cases h6 : family = ADDR_FAMILY_V6
      · simp only [h6, hv6, if_true, if_false, Scan.run_bind_eq_ok, Scan.run_need_eq_ok,
          Scan.codes_array _ _ _ _ _, codes_scanPort _ _ _ _, Scan.run_pure_eq_ok, true_and] at hrun
        obtain ⟨_, _, ⟨-, rfl⟩, ip, _, rfl, port, _, rfl, rfl, rfl⟩ := hrun
        rw [h6]
        exact ⟨rfl, by simp only [field, append_assoc]⟩
      · simp only [h4, h6, if_false, Scan.run_ofExcept_eq_ok, reduceCtorEq, false_and] at hrun
  · rintro ⟨hcarried, rfl⟩
    cases addr with
    | v4 ip port =>
      refine ⟨ADDR_FAMILY_V4, ip.toBytes ++ (beBytes 2 port.toNat ++ rest), ?_, ?_⟩
      · simp only [field, append_assoc]
      · simp only [if_true, Scan.run_bind_eq_ok, Scan.run_need_eq_ok, Scan.codes_array _ _ _ _ _,
          codes_scanPort _ _ _ _, Scan.run_pure_eq_ok, true_and]
        refine ⟨(), _, ⟨?_, rfl⟩, ip, _, rfl, port, rest, rfl, rfl, rfl⟩
        simp only [length_append, BytesN.length_toBytes, length_beBytes]
        omega
    | v6 ip port flowinfo scopeId =>
      obtain ⟨rfl, rfl⟩ : 0 = flowinfo ∧ 0 = scopeId := by
        simpa only [carried, v6.injEq, true_and] using hcarried
      refine ⟨ADDR_FAMILY_V6, ip.toBytes ++ (beBytes 2 port.toNat ++ rest), ?_, ?_⟩
      · simp only [field, append_assoc]
      · simp only [hv6, if_true, if_false, Scan.run_bind_eq_ok, Scan.run_need_eq_ok,
          Scan.codes_array _ _ _ _ _, codes_scanPort _ _ _ _, Scan.run_pure_eq_ok, true_and]
        refine ⟨(), _, ⟨?_, rfl⟩, ip, _, rfl, port, rest, rfl, rfl, rfl⟩
        simp only [length_append, BytesN.length_toBytes, length_beBytes]
        omega

end SocketAddr

variable [Crypto]

/-- `key_from_bytes` on the next 32 bytes. -/
def scanKey (short : ProtocolError) : Scan ProtocolError EndpointId := do
  let bytes ← Scan.array 32 short
  Scan.ofExcept (keyFromBytes bytes)

theorem codes_scanKey (short : ProtocolError) :
    Scan.Codes (scanKey short) (fun key => key.asBytes.toBytes) fun _ => True := by
  intro bs key rest
  simp only [scanKey, Scan.run_bind_eq_ok, Scan.codes_array _ _ _ _ _, Scan.run_ofExcept_eq_ok,
    keyFromBytes_eq_ok, true_and]
  constructor
  · rintro ⟨_, _, rfl, rfl, rfl⟩
    rfl
  · rintro rfl
    exact ⟨_, _, rfl, rfl, rfl⟩

/-! ## The first version -/

structure InviteV1 where
  fabricId : FabricId
  inviteId : BytesN 16
  issuer : EndpointId
  issuerRelayUrl : String
  issuerDirectAddrs : List String
  expiresAtMs : UInt64
  recipient : Option EndpointId
deriving DecidableEq

namespace InviteV1

/-- The flags byte, and the recipient if there is one. -/
def recipientField (recipient : Option EndpointId) : Bytes :=
  match recipient with
  | none => [0]
  | some recipient => [1] ++ recipient.asBytes.toBytes

/-- The buffer `canonical_bytes` fills once the limits have been checked. -/
def layout (invite : InviteV1) : Bytes :=
  INVITE_DOMAIN ++ ([INVITE_VERSION] ++ (invite.fabricId.toBytes ++ (invite.inviteId.toBytes
    ++ (invite.issuer.asBytes.toBytes ++ (textField 2 invite.issuerRelayUrl
      ++ ([UInt8.ofNat invite.issuerDirectAddrs.length]
        ++ (invite.issuerDirectAddrs.flatMap (textField 1)
          ++ (beBytes 8 invite.expiresAtMs.toNat ++ (recipientField invite.recipient
            ++ [1])))))))))

/-- `canonical_bytes`. -/
def canonicalBytes (invite : InviteV1) : Except ProtocolError Bytes :=
  if MAX_RELAY_URL_BYTES < (utf8Bytes invite.issuerRelayUrl).length then
    .error (.encoding (s!"relay URL of {(utf8Bytes invite.issuerRelayUrl).length} bytes " ++
      s!"exceeds the {MAX_RELAY_URL_BYTES} byte limit"))
  else if MAX_DIRECT_ADDRS < invite.issuerDirectAddrs.length then
    .error (.encoding (s!"{invite.issuerDirectAddrs.length} direct addrs " ++
      s!"exceeds the limit of {MAX_DIRECT_ADDRS}"))
  else
    match invite.issuerDirectAddrs.find? fun addr =>
      MAX_DIRECT_ADDR_BYTES < (utf8Bytes addr).length with
    | some addr =>
      .error (.encoding (s!"direct addr of {(utf8Bytes addr).length} bytes " ++
        s!"exceeds the {MAX_DIRECT_ADDR_BYTES} byte limit"))
    | none => .ok invite.layout

/-- `trunc` of `decode_strict`. -/
def trunc (what : String) : ProtocolError := .quarantine s!"truncated canonical invite: {what}"

/-- The flags byte of `decode_strict`, and the recipient that it announces. -/
def scanRecipient (short : ProtocolError) : Scan ProtocolError (Option EndpointId) := do
  let flags ← Scan.u8 short
  Scan.check (1 < flags) (.quarantine s!"reserved invite flag bits: 0x{hexByte flags}")
  if flags = 1 then
    let recipient ← scanKey (trunc "recipient")
    return some recipient
  else return none

/-- `decode_strict` up to its check of the length. The fixed fields are not short: the length has
been checked. -/
def scan (bytes : Bytes) : Scan ProtocolError InviteV1 := do
  let short := trunc "shorter than the fixed prefix"
  let domain ← Scan.take 15 short
  Scan.check (domain ≠ INVITE_DOMAIN)
    (.quarantine s!"bad invite domain {debugBytes bytes} (expected {debugBytes INVITE_DOMAIN})")
  let version ← Scan.u8 short
  Scan.check (version ≠ INVITE_VERSION)
    (.quarantine s!"unsupported invite version 0x{hexByte version}")
  let fabricId ← Scan.array 32 short
  let inviteId ← Scan.array 16 short
  let issuer ← scanKey short
  let issuerRelayUrl ← scanText 2 MAX_RELAY_URL_BYTES (trunc "relay URL length prefix")
    (fun len => .quarantine
      s!"relay URL of {len} bytes exceeds the {MAX_RELAY_URL_BYTES} byte limit")
    (trunc "relay URL bytes") (.quarantine "relay URL is not valid UTF-8")
  let nAddrs ← Scan.u8 (trunc "direct addr count")
  Scan.check (MAX_DIRECT_ADDRS < nAddrs.toNat)
    (.quarantine s!"{nAddrs} direct addrs exceeds the limit of {MAX_DIRECT_ADDRS}")
  let issuerDirectAddrs ← Scan.times
    (fun _ => scanText 1 MAX_DIRECT_ADDR_BYTES (trunc "direct addr length prefix")
      (fun len => .quarantine
        s!"direct addr of {len} bytes exceeds the {MAX_DIRECT_ADDR_BYTES} byte limit")
      (trunc "direct addr bytes") (.quarantine "direct addr is not valid UTF-8"))
    0 nAddrs.toNat
  Scan.need (8 + 1) (trunc "expires_at_ms / flags")
  let expiresAtMs ← Scan.u64 short
  let recipient ← scanRecipient short
  return { fabricId, inviteId, issuer, issuerRelayUrl, issuerDirectAddrs, expiresAtMs, recipient }

/-- `decode_strict`. -/
def decodeStrict (bytes : Bytes) : Except ProtocolError InviteV1 := do
  if bytes.length < INVITE_MIN_LEN then throw (trunc "shorter than the fixed prefix")
  let (invite, rest) ← (scan bytes).run bytes
  if rest.length ≠ 1 then
    throw (.quarantine (s!"invite length mismatch: expected {bytes.length - rest.length + 1} " ++
      s!"bytes, got {bytes.length}"))
  let maxUses := rest.getD 0 0
  if maxUses ≠ 1 then throw (.quarantine s!"invite max_uses must be 1, got {maxUses}")
  return invite

structure Canonical (invite : InviteV1) : Prop where
  relayUrl : (utf8Bytes invite.issuerRelayUrl).length ≤ MAX_RELAY_URL_BYTES
  addrs : invite.issuerDirectAddrs.length ≤ MAX_DIRECT_ADDRS
  addr : ∀ addr ∈ invite.issuerDirectAddrs, (utf8Bytes addr).length ≤ MAX_DIRECT_ADDR_BYTES

/-- **The invites that `canonicalBytes` writes.** -/
theorem canonicalBytes_eq_ok {invite : InviteV1} {bytes : Bytes} :
    invite.canonicalBytes = .ok bytes ↔ invite.Canonical ∧ bytes = invite.layout := by
  unfold canonicalBytes
  constructor
  · intro h
    split_ifs at h with hurl hcount
    split at h
    · cases h
    · next hfind =>
      cases h
      refine ⟨⟨Nat.le_of_not_lt hurl, Nat.le_of_not_lt hcount, fun addr hmem => ?_⟩, rfl⟩
      have hnot := find?_eq_none.mp hfind addr hmem
      rw [decide_eq_true_eq] at hnot
      exact Nat.le_of_not_lt hnot
  · rintro ⟨hcanon, rfl⟩
    have hfind : invite.issuerDirectAddrs.find? (fun addr =>
        MAX_DIRECT_ADDR_BYTES < (utf8Bytes addr).length) = none := by
      refine find?_eq_none.mpr fun addr hmem => ?_
      rw [decide_eq_true_eq]
      exact Nat.not_lt.mpr (hcanon.addr addr hmem)
    rw [if_neg (Nat.not_lt.mpr hcanon.relayUrl), if_neg (Nat.not_lt.mpr hcanon.addrs), hfind]

def body (invite : InviteV1) : Bytes :=
  INVITE_DOMAIN ++ ([INVITE_VERSION] ++ (invite.fabricId.toBytes ++ (invite.inviteId.toBytes
    ++ (invite.issuer.asBytes.toBytes ++ (textField 2 invite.issuerRelayUrl
      ++ ([UInt8.ofNat invite.issuerDirectAddrs.length]
        ++ (invite.issuerDirectAddrs.flatMap (textField 1)
          ++ (beBytes 8 invite.expiresAtMs.toNat ++ recipientField invite.recipient))))))))

theorem layout_eq_body (invite : InviteV1) : invite.layout = invite.body ++ [1] := by
  simp only [layout, body, append_assoc]

theorem codes_scanRecipient (short : ProtocolError) :
    Scan.Codes (scanRecipient short) recipientField fun _ => True := by
  intro bs recipient rest
  simp only [scanRecipient, Scan.run_bind_eq_ok, Scan.codes_u8 _ _ _ _, Scan.run_check_eq_ok,
    true_and]
  constructor
  · rintro ⟨flags, _, rfl, _, _, ⟨hflags, rfl⟩, hrun⟩
    by_cases hone : flags = 1
    · simp only [hone, if_true, Scan.run_bind_eq_ok, codes_scanKey _ _ _ _, Scan.run_pure_eq_ok,
        true_and] at hrun
      obtain ⟨key, _, rfl, rfl, rfl⟩ := hrun
      rw [hone]
      rfl
    · simp only [hone, if_false, Scan.run_pure_eq_ok] at hrun
      obtain ⟨rfl, rfl⟩ := hrun
      -- a flag that is neither above one nor one is zero
      have hzero : flags = 0 := by
        rw [UInt8.lt_iff_toNat_lt] at hflags
        rw [← UInt8.toNat_inj] at hone ⊢
        have h1 : (1 : UInt8).toNat = 1 := rfl
        have h0 : (0 : UInt8).toNat = 0 := rfl
        omega
      rw [hzero]
      rfl
  · rintro rfl
    cases recipient with
    | none => exact ⟨0, rest, rfl, (), rest, ⟨by decide, rfl⟩, rfl⟩
    | some key =>
      refine ⟨1, key.asBytes.toBytes ++ rest, rfl, (), _, ⟨by decide, rfl⟩, ?_⟩
      simp only [if_true, Scan.run_bind_eq_ok, codes_scanKey _ _ _ _, Scan.run_pure_eq_ok,
        true_and]
      exact ⟨key, rest, rfl, rfl, rfl⟩

theorem codes_scan (bytes : Bytes) : Scan.Codes (scan bytes) body Canonical := by
  have hurl := @codes_scanText 2 MAX_RELAY_URL_BYTES (by decide)
  have haddr := @codes_scanText 1 MAX_DIRECT_ADDR_BYTES (by decide)
  intro bs invite rest
  simp only [scan, Scan.run_bind_eq_ok, Scan.codes_take _ _ _ _ _, Scan.codes_u8 _ _ _ _,
    Scan.codes_array _ _ _ _ _, Scan.codes_u64 _ _ _ _, Scan.run_check_eq_ok, Scan.run_need_eq_ok,
    codes_scanKey _ _ _ _, codes_scanRecipient _ _ _ _, hurl _ _ _ _ _ _ _,
    Scan.Codes.times (fun _ => haddr _ _ _ _) _ _ _ _ _, Scan.run_pure_eq_ok, true_and, ne_eq,
    not_not, not_lt, id]
  constructor
  · rintro ⟨_, _, ⟨-, rfl⟩, _, _, ⟨rfl, rfl⟩, _, _, rfl, _, _, ⟨rfl, rfl⟩, fabricId, _, rfl,
      inviteId, _, rfl, issuer, _, rfl, url, _, ⟨hurl, rfl⟩, nAddrs, _, rfl, _, _, ⟨hcount, rfl⟩,
      addrs, _, ⟨⟨hlen, haddrs⟩, rfl⟩, _, _, ⟨-, rfl⟩, expiresAtMs, _, rfl, recipient, _, rfl, rfl,
      rfl⟩
    refine ⟨⟨hurl, hlen ▸ hcount, haddrs⟩, ?_⟩
    simp only [body, hlen, UInt8.ofNat_toNat, append_assoc]
  · rintro ⟨hcanon, rfl⟩
    have hcount : (UInt8.ofNat invite.issuerDirectAddrs.length).toNat
        = invite.issuerDirectAddrs.length := by
      have hle := hcanon.addrs
      rw [MAX_DIRECT_ADDRS] at hle
      rw [UInt8.toNat_ofNat']
      omega
    have hneed : 8 + 1 ≤ (beBytes 8 invite.expiresAtMs.toNat ++ (recipientField invite.recipient
        ++ rest)).length := by
      have hflag : 1 ≤ (recipientField invite.recipient).length := by
        cases invite.recipient with
        | none => exact Nat.le_refl 1
        | some key => exact Nat.le_add_left 1 _
      simp only [length_append, length_beBytes]
      omega
    simp only [body, append_assoc]
    exact ⟨INVITE_DOMAIN, _, ⟨rfl, rfl⟩, (), _, ⟨rfl, rfl⟩, _, _, rfl, (), _, ⟨rfl, rfl⟩, _, _, rfl,
      _, _, rfl, _, _, rfl, _, _, ⟨hcanon.relayUrl, rfl⟩, _, _, rfl, (), _,
      ⟨hcount.trans_le hcanon.addrs, rfl⟩, _, _, ⟨⟨hcount.symm, hcanon.addr⟩, rfl⟩, (), _,
      ⟨hneed, rfl⟩, _, _, rfl, _, _, rfl, rfl, rfl⟩

theorem le_length_layout (invite : InviteV1) : INVITE_MIN_LEN ≤ invite.layout.length := by
  have hflag : 1 ≤ (recipientField invite.recipient).length := by
    cases invite.recipient with
    | none => exact Nat.le_refl 1
    | some key => exact Nat.le_add_left 1 _
  simp only [layout, textField, INVITE_MIN_LEN, INVITE_FIXED_LEN, INVITE_DOMAIN, length_append,
    BytesN.length_toBytes, length_beBytes, length_cons, length_nil]
  omega

/-- **The byte strings that `decodeStrict` reads**: the layouts of such invites. -/
theorem decodeStrict_eq_ok {bytes : Bytes} {invite : InviteV1} :
    decodeStrict bytes = .ok invite ↔ invite.Canonical ∧ bytes = invite.layout := by
  unfold decodeStrict
  simp only [bind_eq_ok, ite_throw_eq_ok, pure_eq_ok]
  constructor
  · rintro ⟨-, ⟨_, rest⟩, hscan, hlen, hlast, rfl⟩
    obtain ⟨hcanon, rfl⟩ := (codes_scan _ _ _ _).mp hscan
    obtain ⟨b, rfl⟩ := length_eq_one_iff.mp (not_not.mp hlen)
    have hone : b = 1 := not_not.mp hlast
    rw [hone, layout_eq_body]
    exact ⟨hcanon, rfl⟩
  · rintro ⟨hcanon, rfl⟩
    have hscan := (codes_scan invite.layout invite.layout invite [1]).mpr
      ⟨hcanon, invite.layout_eq_body⟩
    exact ⟨Nat.not_lt.mpr invite.le_length_layout, _, hscan, fun h => h rfl, fun h => h rfl, rfl⟩

end InviteV1

/-! ## The second version -/

structure InviteRelayV2 where
  url : String
  capability : Option String
deriving DecidableEq

structure InviteV2 where
  fabricId : FabricId
  inviteId : BytesN 16
  issuer : EndpointId
  expiresAtMs : UInt64
  recipient : EndpointId
  relays : List InviteRelayV2
  directAddrs : List SocketAddr
deriving DecidableEq

namespace InviteV2

/-- The capability of a relay, behind its length; no capability is the length zero. -/
def capabilityField (capability : Option String) : Bytes :=
  match capability with
  | none => beBytes 2 0
  | some cap => textField 2 cap

def relayField (relay : InviteRelayV2) : Bytes :=
  textField 2 relay.url ++ capabilityField relay.capability

/-- The buffer `canonical_bytes` fills when no check fails. -/
def layout (invite : InviteV2) : Bytes :=
  INVITE2_DOMAIN ++ ([INVITE2_VERSION] ++ (invite.fabricId.toBytes ++ (invite.inviteId.toBytes
    ++ (invite.issuer.asBytes.toBytes ++ (beBytes 8 invite.expiresAtMs.toNat
      ++ (invite.recipient.asBytes.toBytes ++ ([UInt8.ofNat invite.relays.length]
        ++ (invite.relays.flatMap relayField ++ ([UInt8.ofNat invite.directAddrs.length]
          ++ invite.directAddrs.flatMap SocketAddr.field)))))))))

/-- What `canonical_bytes` checks of a capability. -/
def checkCapability (recipient : EndpointId) (expiresAtMs : UInt64) (cap : String) :
    Except ProtocolError Unit := do
  if MAX_RELAY_CAP_BYTES < (utf8Bytes cap).length then
    throw (.encoding (s!"relay capability of {(utf8Bytes cap).length} bytes " ++
      s!"exceeds the {MAX_RELAY_CAP_BYTES} byte limit"))
  let parsed ← (RelayCapV1.decode cap).mapError fun e =>
    .encoding s!"relay capability invalid: {e.display}"
  if parsed.recipient ≠ recipient then
    throw (.encoding "relay capability recipient does not match the invite recipient")
  if expiresAtMs < parsed.expiresAt then
    throw (.encoding "relay capability expires after the invite expires")
  return ()

/-- What `canonical_bytes` checks of a relay. -/
def checkRelay (recipient : EndpointId) (expiresAtMs : UInt64) (relay : InviteRelayV2) :
    Except ProtocolError Unit := do
  if MAX_RELAY_URL_BYTES < (utf8Bytes relay.url).length then
    throw (.encoding (s!"relay URL of {(utf8Bytes relay.url).length} bytes " ++
      s!"exceeds the {MAX_RELAY_URL_BYTES} byte limit"))
  match relay.capability with
  | some cap => checkCapability recipient expiresAtMs cap
  | none => return ()

/-- `canonical_bytes`. -/
def canonicalBytes (invite : InviteV2) : Except ProtocolError Bytes := do
  if MAX_RELAYS_V2 < invite.relays.length then
    throw (.encoding s!"{invite.relays.length} relays exceeds the limit of {MAX_RELAYS_V2}")
  if MAX_DIRECT_ADDRS < invite.directAddrs.length then
    throw (.encoding (s!"{invite.directAddrs.length} direct addrs " ++
      s!"exceeds the limit of {MAX_DIRECT_ADDRS}"))
  invite.relays.forM (checkRelay invite.recipient invite.expiresAtMs)
  return invite.layout

/-- `trunc` of `decode_strict`. -/
def trunc (what : String) : ProtocolError := .quarantine s!"truncated canonical invite v2: {what}"

/-- The capability of a relay in `decode_strict`; its bytes are there before it is looked at. -/
def scanCapability (recipient : EndpointId) (expiresAtMs : UInt64) (i : Nat) :
    Scan ProtocolError (Option String) := do
  let capLen ← Scan.be 2 (trunc s!"relay {i} capability length prefix")
  Scan.check (MAX_RELAY_CAP_BYTES < capLen) (.quarantine
    s!"relay capability of {capLen} bytes exceeds the {MAX_RELAY_CAP_BYTES} byte limit")
  Scan.need capLen (trunc s!"relay {i} capability bytes")
  if capLen = 0 then return none
  else
    let cap ← Scan.text capLen (trunc s!"relay {i} capability bytes")
      (.quarantine "relay capability is not valid UTF-8")
    let parsed ← Scan.ofExcept (RelayCapV1.decode cap)
    Scan.check (parsed.recipient ≠ recipient)
      (.quarantine "relay capability recipient does not match the invite recipient")
    Scan.check (expiresAtMs < parsed.expiresAt)
      (.quarantine "relay capability expires after the invite expires")
    return some cap

/-- The `i`-th relay of `decode_strict`. -/
def scanRelay (recipient : EndpointId) (expiresAtMs : UInt64) (i : Nat) :
    Scan ProtocolError InviteRelayV2 := do
  let url ← scanText 2 MAX_RELAY_URL_BYTES (trunc s!"relay {i} url length prefix")
    (fun len => .quarantine
      s!"relay URL of {len} bytes exceeds the {MAX_RELAY_URL_BYTES} byte limit")
    (trunc s!"relay {i} url bytes") (.quarantine "relay URL is not valid UTF-8")
  let capability ← scanCapability recipient expiresAtMs i
  return { url, capability }

/-- `decode_strict` up to its check of the length. The fixed fields are not short: the length has
been checked. -/
def scan (bytes : Bytes) : Scan ProtocolError InviteV2 := do
  let short := trunc "shorter than the fixed prefix"
  let domain ← Scan.take 15 short
  Scan.check (domain ≠ INVITE2_DOMAIN) (.quarantine
    s!"bad invite v2 domain {debugBytes bytes} (expected {debugBytes INVITE2_DOMAIN})")
  let version ← Scan.u8 short
  Scan.check (version ≠ INVITE2_VERSION)
    (.quarantine s!"unsupported invite v2 version 0x{hexByte version}")
  let fabricId ← Scan.array 32 short
  let inviteId ← Scan.array 16 short
  let issuer ← scanKey short
  let expiresAtMs ← Scan.u64 short
  let recipient ← scanKey short
  let relayCount ← Scan.u8 short
  Scan.check (MAX_RELAYS_V2 < relayCount.toNat)
    (.quarantine s!"{relayCount} relays exceeds the limit of {MAX_RELAYS_V2}")
  let relays ← Scan.times (scanRelay recipient expiresAtMs) 0 relayCount.toNat
  let addrCount ← Scan.u8 (trunc "direct addr count")
  Scan.check (MAX_DIRECT_ADDRS < addrCount.toNat)
    (.quarantine s!"{addrCount} direct addrs exceeds the limit of {MAX_DIRECT_ADDRS}")
  let directAddrs ← Scan.times (SocketAddr.scan trunc) 0 addrCount.toNat
  return { fabricId, inviteId, issuer, expiresAtMs, recipient, relays, directAddrs }

/-- `decode_strict`. -/
def decodeStrict (bytes : Bytes) : Except ProtocolError InviteV2 := do
  if bytes.length < INVITE2_MIN_LEN then throw (trunc "shorter than the fixed prefix")
  let (invite, rest) ← (scan bytes).run bytes
  if rest.length ≠ 0 then
    throw (.quarantine (s!"invite v2 length mismatch: expected {bytes.length - rest.length} " ++
      s!"bytes, got {bytes.length}"))
  return invite

/-! ### What both accept -/

/-- A capability that an invite for the recipient may carry. -/
structure CapabilityFits (recipient : EndpointId) (expiresAtMs : UInt64) (cap : String) : Prop where
  length : (utf8Bytes cap).length ≤ MAX_RELAY_CAP_BYTES
  reads : ∃ parsed, RelayCapV1.decode cap = .ok parsed ∧ parsed.recipient = recipient
    ∧ parsed.expiresAt ≤ expiresAtMs

structure RelayFits (recipient : EndpointId) (expiresAtMs : UInt64) (relay : InviteRelayV2) :
    Prop where
  url : (utf8Bytes relay.url).length ≤ MAX_RELAY_URL_BYTES
  capability : ∀ cap, relay.capability = some cap → CapabilityFits recipient expiresAtMs cap

/-- Within the limits of the layout, and with capabilities for the recipient. -/
structure Canonical (invite : InviteV2) : Prop where
  relays : invite.relays.length ≤ MAX_RELAYS_V2
  addrs : invite.directAddrs.length ≤ MAX_DIRECT_ADDRS
  relay : ∀ relay ∈ invite.relays, RelayFits invite.recipient invite.expiresAtMs relay

def Carried (invite : InviteV2) : Prop := ∀ addr ∈ invite.directAddrs, addr.carried = addr

theorem checkCapability_eq_ok {recipient : EndpointId} {expiresAtMs : UInt64} {cap : String} :
    checkCapability recipient expiresAtMs cap = .ok ()
      ↔ CapabilityFits recipient expiresAtMs cap := by
  unfold checkCapability
  simp only [bind_eq_ok, ite_throw_eq_ok, mapError_eq_ok, pure_eq_ok, not_lt, ne_eq, not_not,
    and_true]
  exact ⟨fun ⟨hlen, hreads⟩ => ⟨hlen, hreads⟩, fun h => ⟨h.length, h.reads⟩⟩

theorem checkRelay_eq_ok {recipient : EndpointId} {expiresAtMs : UInt64}
    {relay : InviteRelayV2} :
    checkRelay recipient expiresAtMs relay = .ok () ↔ RelayFits recipient expiresAtMs relay := by
  unfold checkRelay
  rw [ite_throw_eq_ok, not_lt]
  cases hcap : relay.capability with
  | none =>
    refine ⟨fun h => ⟨h.1, fun cap hsome => ?_⟩, fun h => ⟨h.url, rfl⟩⟩
    rw [hcap] at hsome
    cases hsome
  | some cap =>
    rw [checkCapability_eq_ok]
    refine ⟨fun h => ⟨h.1, fun cap' hsome => ?_⟩, fun h => ⟨h.url, h.capability cap hcap⟩⟩
    rw [hcap] at hsome
    cases hsome
    exact h.2

/-- **The invites that `canonicalBytes` writes.** -/
theorem canonicalBytes_eq_ok {invite : InviteV2} {bytes : Bytes} :
    invite.canonicalBytes = .ok bytes ↔ invite.Canonical ∧ bytes = invite.layout := by
  unfold canonicalBytes
  simp only [bind_eq_ok, ite_throw_eq_ok, forM_eq_ok, pure_eq_ok, not_lt]
  constructor
  · rintro ⟨hrelays, haddrs, _, hrelay, rfl⟩
    exact ⟨⟨hrelays, haddrs, fun relay hmem => checkRelay_eq_ok.mp (hrelay relay hmem)⟩, rfl⟩
  · rintro ⟨h, rfl⟩
    exact ⟨h.relays, h.addrs, (), fun relay hmem => checkRelay_eq_ok.mpr (h.relay relay hmem), rfl⟩

theorem length_ne_zero_of_decode {cap : String} {parsed : RelayCapV1}
    (h : RelayCapV1.decode cap = .ok parsed) : (utf8Bytes cap).length ≠ 0 := by
  obtain ⟨-, signature, rfl⟩ := RelayCapV1.decode_eq_ok.mp h
  have hprefix : (utf8Bytes RELAY_CAP_TOKEN_PREFIX).length = 7 := by decide +kernel
  rw [RelayCapV1.token, utf8Bytes_append, length_append, hprefix]
  omega

theorem codes_scanCapability (recipient : EndpointId) (expiresAtMs : UInt64) (i : Nat) :
    Scan.Codes (scanCapability recipient expiresAtMs i) capabilityField fun capability =>
      ∀ cap, capability = some cap → CapabilityFits recipient expiresAtMs cap := by
  intro bs capability rest
  simp only [scanCapability, Scan.run_bind_eq_ok, Scan.codes_be _ _ _ _ _, Scan.run_check_eq_ok,
    Scan.run_need_eq_ok, not_lt]
  constructor
  · rintro ⟨capLen, _, ⟨-, rfl⟩, _, _, ⟨hle, rfl⟩, _, _, ⟨-, rfl⟩, hrun⟩
    by_cases hzero : capLen = 0
    · simp only [hzero, if_true, Scan.run_pure_eq_ok] at hrun
      obtain ⟨rfl, rfl⟩ := hrun
      rw [hzero]
      exact ⟨(by intros; contradiction), rfl⟩
    · simp only [hzero, if_false, Scan.run_bind_eq_ok, Scan.run_text_eq_ok,
        Scan.run_ofExcept_eq_ok, Scan.run_check_eq_ok, Scan.run_pure_eq_ok, ne_eq, not_not,
        not_lt] at hrun
      obtain ⟨cap, _, ⟨rfl, rfl⟩, parsed, _, ⟨hparsed, rfl⟩, _, _, ⟨hrecipient, rfl⟩, _, _,
        ⟨hexpires, rfl⟩, rfl, rfl⟩ := hrun
      refine ⟨fun cap' hsome => ?_, ?_⟩
      · cases hsome
        exact ⟨hle, parsed, hparsed, hrecipient, hexpires⟩
      · simp only [capabilityField, textField, append_assoc]
  · rintro ⟨hfits, rfl⟩
    cases capability with
    | none =>
      refine ⟨0, rest, ⟨by decide, rfl⟩, (), rest, ⟨Nat.zero_le _, rfl⟩, (), rest,
        ⟨Nat.zero_le _, rfl⟩, ?_⟩
      simp only [if_true, Scan.run_pure_eq_ok, and_self]
    | some cap =>
      obtain ⟨hle, parsed, hparsed, hrecipient, hexpires⟩ := hfits cap rfl
      have hlt : (utf8Bytes cap).length < 256 ^ 2 := by
        rw [MAX_RELAY_CAP_BYTES] at hle
        omega
      have hneed : (utf8Bytes cap).length ≤ (utf8Bytes cap ++ rest).length := by
        rw [length_append]
        exact Nat.le_add_right _ _
      refine ⟨_, utf8Bytes cap ++ rest, ⟨hlt, ?_⟩, (), _, ⟨hle, rfl⟩, (), _, ⟨hneed, rfl⟩, ?_⟩
      · simp only [capabilityField, textField, append_assoc]
      · simp only [length_ne_zero_of_decode hparsed, if_false, Scan.run_bind_eq_ok,
          Scan.run_text_eq_ok, Scan.run_ofExcept_eq_ok, Scan.run_check_eq_ok, Scan.run_pure_eq_ok,
          ne_eq, not_not, not_lt]
        exact ⟨cap, rest, ⟨rfl, rfl⟩, parsed, rest, ⟨hparsed, rfl⟩, (), rest, ⟨hrecipient, rfl⟩,
          (), rest, ⟨hexpires, rfl⟩, rfl, rfl⟩

theorem codes_scanRelay (recipient : EndpointId) (expiresAtMs : UInt64) (i : Nat) :
    Scan.Codes (scanRelay recipient expiresAtMs i) relayField
      (RelayFits recipient expiresAtMs) := by
  have hurl := @codes_scanText 2 MAX_RELAY_URL_BYTES (by decide)
  intro bs relay rest
  simp only [scanRelay, Scan.run_bind_eq_ok, hurl _ _ _ _ _ _ _, codes_scanCapability _ _ _ _ _ _,
    Scan.run_pure_eq_ok, relayField]
  constructor
  · rintro ⟨url, _, ⟨hurl, rfl⟩, capability, _, ⟨hcap, rfl⟩, rfl, rfl⟩
    exact ⟨⟨hurl, hcap⟩, by rw [append_assoc]⟩
  · rintro ⟨hfits, rfl⟩
    rw [append_assoc]
    exact ⟨_, _, ⟨hfits.url, rfl⟩, _, _, ⟨hfits.capability, rfl⟩, rfl, rfl⟩

theorem codes_scan (bytes : Bytes) :
    Scan.Codes (scan bytes) layout fun invite => invite.Canonical ∧ invite.Carried := by
  intro bs invite rest
  simp only [scan, Scan.run_bind_eq_ok, Scan.codes_take _ _ _ _ _, Scan.codes_u8 _ _ _ _,
    Scan.codes_array _ _ _ _ _, Scan.codes_u64 _ _ _ _, Scan.run_check_eq_ok,
    codes_scanKey _ _ _ _, Scan.Codes.times (codes_scanRelay _ _) _ _ _ _ _,
    Scan.Codes.times (SocketAddr.codes_scan _) _ _ _ _ _, Scan.run_pure_eq_ok, true_and, ne_eq,
    not_not, not_lt, id]
  constructor
  · rintro ⟨_, _, ⟨-, rfl⟩, _, _, ⟨rfl, rfl⟩, _, _, rfl, _, _, ⟨rfl, rfl⟩, fabricId, _, rfl,
      inviteId, _, rfl, issuer, _, rfl, expiresAtMs, _, rfl, recipient, _, rfl, relayCount, _, rfl,
      _, _, ⟨hrelays, rfl⟩, relays, _, ⟨⟨hlen, hrelay⟩, rfl⟩, addrCount, _, rfl, _, _,
      ⟨haddrs, rfl⟩, addrs, _, ⟨⟨hlen', haddr⟩, rfl⟩, rfl, rfl⟩
    refine ⟨⟨⟨hlen ▸ hrelays, hlen' ▸ haddrs, hrelay⟩, haddr⟩, ?_⟩
    simp only [layout, hlen, hlen', UInt8.ofNat_toNat, append_assoc]
  · rintro ⟨⟨hcanon, hcarried⟩, rfl⟩
    have hcount : ∀ n, n ≤ 8 → (UInt8.ofNat n).toNat = n := fun n hn => by
      rw [UInt8.toNat_ofNat']
      omega
    have hrelays := hcount _ hcanon.relays
    have haddrs := hcount _ (hcanon.addrs.trans (by decide))
    simp only [layout, append_assoc]
    exact ⟨INVITE2_DOMAIN, _, ⟨rfl, rfl⟩, (), _, ⟨rfl, rfl⟩, _, _, rfl, (), _, ⟨rfl, rfl⟩, _, _,
      rfl, _, _, rfl, _, _, rfl, _, _, rfl, _, _, rfl, _, _, rfl, (), _,
      ⟨hrelays.trans_le hcanon.relays, rfl⟩, _, _, ⟨⟨hrelays.symm, hcanon.relay⟩, rfl⟩, _, _, rfl,
      (), _, ⟨haddrs.trans_le hcanon.addrs, rfl⟩, _, _, ⟨⟨haddrs.symm, hcarried⟩, rfl⟩, rfl, rfl⟩

theorem le_length_layout (invite : InviteV2) : INVITE2_MIN_LEN ≤ invite.layout.length := by
  simp only [layout, INVITE2_MIN_LEN, INVITE2_FIXED_LEN, INVITE2_DOMAIN, length_append,
    BytesN.length_toBytes, length_beBytes, length_cons, length_nil]
  omega

/-- **The byte strings that `decodeStrict` reads**: the layouts of such invites. -/
theorem decodeStrict_eq_ok {bytes : Bytes} {invite : InviteV2} :
    decodeStrict bytes = .ok invite
      ↔ (invite.Canonical ∧ invite.Carried) ∧ bytes = invite.layout := by
  unfold decodeStrict
  simp only [bind_eq_ok, ite_throw_eq_ok, pure_eq_ok]
  constructor
  · rintro ⟨-, ⟨_, rest⟩, hscan, hlen, rfl⟩
    obtain ⟨hcanon, rfl⟩ := (codes_scan _ _ _ _).mp hscan
    obtain rfl := length_eq_zero_iff.mp (not_not.mp hlen)
    exact ⟨hcanon, append_nil _⟩
  · rintro ⟨hcanon, rfl⟩
    have hscan := (codes_scan invite.layout invite.layout invite []).mpr
      ⟨hcanon, (append_nil _).symm⟩
    exact ⟨Nat.not_lt.mpr invite.le_length_layout, _, hscan, fun h => h rfl, rfl⟩

end InviteV2

end Dweb
