import OpenDweb.Sdk.TokenDecode

/-!
# OpenDweb — the SDK's token decoders against the Rust decoders

What `decodeInvite` and `decodeCapability` make of a text, by the wire layer of the Rust decoders.

* **`decodeInvite_eq_ok`**, **`decodeCapability_eq_ok`** — they accept the texts of the wire layer,
  `decodeInvite` also some with an `A` too many, and return the fields in their own notation.
* **`token_decoders_agree`** — when that notation is the Rust one.
-/

namespace Dweb.TokenSdk

/-! ## Readings of the fields -/

theorem run_offset_eq_ok {total n : Nat} {bs rest : Bytes} :
    (offset total).run bs = .ok (n, rest) ↔ total - bs.length = n ∧ bs = rest := by
  show Except.ok _ = _ ↔ _
  rw [Except.ok.injEq, Prod.mk.injEq]

theorem codes_u16 (total : Nat) : Scan.Codes (u16 total) (beBytes 2) fun n => n < 256 ^ 2 := by
  intro bs n rest
  simp only [u16, Scan.run_bind_eq_ok, run_offset_eq_ok, Scan.codes_be _ _ _ _ _]
  exact ⟨fun ⟨_, _, ⟨_, rfl⟩, h⟩ => h, fun h => ⟨_, _, ⟨rfl, rfl⟩, h⟩⟩

theorem reads_u64 (total : Nat) :
    Scan.Reads (u64 total) (fun v : UInt64 => beBytes 8 v.toNat) (fun _ => True)
      fun v => toNumber v.toNat := by
  intro bs n rest
  simp only [u64, Scan.run_bind_eq_ok, run_offset_eq_ok, Scan.codes_be _ _ _ _ _,
    Scan.run_pure_eq_ok, true_and]
  constructor
  · rintro ⟨_, _, ⟨-, rfl⟩, v, _, ⟨hlt, rfl⟩, rfl, rfl⟩
    refine ⟨UInt64.ofNat v, ?_, ?_⟩ <;> rw [UInt64.toNat_ofNat_of_lt' hlt]
  · rintro ⟨v, rfl, rfl⟩
    exact ⟨_, _, ⟨rfl, rfl⟩, _, _, ⟨v.toNat_lt, rfl⟩, rfl, rfl⟩

theorem reads_takeHex (n : Nat) (what : String) :
    Scan.Reads (takeHex n what) (BytesN.toBytes (n := n)) (fun _ => True)
      fun bytes => hexStr bytes.toBytes := by
  intro bs s rest
  simp only [takeHex, Scan.run_bind_eq_ok, Scan.codes_take _ _ _ _ _, Scan.run_pure_eq_ok, id,
    true_and]
  constructor
  · rintro ⟨bytes, _, ⟨hlen, rfl⟩, rfl, rfl⟩
    exact ⟨⟨bytes, hlen⟩, rfl, rfl⟩
  · rintro ⟨bytes, rfl, rfl⟩
    exact ⟨_, _, ⟨bytes.length_toBytes, rfl⟩, rfl, rfl⟩

theorem run_takeText_eq_ok {n : Nat} {what t : String} {bs rest : Bytes} :
    (takeText n what).run bs = .ok (t, rest)
      ↔ ∃ s, (utf8Bytes s).length = n ∧ bs = utf8Bytes s ++ rest ∧ stripBom s = t := by
  simp only [takeText, Scan.run_bind_eq_ok, Scan.codes_take _ _ _ _ _, Scan.run_ofExcept_eq_ok,
    okOr_eq_ok, textDecode_eq_some, id]
  constructor
  · rintro ⟨_, _, ⟨hlen, rfl⟩, ⟨s, rfl, hs⟩, rfl⟩
    exact ⟨s, hlen, rfl, hs⟩
  · rintro ⟨s, hlen, rfl, hs⟩
    exact ⟨_, _, ⟨hlen, rfl⟩, ⟨s, rfl, hs⟩, rfl⟩

def readRelay (relay : InviteRelayV2) : DecodedRelay where
  url := stripBom relay.url
  capability := relay.capability.map stripBom
  hasCapability := relay.capability.isSome

theorem reads_scanRelay (total i : Nat) :
    Scan.Reads (scanRelay total i) InviteV2.relayField InviteV2Raw.RelayFits readRelay := by
  intro bs out rest
  simp only [scanRelay, Scan.run_bind_eq_ok, codes_u16 _ _ _ _, Scan.run_check_eq_ok,
    run_takeText_eq_ok, not_lt]
  constructor
  · rintro ⟨_, _, ⟨-, rfl⟩, _, _, ⟨hurl, rfl⟩, _, _, ⟨url, rfl, rfl, rfl⟩, capLen, _, ⟨-, rfl⟩, _, _,
      ⟨hcap, rfl⟩, hrun⟩
    by_cases hzero : capLen = 0
    · simp only [hzero, if_true, Scan.run_pure_eq_ok] at hrun
      obtain ⟨rfl, rfl⟩ := hrun
      refine ⟨⟨url, none⟩, ⟨hurl, (by intros; contradiction)⟩, ?_, rfl⟩
      rw [hzero]
      simp only [InviteV2.relayField, InviteV2.capabilityField, textField, List.append_assoc]
    · simp only [hzero, if_false, Scan.run_bind_eq_ok, run_takeText_eq_ok,
        Scan.run_pure_eq_ok] at hrun
      obtain ⟨_, _, ⟨cap, rfl, rfl, rfl⟩, rfl, rfl⟩ := hrun
      refine ⟨⟨url, some cap⟩, ⟨hurl, fun cap' hsome => ?_⟩, ?_, rfl⟩
      · cases hsome
        exact ⟨Nat.pos_of_ne_zero hzero, hcap⟩
      · simp only [InviteV2.relayField, InviteV2.capabilityField, textField, List.append_assoc]
  · rintro ⟨⟨url, capability⟩, hfits, rfl, rfl⟩
    have hurl : (utf8Bytes url).length < 256 ^ 2 :=
      hfits.url.trans_lt (by decide)
    cases capability with
    | none =>
      refine ⟨_, _, ⟨hurl, ?_⟩, (), _, ⟨hfits.url, rfl⟩, _, _, ⟨url, rfl, rfl, rfl⟩, 0, rest,
        ⟨by decide, rfl⟩, (), _, ⟨Nat.zero_le _, rfl⟩, ?_⟩
      · simp only [InviteV2.relayField, InviteV2.capabilityField, textField, List.append_assoc]
      · simp only [if_true, Scan.run_pure_eq_ok]
        exact ⟨rfl, trivial⟩
    | some cap =>
      obtain ⟨hpos, hle⟩ := hfits.capability cap rfl
      have hlt : (utf8Bytes cap).length < 256 ^ 2 := hle.trans_lt (by decide)
      refine ⟨_, _, ⟨hurl, ?_⟩, (), _, ⟨hfits.url, rfl⟩, _, _, ⟨url, rfl, rfl, rfl⟩, _,
        utf8Bytes cap ++ rest, ⟨hlt, rfl⟩, (), _, ⟨hle, rfl⟩, ?_⟩
      · simp only [InviteV2.relayField, InviteV2.capabilityField, textField, List.append_assoc]
      · simp only [Nat.pos_iff_ne_zero.mp hpos, if_false, Scan.run_bind_eq_ok, run_takeText_eq_ok,
          Scan.run_pure_eq_ok]
        exact ⟨_, _, ⟨cap, rfl, rfl, rfl⟩, rfl, rfl⟩

theorem reads_scanAddr (total i : Nat) :
    Scan.Reads (scanAddr total i) SocketAddr.field (fun addr => addr.carried = addr)
      formatAddr := by
  intro bs out rest
  have hport : ∀ {port : Nat}, port < 256 ^ 2 → (UInt16.ofNat port).toNat = port :=
    fun h => UInt16.toNat_ofNat_of_lt' h
  have hdecimal : ∀ port : UInt16, toString port = toString port.toNat := fun _ => rfl
  have hv6 : (6 : UInt8) ≠ 4 := by decide
  simp only [scanAddr, Scan.run_bind_eq_ok, Scan.codes_u8 _ _ _ _, true_and]
  constructor
  · rintro ⟨family, _, rfl, hrun⟩
    by_cases h4 : family = 4
    · simp only [h4, if_true, Scan.run_bind_eq_ok, Scan.codes_array _ _ _ _ _, codes_u16 _ _ _ _,
        Scan.run_pure_eq_ok, true_and] at hrun
      obtain ⟨ip, _, rfl, port, _, ⟨hlt, rfl⟩, rfl, rfl⟩ := hrun
      refine ⟨.v4 ip (UInt16.ofNat port), rfl, ?_, ?_⟩
      · rw [h4, SocketAddr.field, hport hlt]
        simp only [List.append_assoc]
        rfl
      · rw [formatAddr, hdecimal, hport hlt]
    · by_cases h6 : family = 6
      · simp only [h6, hv6, if_true, if_false, Scan.run_bind_eq_ok, Scan.codes_array _ _ _ _ _,
          codes_u16 _ _ _ _, Scan.run_pure_eq_ok, true_and] at hrun
        obtain ⟨ip, _, rfl, port, _, ⟨hlt, rfl⟩, rfl, rfl⟩ := hrun
        refine ⟨.v6 ip (UInt16.ofNat port) 0 0, rfl, ?_, ?_⟩
        · rw [h6, SocketAddr.field, hport hlt]
          simp only [List.append_assoc]
          rfl
        · rw [formatAddr, hdecimal, hport hlt]
      · simp only [h4, h6, if_false, Scan.run_ofExcept_eq_ok, reduceCtorEq, false_and] at hrun
  · rintro ⟨addr, hcarried, rfl, rfl⟩
    cases addr with
    | v4 ip port =>
      refine ⟨4, ip.toBytes ++ (beBytes 2 port.toNat ++ rest), ?_, ?_⟩
      · simp only [SocketAddr.field, List.append_assoc]
        rfl
      · simp only [if_true, Scan.run_bind_eq_ok, Scan.codes_array _ _ _ _ _, codes_u16 _ _ _ _,
          Scan.run_pure_eq_ok, true_and]
        exact ⟨ip, _, rfl, port.toNat, rest, ⟨port.toNat_lt, rfl⟩, rfl, rfl⟩
    | v6 ip port flowinfo scopeId =>
      refine ⟨6, ip.toBytes ++ (beBytes 2 port.toNat ++ rest), ?_, ?_⟩
      · simp only [SocketAddr.field, List.append_assoc]
        rfl
      · simp only [hv6, if_true, if_false, Scan.run_bind_eq_ok, Scan.codes_array _ _ _ _ _,
          codes_u16 _ _ _ _, Scan.run_pure_eq_ok, true_and]
        exact ⟨ip, _, rfl, port.toNat, rest, ⟨port.toNat_lt, rfl⟩, rfl, rfl⟩

/-! ## Invites -/

/-- What `decodeInvite` returns for an invite. -/
def readInvite (raw : InviteV2Raw) : DecodedInvite where
  fabricId := hexStr raw.fabricId.toBytes
  inviteId := hexStr raw.inviteId.toBytes
  issuer := hexStr raw.issuer.toBytes
  expiresAtMs := toNumber raw.expiresAtMs.toNat
  recipient := hexStr raw.recipient.toBytes
  relays := raw.relays.map readRelay
  directAddrs := raw.directAddrs.map formatAddr

theorem reads_scanInvite (total : Nat) :
    Scan.Reads (scanInvite total) InviteV2Raw.layout InviteV2Raw.Fits readInvite := by
  intro bs out rest
  simp only [scanInvite, Scan.run_bind_eq_ok, Scan.codes_take _ _ _ _ _, Scan.codes_u8 _ _ _ _,
    reads_takeHex _ _ _ _ _, reads_u64 _ _ _ _, Scan.run_check_eq_ok,
    Scan.Reads.times (reads_scanRelay _) _ _ _ _ _, Scan.Reads.times (reads_scanAddr _) _ _ _ _ _,
    Scan.run_pure_eq_ok, true_and, ne_eq, not_not, not_lt, id]
  constructor
  · -- the links are put together only once all of them are there
    rintro ⟨_, _, ⟨-, hbs⟩, _, _, ⟨hdomain, hm1⟩, _, _, hm2, _, _, ⟨hversion, hm3⟩,
      _, _, ⟨fabricId, hm4, hfabricId⟩, _, _, ⟨inviteId, hm5, hinviteId⟩,
      _, _, ⟨issuer, hm6, hissuer⟩, _, _, ⟨expiresAtMs, hm7, hexpiresAtMs⟩,
      _, _, ⟨recipient, hm8, hrecipient⟩, relayCount, _, hm9, _, _, ⟨hrelays, hm10⟩,
      _, _, ⟨relays, ⟨hlen, hrelay⟩, hm11, hread⟩, addrCount, _, hm12, _, _, ⟨haddrs, hm13⟩,
      _, _, ⟨addrs, ⟨hlen', haddr⟩, hm14, hread'⟩, hd, hrest⟩
    subst hm14 hm13 hm12 hm11 hm10 hm9 hm8 hm7 hm6 hm5 hm4 hm3 hm2 hm1 hbs hrest
    subst hdomain hversion hfabricId hinviteId hissuer hexpiresAtMs hrecipient hread hread' hd
    refine ⟨⟨fabricId, inviteId, issuer, expiresAtMs, recipient, relays, addrs⟩,
      ⟨hlen ▸ hrelays, hlen' ▸ haddrs, hrelay, haddr⟩, ?_, rfl⟩
    simp only [InviteV2Raw.layout, hlen, hlen', UInt8.ofNat_toNat, List.append_assoc]
  · rintro ⟨raw, hfits, rfl, rfl⟩
    have hrelays := InviteV2Raw.toNat_ofNat_count hfits.relays
    have haddrs := InviteV2Raw.toNat_ofNat_count (hfits.addrs.trans (by decide))
    simp only [InviteV2Raw.layout, List.append_assoc]
    exact ⟨INVITE2_DOMAIN, _, ⟨rfl, rfl⟩, (), _, ⟨rfl, rfl⟩, _, _, rfl, (), _, ⟨rfl, rfl⟩,
      _, _, ⟨_, rfl, rfl⟩, _, _, ⟨_, rfl, rfl⟩, _, _, ⟨_, rfl, rfl⟩, _, _, ⟨_, rfl, rfl⟩,
      _, _, ⟨_, rfl, rfl⟩, _, _, rfl, (), _, ⟨hrelays.trans_le hfits.relays, rfl⟩,
      _, _, ⟨_, ⟨hrelays.symm, hfits.relay⟩, rfl, rfl⟩, _, _, rfl,
      (), _, ⟨haddrs.trans_le hfits.addrs, rfl⟩, _, _, ⟨_, ⟨haddrs.symm, hfits.carried⟩, rfl, rfl⟩,
      rfl, rfl⟩

/-- The text of an invite whose payload is of whole groups, and an `A` behind it. -/
def Dangling (s : String) : Prop :=
  ∃ (raw : InviteV2Raw) (signature : BytesN 64), raw.Fits ∧ 3 ∣ raw.layout.length + 64
    ∧ s = raw.text signature ++ "A"

theorem readPayload_eq_ok {payload : Bytes} {d : DecodedInvite} :
    (¬payload.length < 64 + INVITE2_MIN_LEN
      ∧ ∃ invite rest, (scanInvite (payload.take (payload.length - 64)).length).run
          (payload.take (payload.length - 64)) = .ok (invite, rest)
        ∧ ¬rest.length ≠ 0 ∧ invite = d)
      ↔ ∃ (raw : InviteV2Raw) (signature : BytesN 64), raw.Fits
        ∧ payload = raw.layout ++ signature.toBytes ∧ readInvite raw = d := by
  simp only [reads_scanInvite _ _ _ _]
  constructor
  · rintro ⟨hlen, _, rest, ⟨raw, hfits, htake, rfl⟩, hrest, rfl⟩
    obtain rfl := List.length_eq_zero_iff.mp (not_not.mp hrest)
    rw [List.append_nil] at htake
    have hdrop : (payload.drop (payload.length - 64)).length = 64 := by
      rw [List.length_drop]
      omega
    refine ⟨raw, ⟨_, hdrop⟩, hfits, ?_, rfl⟩
    show payload = raw.layout ++ payload.drop (payload.length - 64)
    rw [← htake, List.take_append_drop]
  · rintro ⟨raw, signature, hfits, rfl, rfl⟩
    have hlen : (raw.layout ++ signature.toBytes).length = raw.layout.length + 64 := by
      rw [List.length_append, signature.length_toBytes]
    have htake : (raw.layout ++ signature.toBytes).take
        ((raw.layout ++ signature.toBytes).length - 64) = raw.layout := by
      rw [hlen, Nat.add_sub_cancel]
      exact List.take_left' rfl
    refine ⟨?_, readInvite raw, [], ⟨raw, hfits, ?_, rfl⟩, fun h => h rfl, rfl⟩
    · have hmin := raw.le_length_layout
      rw [hlen]
      omega
    · rw [htake, List.append_nil]

/-- **The texts that `decodeInvite` accepts.** -/
theorem decodeInvite_eq_ok {s : String} {d : DecodedInvite} :
    decodeInvite s = .ok d ↔ ∃ (raw : InviteV2Raw) (signature : BytesN 64), raw.Fits
      ∧ readInvite raw = d
      ∧ (s = raw.text signature
        ∨ 3 ∣ raw.layout.length + 64 ∧ s = raw.text signature ++ "A") := by
  have hpayload := @readPayload_eq_ok
  have hgroups : ∀ (raw : InviteV2Raw) (signature : BytesN 64),
      (utf8Bytes (base64Encode (raw.layout ++ signature.toBytes))).length % 4 = 0
        ↔ 3 ∣ raw.layout.length + 64 := by
    intro raw signature
    rw [utf8Bytes_base64Encode, length_base64Text, List.length_append, signature.length_toBytes]
    omega
  unfold decodeInvite
  simp only [bind_eq_ok, okOr_eq_ok, stripPrefix_eq_some, mapError_eq_ok, ite_throw_eq_ok,
    pure_eq_ok, fromBase64UrlNoPad_eq_ok, Prod.exists]
  constructor
  · rintro ⟨encoded, rfl, payload, ⟨t, ht, htext⟩, hrest⟩
    obtain ⟨raw, signature, hfits, rfl, hread⟩ := hpayload.mp hrest
    have hencode := base64Encode_of_base64Decode ht
    refine ⟨raw, signature, hfits, hread, ?_⟩
    rw [← hgroups raw signature, InviteV2Raw.text, hencode]
    rcases htext with rfl | ⟨hwhole, rfl⟩
    · exact .inl rfl
    · exact .inr ⟨hwhole, (String.append_assoc).symm⟩
  · rintro ⟨raw, signature, hfits, hread, rfl | ⟨hwhole, rfl⟩⟩
    · exact ⟨_, rfl, _, ⟨_, base64Decode_base64Encode _, .inl rfl⟩,
        hpayload.mpr ⟨raw, signature, hfits, rfl, hread⟩⟩
    · exact ⟨_, String.append_assoc, _, ⟨_, base64Decode_base64Encode _,
        .inr ⟨(hgroups raw signature).mpr hwhole, rfl⟩⟩,
        hpayload.mpr ⟨raw, signature, hfits, rfl, hread⟩⟩

/-! ## Capabilities -/

/-- What `decodeCapability` returns for a capability and its signature. -/
def readCapability (raw : RelayCapRaw) (signature : BytesN 64) : DecodedCapability where
  fabricId := hexStr raw.fabricId.toBytes
  serverId := hexStr raw.serverId.toBytes
  issuer := hexStr raw.issuer.toBytes
  recipient := hexStr raw.recipient.toBytes
  capsBits := raw.caps
  caps := namedCaps raw.caps
  issuedAt := toNumber raw.issuedAt.toNat
  expiresAt := toNumber raw.expiresAt.toNat
  signature := hexStr signature.toBytes

def rawOfWire (wire : Bytes) (h : wire.length = RELAY_CAP_WIRE_LEN) : RelayCapRaw :=
  have hle : ∀ {n : Nat}, n ≤ 210 → n ≤ wire.length := fun hn => by rw [h]; exact hn
  { fabricId := ⟨slice wire 1 33, length_slice (hle (by decide))⟩
    serverId := ⟨slice wire 33 65, length_slice (hle (by decide))⟩
    issuer := ⟨slice wire 65 97, length_slice (hle (by decide))⟩
    recipient := ⟨slice wire 97 129, length_slice (hle (by decide))⟩
    caps := wire.getD 129 0
    issuedAt := UInt64.ofNat (beNat (slice wire 130 138))
    expiresAt := UInt64.ofNat (beNat (slice wire 138 146)) }

def signatureOfWire (wire : Bytes) (h : wire.length = RELAY_CAP_WIRE_LEN) : BytesN 64 :=
  ⟨slice wire 146 210, length_slice (by rw [h]; decide)⟩

variable {wire : Bytes} {signature' : BytesN 64}

theorem wire_eq (h : wire.length = RELAY_CAP_WIRE_LEN)
    (hversion : wire.getD 0 0 = RELAY_CAP_VERSION) :
    wire = (rawOfWire wire h).canonicalBytes ++ (signatureOfWire wire h).toBytes := by
  have hlen : wire.length = 210 := h
  have htime : ∀ a, a + 8 ≤ 210 →
      beBytes 8 (UInt64.ofNat (beNat (slice wire a (a + 8)))).toNat = slice wire a (a + 8) := by
    intro a ha
    have height : (slice wire a (a + 8)).length = 8 := by
      rw [length_slice (by omega)]
      omega
    have hlt := beNat_lt (slice wire a (a + 8))
    have hback := beBytes_beNat (slice wire a (a + 8))
    rw [height] at hlt hback
    rw [UInt64.toNat_ofNat_of_lt' hlt, hback]
  have hbyte : ∀ a, a < 210 → [wire.getD a 0] = slice wire a (a + 1) := fun a ha =>
    (slice_succ (by omega)).symm
  have hfirst : [RELAY_CAP_VERSION] = slice wire 0 1 := by rw [← hversion, hbyte 0 (by decide)]
  have hcaps : [wire.getD 129 0] = slice wire 129 130 := hbyte 129 (by decide)
  have hissued := htime 130 (by decide)
  have hexpires := htime 138 (by decide)
  calc wire = slice wire 0 210 := by rw [← hlen, slice_zero_length]
    _ = slice wire 0 146 ++ slice wire 146 210 :=
        (slice_append_slice (by decide) (by decide)).symm
    _ = (rawOfWire wire h).canonicalBytes ++ (signatureOfWire wire h).toBytes := by
        refine congrArg (· ++ slice wire 146 210) (Eq.symm ?_)
        show [RELAY_CAP_VERSION] ++ (slice wire 1 33 ++ (slice wire 33 65 ++ (slice wire 65 97
          ++ (slice wire 97 129 ++ ([wire.getD 129 0]
            ++ (beBytes 8 (UInt64.ofNat (beNat (slice wire 130 138))).toNat
              ++ beBytes 8 (UInt64.ofNat (beNat (slice wire 138 146))).toNat)))))) = slice wire 0 146
        rw [hissued, hexpires, hfirst, hcaps]
        repeat rw [slice_append_slice (by decide) (by decide)]

theorem readU64BE_eq (h : wire.length = RELAY_CAP_WIRE_LEN) {off : Nat} (hoff : off + 8 ≤ 210) :
    readU64BE wire off = toNumber (UInt64.ofNat (beNat (slice wire off (off + 8)))).toNat := by
  have height : (slice wire off (off + 8)).length = 8 := by
    rw [length_slice (by rw [h]; exact hoff)]
    omega
  have hlt := beNat_lt (slice wire off (off + 8))
  rw [height] at hlt
  rw [readU64BE, UInt64.toNat_ofNat_of_lt' hlt]

theorem readCapability_ofWire (h : wire.length = RELAY_CAP_WIRE_LEN) :
    readCapability (rawOfWire wire h) (signatureOfWire wire h)
      = { fabricId := hexStr (slice wire 1 33)
          serverId := hexStr (slice wire 33 65)
          issuer := hexStr (slice wire 65 97)
          recipient := hexStr (slice wire 97 129)
          capsBits := wire.getD 129 0
          caps := namedCaps (wire.getD 129 0)
          issuedAt := readU64BE wire 130
          expiresAt := readU64BE wire 138
          signature := hexStr (slice wire 146 210) } := by
  rw [readU64BE_eq h (by decide), readU64BE_eq h (by decide)]
  rfl

theorem wire_injective {raw raw' : RelayCapRaw} {signature : BytesN 64}
    (hcaps : RelayCapV1.KnownCaps raw.caps) (hcaps' : RelayCapV1.KnownCaps raw'.caps)
    (h : raw.canonicalBytes ++ signature.toBytes = raw'.canonicalBytes ++ signature'.toBytes) :
    raw = raw' ∧ signature = signature' := by
  have hscan := (RelayCapRaw.codes_scan _ raw signature.toBytes).mpr ⟨hcaps, rfl⟩
  have hscan' := (RelayCapRaw.codes_scan _ raw' signature'.toBytes).mpr ⟨hcaps', h⟩
  rw [hscan, Except.ok.injEq, Prod.mk.injEq] at hscan'
  exact ⟨hscan'.1, BytesN.toBytes_injective hscan'.2⟩

theorem getD_caps (raw : RelayCapRaw) (signature : BytesN 64) :
    (raw.canonicalBytes ++ signature.toBytes).getD 129 0 = raw.caps := by
  let pre := [RELAY_CAP_VERSION] ++ (raw.fabricId.toBytes ++ (raw.serverId.toBytes
    ++ (raw.issuer.toBytes ++ raw.recipient.toBytes)))
  let post := beBytes 8 raw.issuedAt.toNat ++ (beBytes 8 raw.expiresAt.toNat ++ signature.toBytes)
  have hpre : pre.length = 129 := by
    simp only [pre, List.length_append, BytesN.length_toBytes, List.length_singleton]
  have hwire : raw.canonicalBytes ++ signature.toBytes = pre ++ ([raw.caps] ++ post) := by
    simp only [RelayCapRaw.canonicalBytes, pre, post, List.append_assoc]
  have hlt : 129 < (pre ++ ([raw.caps] ++ post)).length := by
    rw [List.length_append, hpre]
    exact Nat.lt_add_of_pos_right (Nat.zero_lt_succ _)
  have hslice := slice_succ hlt
  rw [slice_append hpre (by rfl), List.cons.injEq] at hslice
  rw [hwire]
  exact hslice.1.symm

theorem utf16Length_append (s t : String) :
    utf16Length (s ++ t) = utf16Length s + utf16Length t := by
  simp only [utf16Length, String.toList_append, List.map_append, List.sum_append]

theorem utf16Length_base64Encode (bytes : Bytes) :
    utf16Length (base64Encode bytes) = (base64Text bytes).length := by
  have hunit : ∀ n < 128, ¬0x10000 ≤ (Char.ofNat n).toNat := by decide
  rw [utf16Length, base64Encode, String.toList_ofList, List.map_map]
  have hones : (base64Text bytes).map
      ((fun c : Char => if 0x10000 ≤ c.toNat then 2 else 1) ∘ fun b => Char.ofNat b.toNat)
      = (base64Text bytes).map fun _ => 1 :=
    List.map_congr_left fun b hb =>
      if_neg (hunit _ (lt_of_isBase64 (isBase64_base64Text bytes b hb)))
  rw [hones, List.map_const', List.sum_replicate_nat, Nat.mul_one]

/-- **The texts that `decodeCapability` accepts.** -/
theorem decodeCapability_eq_ok {s : String} {d : DecodedCapability} :
    decodeCapability s = .ok d ↔ ∃ (raw : RelayCapRaw) (signature : BytesN 64),
      RelayCapV1.KnownCaps raw.caps ∧ readCapability raw signature = d
        ∧ s = raw.token signature := by
  unfold decodeCapability
  simp only [bind_eq_ok, okOr_eq_ok, stripPrefix_eq_some, mapError_eq_ok, ite_throw_eq_ok,
    pure_eq_ok, fromBase64UrlNoPad_eq_ok]
  constructor
  · rintro ⟨encoded, rfl, -, hunits, wire, ⟨t, ht, htext⟩, hlen, hversion, hcaps, rfl⟩
    have hlen' : wire.length = RELAY_CAP_WIRE_LEN := not_not.mp hlen
    have hencode := base64Encode_of_base64Decode ht
    -- 280 digits are whole groups, so that the text has no other digit
    have hplain : encoded = t := by
      rcases htext with rfl | ⟨-, rfl⟩
      · rfl
      · have hcount := not_not.mp hunits
        rw [utf16Length_append, ← hencode, utf16Length_base64Encode, length_base64Text,
          hlen'] at hcount
        exact absurd hcount (by decide)
    refine ⟨rawOfWire wire hlen', signatureOfWire wire hlen', not_not.mp hcaps,
      readCapability_ofWire hlen', ?_⟩
    rw [hplain, RelayCapRaw.token, ← wire_eq hlen' (not_not.mp hversion), hencode]
  · rintro ⟨raw, signature, hcaps, rfl, rfl⟩
    have hlen : (raw.canonicalBytes ++ signature.toBytes).length = RELAY_CAP_WIRE_LEN := by
      rw [List.length_append, RelayCapRaw.length_canonicalBytes, signature.length_toBytes]
      rfl
    have hunits : utf16Length (base64Encode (raw.canonicalBytes ++ signature.toBytes))
        = RELAY_CAP_ENCODED_LEN := by
      rw [utf16Length_base64Encode, length_base64Text, hlen]
      decide
    have hstart : utf16Length RELAY_CAP_TOKEN_PREFIX = 7 := by decide
    have hversion : (raw.canonicalBytes ++ signature.toBytes).getD 0 0 = RELAY_CAP_VERSION := rfl
    have hbits : (raw.canonicalBytes ++ signature.toBytes).getD 129 0 = raw.caps :=
      getD_caps raw signature
    have hknown : RelayCapV1.KnownCaps (rawOfWire _ hlen).caps := by
      show RelayCapV1.KnownCaps ((raw.canonicalBytes ++ signature.toBytes).getD 129 0)
      rw [hbits]
      exact hcaps
    obtain ⟨hraw, hsignature⟩ := wire_injective hcaps hknown (wire_eq hlen hversion)
    refine ⟨_, rfl, ?_, not_not.mpr hunits, _, ⟨_, base64Decode_base64Encode _, .inl rfl⟩,
      not_not.mpr hlen, not_not.mpr hversion, not_not.mpr hknown, ?_⟩
    · rw [RelayCapRaw.token, utf16Length_append, hunits, hstart]
      decide
    · rw [← readCapability_ofWire hlen, ← hraw, ← hsignature]

theorem text_injective {raw raw' : InviteV2Raw} {signature : BytesN 64} (hfits : raw.Fits)
    (hfits' : raw'.Fits) (h : raw.text signature = raw'.text signature') :
    raw = raw' ∧ signature = signature' := by
  have hread := InviteV2Raw.decodeWire_eq_ok.mpr ⟨hfits, Eq.refl (raw.text signature)⟩
  have hread' := InviteV2Raw.decodeWire_eq_ok.mpr ⟨hfits', h⟩
  rw [hread, Except.ok.injEq, Prod.mk.injEq] at hread'
  exact hread'

/-- The texts of the wire layer are of two lengths in groups, so that none is another with an `A`
behind it. -/
theorem text_ne_dangling {raw raw' : InviteV2Raw} {signature : BytesN 64}
    (hgroups : 3 ∣ raw'.layout.length + 64) : raw.text signature ≠ raw'.text signature' ++ "A" := by
  intro heq
  have hlen := congrArg (fun s => (utf8Bytes s).length) heq
  have hlast : (utf8Bytes "A").length = 1 := by decide
  simp only [InviteV2Raw.text, utf8Bytes_append, List.length_append, utf8Bytes_base64Encode,
    length_base64Text, signature.length_toBytes, signature'.length_toBytes, hlast] at hlen
  omega

/-! ## Agreement -/

theorem exists_error_iff {α : Type} {x : Except TokenError α} :
    (∃ e, x = .error e) ↔ ∀ a, x ≠ .ok a := by
  cases x with
  | error e => exact iff_of_true ⟨e, rfl⟩ fun a => nofun
  | ok a => exact iff_of_false (fun ⟨_, h⟩ => nomatch h) fun h => h a rfl

section

variable [Crypto]

def rustRelay (relay : InviteRelayV2) : DecodedRelay where
  url := relay.url
  capability := relay.capability
  hasCapability := relay.capability.isSome

/-- The fields of an invite as the Rust decoder has them, the keys in hexadecimal. -/
def rustInvite (invite : InviteV2) : DecodedInvite where
  fabricId := hexStr invite.fabricId.toBytes
  inviteId := hexStr invite.inviteId.toBytes
  issuer := hexStr invite.issuer.asBytes.toBytes
  expiresAtMs := invite.expiresAtMs.toNat
  recipient := hexStr invite.recipient.asBytes.toBytes
  relays := invite.relays.map rustRelay
  directAddrs := invite.directAddrs.map SocketAddr.display

/-- The fields of a capability as the Rust decoder has them. -/
def rustCapability (cap : RelayCapV1) (signature : Signature) : DecodedCapability where
  fabricId := hexStr cap.fabricId.toBytes
  serverId := hexStr cap.serverId.toBytes
  issuer := hexStr cap.issuer.asBytes.toBytes
  recipient := hexStr cap.recipient.asBytes.toBytes
  capsBits := cap.caps
  caps := namedCaps cap.caps
  issuedAt := cap.issuedAt.toNat
  expiresAt := cap.expiresAt.toNat
  signature := hexStr signature.toBytes

structure Faithful (invite : InviteV2) : Prop where
  expiresAtMs : ExactNumber invite.expiresAtMs.toNat
  url : ∀ relay ∈ invite.relays, ∀ u, relay.url ≠ "\uFEFF" ++ u
  addr : ∀ addr ∈ invite.directAddrs, ¬addr.Ipv4Mapped

theorem stripBom_of_decode {cap : String} {parsed : RelayCapV1}
    (h : RelayCapV1.decode cap = .ok parsed) : stripBom cap = cap := by
  obtain ⟨-, signature, rfl⟩ := RelayCapV1.decode_eq_ok.mp h
  refine stripBom_eq_self.mpr fun u heq => ?_
  have hhead := congrArg (fun s : String => s.toList.head?) heq
  rw [RelayCapV1.token] at hhead
  simp only [String.toList_append] at hhead
  have hstart : RELAY_CAP_TOKEN_PREFIX.toList = ['d', 'w', 'e', 'b', 'r', '1', '.'] := by
    decide
  have hmark : "\uFEFF".toList = ['\uFEFF'] := by decide
  rw [hstart, hmark] at hhead
  exact absurd (Option.some.inj hhead) (by decide)

theorem readRelay_eq_iff {recipient : EndpointId} {expiresAtMs : UInt64} {relay : InviteRelayV2}
    (h : InviteV2.RelayFits recipient expiresAtMs relay) :
    readRelay relay = rustRelay relay ↔ ∀ u, relay.url ≠ "\uFEFF" ++ u := by
  have hcap : relay.capability.map stripBom = relay.capability := by
    cases hcap : relay.capability with
    | none => rfl
    | some cap =>
      obtain ⟨parsed, hparsed, -⟩ := (h.capability cap hcap).reads
      rw [Option.map_some, stripBom_of_decode hparsed]
  rw [readRelay, rustRelay, DecodedRelay.mk.injEq, hcap, stripBom_eq_self]
  exact ⟨fun hall => hall.1, fun hurl => ⟨hurl, rfl, rfl⟩⟩

theorem readInvite_eq_iff {invite : InviteV2} (h : invite.Canonical) :
    readInvite invite.carried.raw = rustInvite invite.carried ↔ Faithful invite := by
  have hrelays : invite.relays.map readRelay = invite.relays.map rustRelay
      ↔ ∀ relay ∈ invite.relays, ∀ u, relay.url ≠ "\uFEFF" ++ u := by
    rw [List.map_inj_left]
    exact forall₂_congr fun relay hmem => readRelay_eq_iff (h.relay relay hmem)
  have haddrs : (invite.directAddrs.map SocketAddr.carried).map formatAddr
        = (invite.directAddrs.map SocketAddr.carried).map SocketAddr.display
      ↔ ∀ addr ∈ invite.directAddrs, ¬addr.Ipv4Mapped := by
    rw [List.map_inj_left, List.forall_mem_map]
    refine forall₂_congr fun addr _ => ?_
    rw [formatAddr_eq_display_iff addr.carried_carried, SocketAddr.ipv4Mapped_carried]
  have hexpires := @toNumber_eq_iff invite.expiresAtMs.toNat
  simp only [readInvite, rustInvite, InviteV2.raw, InviteV2.carried, DecodedInvite.mk.injEq,
    hrelays, haddrs, hexpires, true_and]
  constructor
  · rintro ⟨htime, hurl, haddr⟩
    exact ⟨htime, hurl, haddr⟩
  · intro hfaithful
    exact ⟨hfaithful.expiresAtMs, hfaithful.url, hfaithful.addr⟩

/-- **The SDK on the text of an invite.** -/
theorem decodeInvite_text_eq_iff {token : InviteV2Token} (h : token.invite.Canonical) :
    decodeInvite token.text = .ok (rustInvite token.carried.invite) ↔ Faithful token.invite := by
  have hfits : token.invite.carried.raw.Fits :=
    (InviteV2.canonical_carried h).fits_raw token.invite.carried_carried
  have htext : token.text = token.invite.carried.raw.text token.signature := by
    show TOKEN2_PREFIX ++ base64Encode (token.invite.layout ++ _)
      = TOKEN2_PREFIX ++ base64Encode (token.invite.carried.layout ++ _)
    rw [InviteV2.layout_carried]
  rw [← readInvite_eq_iff h, decodeInvite_eq_ok, htext]
  constructor
  · rintro ⟨raw, signature, hraw, hread, heq | ⟨hgroups, heq⟩⟩
    · obtain ⟨rfl, -⟩ := text_injective hfits hraw heq
      exact hread
    · exact absurd heq (text_ne_dangling hgroups)
  · intro hread
    exact ⟨_, _, hfits, hread, .inl rfl⟩

/-- **The SDK on the text of a capability.** -/
theorem decodeCapability_token_eq_iff {cap : RelayCapV1} {signature : Signature}
    (h : RelayCapV1.KnownCaps cap.caps) :
    decodeCapability (cap.token signature) = .ok (rustCapability cap signature)
      ↔ ExactNumber cap.issuedAt.toNat ∧ ExactNumber cap.expiresAt.toNat := by
  rw [← toNumber_eq_iff, ← toNumber_eq_iff, decodeCapability_eq_ok]
  have hread : readCapability cap.raw signature = rustCapability cap signature
      ↔ toNumber cap.issuedAt.toNat = cap.issuedAt.toNat
        ∧ toNumber cap.expiresAt.toNat = cap.expiresAt.toNat := by
    simp only [readCapability, rustCapability, RelayCapV1.raw, DecodedCapability.mk.injEq, true_and,
      and_true]
  rw [← hread]
  constructor
  · rintro ⟨raw, signature', hcaps, hd, heq⟩
    have hwire : cap.raw.canonicalBytes ++ signature.toBytes
        = raw.canonicalBytes ++ signature'.toBytes := by
      have hdecode := base64Decode_base64Encode (cap.raw.canonicalBytes ++ signature.toBytes)
      have htail := String.append_right_inj RELAY_CAP_TOKEN_PREFIX |>.mp heq
      rw [show base64Encode (cap.raw.canonicalBytes ++ signature.toBytes) = _ from htail,
        base64Decode_base64Encode] at hdecode
      exact (Option.some.inj hdecode).symm
    obtain ⟨rfl, rfl⟩ := wire_injective h hcaps hwire
    exact hd
  · intro hd
    exact ⟨cap.raw, signature, h, hd, rfl⟩

theorem read_of_text {token read : InviteV2Token} (h : token.invite.Canonical)
    (hread : InviteV2Token.decode token.text = .ok read) : read = token.carried := by
  obtain ⟨hcanon, -, htext⟩ := InviteV2Token.decode_eq_ok.mp hread
  have hpayload := tokenPayload_eq_ok.mpr (Eq.refl token.text)
  rw [tokenPayload_eq_ok.mpr htext, Except.ok.injEq, Prod.mk.injEq] at hpayload
  obtain ⟨hlayout, hsignature⟩ := hpayload
  have hinvite := InviteV2.decodeStrict_canonicalBytes
    (InviteV2.canonicalBytes_eq_ok.mpr ⟨h, rfl⟩)
  rw [← hlayout, InviteV2.decodeStrict_eq_ok.mpr ⟨hcanon, rfl⟩, Except.ok.injEq] at hinvite
  show (⟨read.invite, read.signature⟩ : InviteV2Token) = ⟨token.invite.carried, token.signature⟩
  rw [hinvite, hsignature]

/-- **The token decoders agree**, but for the notation of an address that holds an IPv4 address,
of a number above 53 significant bits and of a URL behind a mark; and they reject the same texts,
but for an `A` behind whole groups. -/
theorem token_decoders_agree :
    (∀ (secret : Crypto.SecretKey) (invite : InviteV2) (token : InviteV2Token) (s : String),
      InviteV2Token.sign invite secret = .ok token → token.encode = .ok s →
      (∀ read, InviteV2Token.decode s = .ok read → read = token.carried)
      ∧ (decodeInvite s = .ok (rustInvite token.carried.invite) ↔ Faithful invite))
    ∧ (∀ (secret : Crypto.SecretKey) (fabricId : FabricId) (serverId : BytesN 32)
        (recipient : EndpointId) (caps : UInt8) (issuedAt expiresAt : UInt64) (s : String),
      RelayCapV1.signAndEncode secret fabricId serverId recipient caps issuedAt expiresAt = .ok s →
      ∃ cap signature, RelayCapV1.decode s = .ok cap ∧ s = cap.token signature
        ∧ (decodeCapability s = .ok (rustCapability cap signature)
          ↔ ExactNumber issuedAt.toNat ∧ ExactNumber expiresAt.toNat))
    ∧ (∀ s e, InviteV2Raw.decodeWire s = .error e →
      ((∃ e', decodeInvite s = .error e') ↔ ¬Dangling s))
    ∧ ∀ s e, RelayCapRaw.decodeWire s = .error e → ∃ e', decodeCapability s = .error e' := by
  refine ⟨fun secret invite token s hsign hencode => ?_,
    fun secret fabricId serverId recipient caps issuedAt expiresAt s hs => ?_,
    fun s e hreject => ?_, fun s e hreject => ?_⟩
  · obtain ⟨_, -, hpure⟩ := bind_eq_ok.mp hsign
    cases pure_eq_ok.mp hpure
    obtain ⟨hcanon, rfl⟩ := InviteV2Token.encode_eq_ok.mp hencode
    refine ⟨fun read hread => ?_, decodeInvite_text_eq_iff hcanon⟩
    exact read_of_text hcanon hread
  · obtain ⟨hcaps, -, -, cap, rfl, rfl⟩ := RelayCapV1.signAndEncode_eq_ok hs
    exact ⟨_, _, RelayCapV1.decode_eq_ok.mpr ⟨hcaps, _, rfl⟩, rfl,
      decodeCapability_token_eq_iff hcaps⟩
  · rw [exists_error_iff]
    constructor
    · rintro hnone ⟨raw, signature, hfits, hgroups, rfl⟩
      exact hnone _ (decodeInvite_eq_ok.mpr ⟨raw, signature, hfits, rfl, .inr ⟨hgroups, rfl⟩⟩)
    · intro hdangling d hd
      obtain ⟨raw, signature, hfits, -, rfl | ⟨hgroups, rfl⟩⟩ := decodeInvite_eq_ok.mp hd
      · rw [InviteV2Raw.decodeWire_eq_ok.mpr ⟨hfits, rfl⟩] at hreject
        cases hreject
      · exact hdangling ⟨raw, signature, hfits, hgroups, rfl⟩
  · refine exists_error_iff.mpr fun d hd => ?_
    obtain ⟨raw, signature, hcaps, -, rfl⟩ := decodeCapability_eq_ok.mp hd
    rw [RelayCapRaw.decodeWire_eq_ok.mpr ⟨hcaps, signature, rfl⟩] at hreject
    cases hreject

end

/-! ## Known answers -/

namespace SampleTokens

open SampleInvites (issuer recipient fabricId inviteId)

def mapped : SocketAddr :=
  .v6 ⟨[0, 0, 0, 0, 0, 0, 0, 0, 0, 0, 0xff, 0xff, 192, 0, 2, 1], rfl⟩ 4433 0 0

def bytes : Bytes :=
  INVITE2_DOMAIN ++ ([INVITE2_VERSION] ++ (fabricId.toBytes ++ (inviteId.toBytes
    ++ (issuer.toBytes ++ (beBytes 8 1800000000000 ++ (recipient.toBytes ++ ([0] ++ ([1]
      ++ mapped.field))))))))

def signature : BytesN 64 :=
  let r := 46695163003465628809146135133802448175608273953639870095859000980321374519951
  let s := 42840790004056489208495180683862088127556685650119314716676934893268672980239
  .ofNat 64 (r * 2 ^ 256 + s)

@[reducible] def crypto : Crypto := .known [issuer, recipient] [] [(issuer, bytes, signature)]

section

attribute [local instance] crypto

theorem mapped_addr_shown_otherwise :
    ∃ (secret : Crypto.SecretKey) (invite : InviteV2) (token : InviteV2Token) (s : String),
      InviteV2Token.sign invite secret = .ok token ∧ token.encode = .ok s
      ∧ InviteV2Token.decode s = .ok token
      ∧ decodeInvite s ≠ .ok (rustInvite token.invite) := by
  let secret : Crypto.SecretKey := ⟨issuer, by decide⟩
  let invite : InviteV2 :=
    { fabricId
      inviteId
      issuer := ⟨issuer, by decide⟩
      expiresAtMs := 1800000000000
      recipient := ⟨recipient, by decide⟩
      relays := []
      directAddrs := [mapped] }
  let token : InviteV2Token := ⟨invite, Crypto.sign secret invite.layout⟩
  have hcanon : invite.Canonical :=
    ⟨by decide, by decide, fun relay hmem => absurd hmem List.not_mem_nil⟩
  have hcarried : invite.Carried := fun addr hmem => by
    rw [List.mem_singleton.mp hmem]
    rfl
  have hverified : token.Verified := by
    unfold InviteV2Token.Verified
    decide +kernel
  refine ⟨secret, invite, token, token.text,
    bind_eq_ok.mpr ⟨_, InviteV2.canonicalBytes_eq_ok.mpr ⟨hcanon, rfl⟩, rfl⟩,
    InviteV2Token.encode_eq_ok.mpr ⟨hcanon, rfl⟩,
    InviteV2Token.decode_eq_ok.mpr ⟨⟨hcanon, hcarried⟩, hverified, rfl⟩, fun heq => ?_⟩
  have hfaithful := (decodeInvite_text_eq_iff hcanon).mp heq
  exact hfaithful.addr mapped List.mem_cons_self (by decide)

end

attribute [local instance] SampleInvites.crypto

theorem token_decoders_agree_linkLocal :
    (∃ token s, InviteV2Token.sign SampleInvites.inviteV2 SampleInvites.secret = .ok token
      ∧ token.encode = .ok s ∧ decodeInvite s = .ok (rustInvite token.carried.invite))
    ∧ (∃ s cap signature, RelayCapV1.decode s = .ok cap
      ∧ decodeCapability s = .ok (rustCapability cap signature))
    ∧ (∃ e, decodeInvite "" = .error e) ∧ ∃ e, decodeCapability "" = .error e := by
  obtain ⟨hinvite, hcapability, hrejects, hrejects'⟩ := token_decoders_agree
  refine ⟨?_, ?_, ?_, hrejects' "" _ rfl⟩
  · let token : InviteV2Token :=
      ⟨SampleInvites.inviteV2, Crypto.sign SampleInvites.secret SampleInvites.inviteV2.layout⟩
    have hcanon := SampleInvites.canonical_inviteV2
    have hsign : InviteV2Token.sign SampleInvites.inviteV2 SampleInvites.secret = .ok token :=
      bind_eq_ok.mpr ⟨_, InviteV2.canonicalBytes_eq_ok.mpr ⟨hcanon, rfl⟩, rfl⟩
    have hencode : token.encode = .ok token.text :=
      InviteV2Token.encode_eq_ok.mpr ⟨hcanon, rfl⟩
    have hfaithful : Faithful SampleInvites.inviteV2 :=
      { expiresAtMs := by decide
        url := fun relay hmem => absurd hmem List.not_mem_nil
        addr := fun addr hmem => by
          rw [List.mem_singleton.mp hmem]
          decide }
    exact ⟨token, token.text, hsign, hencode,
      (hinvite _ _ _ _ hsign hencode).2.mpr hfaithful⟩
  · have hs : ∃ s, RelayCapV1.signAndEncode SampleInvites.secret fabricId issuer
        ⟨recipient, by decide⟩ 7 1800000000000 1800003600000 = .ok s := ⟨_, rfl⟩
    obtain ⟨s, hs⟩ := hs
    obtain ⟨cap, signature, hread, -, hagrees⟩ := hcapability _ _ _ _ _ _ _ _ hs
    exact ⟨s, cap, signature, hread, hagrees.mpr ⟨by decide, by decide⟩⟩
  · refine (hrejects "" _ rfl).mpr ?_
    rintro ⟨raw, signature, -, -, heq⟩
    have hlen := congrArg String.length heq
    have hempty : "".length = 0 := rfl
    have hone : "A".length = 1 := rfl
    rw [String.length_append] at hlen
    omega

end SampleTokens

end Dweb.TokenSdk
