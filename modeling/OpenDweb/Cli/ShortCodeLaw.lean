import OpenDweb.Cli.ShortCodeBits
import OpenDweb.Lib.Except

/-!
# OpenDweb — what a short code is

* **`CodeAddress`** — an address that a code can carry, with its bytes, its text and its code.
* **`encodeShortCode_eq_ok`**, **`decodeShortCode_eq_ok`** — the codec in these terms.
* **`IsShortCode`** — some code that the encoder gives, in any ASCII case and with hyphens or not;
  **`Mutated`** — with a character replaced, or two swapped.
* **`ForeignCode`** — the strings beyond: with the port 0, or with a Kelvin sign for a `k`.
* **`short_code_law`** — for all others the decoder accepts what the encoder gives.
-/

namespace Dweb

open List Bool

/-! ## Addresses -/

inductive CodeAddress where
  | v4 (bytes : List Nat) (hlen : bytes.length = 4) (hlt : ∀ b ∈ bytes, b < 256)
  | v6 (groups : List Nat) (hgroups : IsGroups groups)
    (hroutable : isLinkLocalIpv6 groups = false)

namespace CodeAddress

def payload : CodeAddress → List Nat
  | v4 bytes _ _ => 0x01 :: bytes
  | v6 groups _ _ => 0x02 :: groups.flatMap twoBytes

def text : CodeAddress → List Char
  | v4 bytes _ _ => ipv4Text bytes
  | v6 groups _ _ => formatIpv6Groups groups

def count : CodeAddress → Nat
  | v4 _ _ _ => 15
  | v6 _ _ _ => 34

def bytes (a : CodeAddress) (port : Nat) : List Nat := shortCodeBytes (a.payload ++ twoBytes port)

def data (a : CodeAddress) (port : Nat) : List Char := bytesToCrockford (a.bytes port)

def code (a : CodeAddress) (port : Nat) : List Char := shortCodePrefix ++ a.data port

def decoded (a : CodeAddress) (port : Nat) : DecodedCode :=
  match a with
  | v4 _ _ _ => ⟨a.text, port, "http://".toList ++ a.text ++ ":".toList ++ toDecimal port, 4⟩
  | v6 _ _ _ => ⟨a.text, port, "http://[".toList ++ a.text ++ "]:".toList ++ toDecimal port, 6⟩

def ReadFrom (a : CodeAddress) (ip : List Char) : Prop :=
  match a with
  | v4 bytes _ _ => isIPv4 ip = true ∧ ip = ipv4Text bytes
  | v6 groups _ _ => isIPv4 ip = false ∧ parseIpv6Groups ip = some groups

end CodeAddress

section

variable {a b : CodeAddress} {port : Nat}

theorem forall_mem_flatMap_twoBytes {groups : List Nat} (h : ∀ g ∈ groups, g < 2 ^ 16) :
    ∀ b ∈ groups.flatMap twoBytes, b < 256 := by
  intro b hmem
  obtain ⟨g, hg, hb⟩ := mem_flatMap.mp hmem
  exact twoBytes_lt (h g hg) b hb

theorem CodeAddress.payload_lt (a : CodeAddress) : ∀ b ∈ a.payload, b < 256 := by
  cases a with
  | v4 bytes hlen hlt => exact forall_mem_cons.mpr ⟨by decide, hlt⟩
  | v6 groups hgroups hroutable =>
    exact forall_mem_cons.mpr ⟨by decide, forall_mem_flatMap_twoBytes hgroups.2⟩

theorem CodeAddress.checked_lt (a : CodeAddress) (hport : port < 2 ^ 16) :
    ∀ b ∈ a.payload ++ twoBytes port, b < 256 :=
  forall_mem_append.mpr ⟨a.payload_lt, twoBytes_lt hport⟩

theorem shortCodeBytes_eq (payload : List Nat) :
    shortCodeBytes payload = payload ++ twoBytes (crc16CcittFalse payload) := rfl

theorem CodeAddress.bytes_lt (a : CodeAddress) (hport : port < 2 ^ 16) :
    ∀ b ∈ a.bytes port, b < 256 := by
  rw [CodeAddress.bytes, shortCodeBytes_eq]
  exact forall_mem_append.mpr ⟨a.checked_lt hport,
    twoBytes_lt (crc16CcittFalse_lt (a.checked_lt hport))⟩

theorem length_flatMap_twoBytes (groups : List Nat) :
    (groups.flatMap twoBytes).length = 2 * groups.length := by
  induction groups with
  | nil => rfl
  | cons g groups ih =>
    rw [flatMap_cons, length_append, ih, length_cons, twoBytes]
    simp only [length_cons, length_nil]
    omega

theorem CodeAddress.length_payload (a : CodeAddress) :
    a.count = 15 ∧ a.payload.length = 5 ∨ a.count = 34 ∧ a.payload.length = 17 := by
  cases a with
  | v4 bytes hlen hlt => exact .inl ⟨rfl, congrArg (· + 1) hlen⟩
  | v6 groups hgroups hroutable =>
    refine .inr ⟨rfl, ?_⟩
    rw [CodeAddress.payload, length_cons, length_flatMap_twoBytes, hgroups.1]

theorem CodeAddress.length_data (a : CodeAddress) (hport : port < 2 ^ 16) :
    (a.data port).length = a.count := by
  obtain ⟨pad, hpad, hbits⟩ := textBits_bytesToCrockford (a.bytes_lt hport)
  have hlen := congrArg List.length hbits
  rw [length_textBits, length_append, length_replicate, length_byteBits] at hlen
  have hbytes : (a.bytes port).length = a.payload.length + 4 := by
    rw [CodeAddress.bytes, shortCodeBytes_eq, length_append, length_append]
    rfl
  rw [hbytes] at hlen
  rw [CodeAddress.data]
  rcases a.length_payload with ⟨hcount, hpayload⟩ | ⟨hcount, hpayload⟩ <;> omega

theorem CodeAddress.textBits_data (a : CodeAddress) (hport : port < 2 ^ 16) : ∃ pad,
    textBits (a.data port) = byteBits (a.bytes port) ++ List.replicate pad false := by
  obtain ⟨pad, -, hbits⟩ := textBits_bytesToCrockford (a.bytes_lt hport)
  exact ⟨pad, hbits⟩

theorem CodeAddress.reverse_data (a : CodeAddress) (port : Nat) :
    ∀ ch ∈ a.data port, crockfordReverse ch ≠ none :=
  crockfordReverse_of_mem_crockfordLoop

/-- **A code empties the register**, padding and all. -/
theorem CodeAddress.feed_data (a : CodeAddress) (hport : port < 2 ^ 16) :
    crc16Feed (textBits (a.data port)) = 0 := by
  obtain ⟨pad, hbits⟩ := a.textBits_data hport
  have hchecked := a.checked_lt hport
  have hzero := (crc16CcittFalse_eq_iff hchecked (crc16CcittFalse_lt hchecked)).mp rfl
  rw [hbits, CodeAddress.bytes, shortCodeBytes_eq, byteBits_append _ (twoBytes _),
    byteBits_twoBytes, crc16Feed, crcFeed_append]
  rw [crc16Feed] at hzero
  rw [hzero]
  exact crcFeed_zeros pad

/-! ## Encoding -/

theorem ipv4Bytes_of_four {bytes : List Nat} (h : bytes.length = 4) :
    ipv4Bytes (ipv4Text bytes) = bytes := by
  refine ipv4Bytes_ipv4Text fun hnil => ?_
  rw [hnil] at h
  cases h

theorem addressPayload_eq_ok {ip : List Char} {payload : List Nat} :
    addressPayload ip = .ok payload ↔ ∃ a : CodeAddress, a.ReadFrom ip ∧ a.payload = payload := by
  rw [addressPayload]
  constructor
  · intro h
    split at h
    · next hip =>
      obtain ⟨bytes, hlen, hlt, heq⟩ := isIPv4_iff.mp hip
      rw [heq, ipv4Bytes_of_four hlen] at h
      exact ⟨.v4 bytes hlen hlt, ⟨hip, heq⟩, Except.ok.inj h⟩
    · next hip =>
      split at h
      · cases h
      · next groups hgroups =>
        split at h
        · cases h
        · next hroutable =>
          exact ⟨.v6 groups (parseIpv6Groups_isGroups hgroups) (eq_false_of_ne_true hroutable),
            ⟨eq_false_of_ne_true hip, hgroups⟩, Except.ok.inj h⟩
  · rintro ⟨a, hread, hpayload⟩
    subst hpayload
    cases a with
    | v4 bytes hlen hlt =>
      obtain ⟨hip, heq⟩ := hread
      rw [if_pos hip, heq, ipv4Bytes_of_four hlen]
      rfl
    | v6 groups hgroups hroutable =>
      obtain ⟨hip, hparse⟩ := hread
      rw [if_neg (ne_true_of_eq_false hip), hparse]
      simp only
      rw [if_neg (ne_true_of_eq_false hroutable)]
      rfl

/-- **What the encoder accepts, and what it gives.** -/
theorem encodeShortCode_eq_ok {ip : List Char} {port : Int} {code : List Char} :
    encodeShortCode ip port = .ok code ↔ ∃ (a : CodeAddress) (n : Nat),
      a.ReadFrom ip ∧ port = n ∧ 1 ≤ n ∧ n ≤ 65535 ∧ code = a.code n := by
  rw [encodeShortCode]
  constructor
  · intro h
    split at h
    · cases h
    · next hrange =>
      obtain ⟨payload, hpayload, h⟩ := bind_eq_ok.mp h
      obtain ⟨a, hread, heq⟩ := addressPayload_eq_ok.mp hpayload
      subst heq
      exact ⟨a, port.toNat, hread, by omega, by omega, by omega, (Except.ok.inj h).symm⟩
  · rintro ⟨a, n, hread, hn, hlow, hhigh, hcode⟩
    rw [if_neg (by omega), addressPayload_eq_ok.mpr ⟨a, hread, rfl⟩, hcode]
    subst hn
    rfl

theorem CodeAddress.readFrom_text (a : CodeAddress) : a.ReadFrom a.text := by
  cases a with
  | v4 bytes hlen hlt => exact ⟨isIPv4_iff.mpr ⟨bytes, hlen, hlt, rfl⟩, rfl⟩
  | v6 groups hgroups hroutable =>
    refine ⟨?_, parseIpv6Groups_formatIpv6Groups hgroups⟩
    have hdot : '.' ∉ formatIpv6Groups groups := fun hmem =>
      forall_mem_formatIpv6Groups (p := (· ≠ '.')) (by decide) (by decide) groups _ hmem rfl
    rw [← not_eq_true, isIPv4, and_eq_true, decide_eq_true_iff]
    rintro ⟨hlen, -⟩
    rw [CodeAddress.text, splitOn_eq_singleton hdot] at hlen
    cases hlen

/-! ## The fields -/

theorem shiftLeft_or_twoBytes (g : Nat) : (g >>> 8) <<< 8 ||| (g &&& 0xff) = g := by
  refine Nat.eq_of_testBit_eq fun i => ?_
  rw [Nat.testBit_or, Nat.testBit_shiftLeft, Nat.testBit_shiftRight, Nat.testBit_and,
    show (0xff : Nat) = 2 ^ 8 - 1 from rfl, Nat.testBit_two_pow_sub_one]
  by_cases hi : 8 ≤ i
  · simp [hi, show ¬ i < 8 by omega]
  · simp [hi, show i < 8 by omega]

theorem twoBytes_shiftLeft_or {a b : Nat} (hb : b < 256) : twoBytes (a <<< 8 ||| b) = [a, b] := by
  have hadd : a <<< 8 ||| b = a * 256 + b := by
    rw [← Nat.shiftLeft_add_eq_or_of_lt hb, Nat.shiftLeft_eq]
  rw [hadd, twoBytes, show (0xff : Nat) = 2 ^ 8 - 1 from rfl, Nat.and_two_pow_sub_one_eq_mod,
    Nat.shiftRight_eq_div_pow, show (a * 256 + b) / 2 ^ 8 = a by omega,
    show (a * 256 + b) % 2 ^ 8 = b by omega]

def groupsOf (ip : List Nat) : List Nat :=
  (List.range 8).map fun i => ip.getD (2 * i) 0 <<< 8 ||| ip.getD (2 * i + 1) 0

theorem groupsOf_flatMap_twoBytes {groups : List Nat} (h : groups.length = 8) :
    groupsOf (groups.flatMap twoBytes) = groups := by
  match groups, h with
  | [a, b, c, d, e, f, g, h], _ =>
    simp [groupsOf, range_succ, twoBytes, flatMap_cons, shiftLeft_or_twoBytes]

theorem flatMap_twoBytes_groupsOf {ip : List Nat} (hlen : ip.length = 16)
    (hlt : ∀ b ∈ ip, b < 256) : (groupsOf ip).flatMap twoBytes = ip := by
  match ip, hlen with
  | [a, b, c, d, e, f, g, h, i, j, k, l, m, n, o, p], _ =>
    simp only [forall_mem_cons] at hlt
    simp [groupsOf, range_succ, flatMap_cons, twoBytes_shiftLeft_or, hlt]

theorem groupsOf_isGroups {ip : List Nat} (hlt : ∀ b ∈ ip, b < 256) : IsGroups (groupsOf ip) := by
  refine ⟨by simp [groupsOf], fun g hmem => ?_⟩
  obtain ⟨i, -, heq⟩ := mem_map.mp hmem
  have hget : ∀ j, ip.getD j 0 < 2 ^ 8 := by
    intro j
    by_cases hj : j < ip.length
    · rw [getD_eq_getElem _ _ hj]
      exact hlt _ (getElem_mem hj)
    · rw [getD_eq_default _ _ (by omega)]
      decide
  rw [← heq]
  refine Nat.or_lt_two_pow ?_ (Nat.lt_of_lt_of_le (hget _) (by decide))
  rw [Nat.shiftLeft_eq]
  have := hget (2 * i)
  omega

/-- **The fields that the decoder accepts.** -/
theorem decodeFields_eq_ok {ver : Nat} {ip : List Nat} {crc : Nat} {r : DecodedCode}
    (hlen : ip.length = 4 ∨ ip.length = 16) (hlt : ∀ b ∈ ip, b < 256) :
    decodeFields ver ip port crc = .ok r ↔ ∃ a : CodeAddress, a.payload = ver :: ip ∧
      crc = crc16CcittFalse (a.payload ++ twoBytes port) ∧ r = a.decoded port := by
  rw [decodeFields]
  constructor
  · intro h
    split at h
    · cases h
    · next hver =>
      split at h
      · cases h
      · next hfamily =>
        simp only at h
        split at h
        · cases h
        · next hcrc =>
          have hcrc : crc = crc16CcittFalse (ver :: ip ++ twoBytes port) := not_not.mp hcrc
          split at h
          · next hv6 =>
            split at h
            · cases h
            · next hroutable =>
              cases h
              have h16 : ip.length = 16 := by
                rcases hlen with h4 | h16
                · exact absurd (by rw [hv6]; simp [h4]) hfamily
                · exact h16
              refine ⟨.v6 (groupsOf ip) (groupsOf_isGroups hlt) (eq_false_of_ne_true hroutable),
                ?_, ?_, rfl⟩
              · rw [CodeAddress.payload, flatMap_twoBytes_groupsOf h16 hlt, hv6]
              · rw [CodeAddress.payload, flatMap_twoBytes_groupsOf h16 hlt, ← hv6]
                exact hcrc
          · next hv6 =>
            cases h
            have hv4 : ver = 1 := by
              by_contra hne
              exact hver ⟨hne, hv6⟩
            have h4 : ip.length = 4 := by
              by_contra hne
              exact hfamily fun hiff => hne (hiff.mp hv4)
            exact ⟨.v4 ip h4 hlt, by rw [CodeAddress.payload, hv4], by
              rw [CodeAddress.payload, ← hv4]; exact hcrc, rfl⟩
  · rintro ⟨a, hpayload, hcrc, hr⟩
    rw [hpayload] at hcrc
    cases a with
    | v4 bytes h4 hlt =>
      obtain ⟨hver, hip⟩ := List.cons.inj hpayload
      subst hver hip hr
      rw [if_neg (by decide), if_neg (by simp [h4])]
      simp only
      rw [if_neg (fun hne => hne hcrc), if_neg (by decide)]
      rfl
    | v6 groups hgroups hroutable =>
      obtain ⟨hver, hip⟩ := List.cons.inj hpayload
      subst hver hip hr
      have h16 : (groups.flatMap twoBytes).length = 16 := by
        rw [length_flatMap_twoBytes, hgroups.1]
      rw [if_neg (by decide), if_neg (by simp [h16])]
      simp only
      rw [if_neg (fun hne => hne hcrc), if_pos trivial]
      have hsame := groupsOf_flatMap_twoBytes hgroups.1
      rw [groupsOf] at hsame
      rw [hsame, if_neg (by rw [hroutable]; decide)]
      rfl

theorem CodeAddress.byteBits_bytes (a : CodeAddress) (port : Nat) : byteBits (a.bytes port) =
    byteBits a.payload ++ bitsOf 16 port ++
      bitsOf 16 (crc16CcittFalse (a.payload ++ twoBytes port)) := by
  rw [CodeAddress.bytes, shortCodeBytes_eq, byteBits_append, byteBits_append, byteBits_twoBytes,
    byteBits_twoBytes]

theorem decodeFields_readBits {bits : List Bool} {n : Nat} (hn : n = 4 ∨ n = 16)
    (hlen : 40 + 8 * n ≤ bits.length) {r : DecodedCode} :
    decodeFields (readBits bits 0 8) ((List.range n).map fun i => readBits bits (8 + i * 8) 8)
      (readBits bits (8 + n * 8) 16) (readBits bits (8 + n * 8 + 16) 16) = .ok r ↔
    ∃ (a : CodeAddress) (port : Nat), port < 2 ^ 16 ∧ a.payload.length = n + 1 ∧
      bits.take (40 + 8 * n) = byteBits (a.bytes port) ∧ r = a.decoded port := by
  have hfields := take_eq_fields hlen
  have hip : ∀ b ∈ (List.range n).map fun i => readBits bits (8 + i * 8) 8, b < 256 := by
    intro b hmem
    obtain ⟨i, -, heq⟩ := mem_map.mp hmem
    exact heq ▸ readBits_lt
  rw [decodeFields_eq_ok (by simpa using hn) hip]
  constructor
  · rintro ⟨a, hpayload, hcrc, hr⟩
    refine ⟨a, _, readBits_lt, by rw [hpayload]; simp, ?_, hr⟩
    rw [← hfields, ← hpayload, hcrc, a.byteBits_bytes]
  · rintro ⟨a, port, hport, hcount, hbits, hr⟩
    rw [← hfields, a.byteBits_bytes] at hbits
    -- bits of the same length
    obtain ⟨hfront, hcrc⟩ := append_inj' hbits (by rw [length_bitsOf, length_bitsOf])
    obtain ⟨hpayload, hportBits⟩ := append_inj' hfront (by rw [length_bitsOf, length_bitsOf])
    have hver : ∀ b ∈ readBits bits 0 8 :: (List.range n).map fun i => readBits bits (8 + i * 8) 8,
        b < 256 := forall_mem_cons.mpr ⟨readBits_lt, hip⟩
    have hsame := byteBits_inj hver a.payload_lt hpayload
    have hportSame := bitsOf_inj readBits_lt hport hportBits
    have hcrcSame := bitsOf_inj readBits_lt (crc16CcittFalse_lt (a.checked_lt hport)) hcrc
    exact ⟨a, hsame.symm, by rw [hcrcSame, hportSame], by rw [hportSame]; exact hr⟩

theorem any_id_eq_false {bits : List Bool} :
    bits.any id = false ↔ bits = List.replicate bits.length false := by
  rw [eq_replicate_iff, any_eq_false]
  simp

theorem decodeBits_eq_ok {count : Nat} {bits : List Bool} {r : DecodedCode}
    (hcount : count = 15 ∨ count = 34) (hlen : bits.length = 5 * count) :
    decodeBits count bits = .ok r ↔ ∃ (a : CodeAddress) (port : Nat), port < 2 ^ 16 ∧
      a.count = count ∧ (∃ pad, bits = byteBits (a.bytes port) ++ List.replicate pad false) ∧
      r = a.decoded port := by
  obtain ⟨n, hn, hneeded, hbytes, hfits, hkind⟩ : ∃ n, (n = 4 ∨ n = 16) ∧
      (if count = 15 then 72 else 168) = 40 + 8 * n ∧ (if count = 15 then 4 else 16) = n ∧
      40 + 8 * n ≤ bits.length ∧ ∀ a : CodeAddress, a.payload.length = n + 1 ↔ a.count = count := by
    rcases hcount with heq | heq
    · subst heq
      refine ⟨4, .inl rfl, rfl, rfl, by omega, fun a => ?_⟩
      rcases a.length_payload with ⟨hac, hpayload⟩ | ⟨hac, hpayload⟩ <;> omega
    · subst heq
      refine ⟨16, .inr rfl, rfl, rfl, by omega, fun a => ?_⟩
      rcases a.length_payload with ⟨hac, hpayload⟩ | ⟨hac, hpayload⟩ <;> omega
  rw [decodeBits]
  simp only [hneeded, hbytes]
  have hsplit := take_append_drop (40 + 8 * n) bits
  by_cases hpad : (bits.drop (40 + 8 * n)).any id = true
  · rw [if_pos hpad]
    refine iff_of_false (by simp) ?_
    rintro ⟨a, port, hport, hac, ⟨pad, hbits⟩, -⟩
    have hlength : (byteBits (a.bytes port)).length = 40 + 8 * n := by
      rw [a.byteBits_bytes, length_append, length_append, length_bitsOf, length_bitsOf,
        length_byteBits, (hkind a).mpr hac]
      omega
    rw [hbits, ← hlength, drop_left] at hpad
    simp at hpad
  · rw [if_neg hpad, decodeFields_readBits hn hfits]
    have hzeros := any_id_eq_false.mp (eq_false_of_ne_true hpad)
    constructor
    · rintro ⟨a, port, hport, hac, hbits, hr⟩
      refine ⟨a, port, hport, (hkind a).mp hac, ⟨(bits.drop (40 + 8 * n)).length, ?_⟩, hr⟩
      rw [← hbits, ← hzeros, hsplit]
    · rintro ⟨a, port, hport, hac, ⟨pad, hbits⟩, hr⟩
      refine ⟨a, port, hport, (hkind a).mpr hac, ?_, hr⟩
      have hlength : (byteBits (a.bytes port)).length = 40 + 8 * n := by
        rw [a.byteBits_bytes, length_append, length_append, length_bitsOf, length_bitsOf,
          length_byteBits, (hkind a).mpr hac]
        omega
      rw [hbits, ← hlength, take_left]

/-- **The data characters that the decoder accepts** are those of the addresses. -/
theorem decodeBits_textBits {data : List Char} {r : DecodedCode}
    (hcount : data.length = 15 ∨ data.length = 34)
    (hdata : ∀ ch ∈ data, crockfordReverse ch ≠ none) :
    decodeBits data.length (textBits data) = .ok r ↔ ∃ (a : CodeAddress) (port : Nat),
      port < 2 ^ 16 ∧ data = a.data port ∧ r = a.decoded port := by
  rw [decodeBits_eq_ok hcount (length_textBits data)]
  constructor
  · rintro ⟨a, port, hport, hac, ⟨pad, hbits⟩, hr⟩
    refine ⟨a, port, hport, textBits_inj hdata (a.reverse_data port) ?_, hr⟩
    obtain ⟨pad', hbits'⟩ := a.textBits_data hport
    have hlen := congrArg List.length hbits
    have hlen' := congrArg List.length hbits'
    simp only [length_textBits, length_append, length_replicate] at hlen hlen'
    rw [a.length_data hport, hac] at hlen'
    rw [hbits, hbits', show pad = pad' by omega]
  · rintro ⟨a, port, hport, hsame, hr⟩
    refine ⟨a, port, hport, ?_, ?_, hr⟩
    · rw [hsame, a.length_data hport]
    · obtain ⟨pad, hbits⟩ := a.textBits_data hport
      exact ⟨pad, hsame ▸ hbits⟩

/-! ## Spelling -/

def hyphenate (hyphens : Nat → Bool) : Nat → List Char → List Char
  | _, [] => []
  | count, ch :: data =>
    if hyphens count then '-' :: ch :: hyphenate hyphens (count + 1) data
    else ch :: hyphenate hyphens (count + 1) data

theorem hyphenate_congr {hyphens hyphens' : Nat → Bool} {count : Nat} {data : List Char}
    (h : ∀ i, count ≤ i → hyphens i = hyphens' i) :
    hyphenate hyphens count data = hyphenate hyphens' count data := by
  induction data generalizing count with
  | nil => rfl
  | cons ch data ih =>
    rw [hyphenate, hyphenate, h count (Nat.le_refl _), ih fun i hi => h i (by omega)]

theorem filter_hyphenate {hyphens : Nat → Bool} {count : Nat} {data : List Char} :
    (hyphenate hyphens count data).filter (· ≠ '-') = data.filter (· ≠ '-') := by
  induction data generalizing count with
  | nil => rfl
  | cons ch data ih =>
    rw [hyphenate]
    split
    · rw [filter_cons_of_neg (by decide), filter_cons, filter_cons, ih]
    · rw [filter_cons, filter_cons, ih]

theorem filter_data {data : List Char} (h : '-' ∉ data) : data.filter (· ≠ '-') = data := by
  refine filter_eq_self.mpr fun ch hmem => decide_eq_true fun heq => h (heq ▸ hmem)

theorem jsLower_hyphen : jsLower '-' = '-' := by decide

def IsCrockford (raw : List Char) : Prop := ∀ ch ∈ raw, crockfordReverse (jsLower ch) ≠ none

theorem IsCrockford.no_hyphen {raw : List Char} (h : IsCrockford raw) : '-' ∉ raw := by
  intro hmem
  refine h '-' hmem ?_
  rw [jsLower_hyphen]
  decide

theorem ambiguousHint_of_crockford {ch : Char} (h : crockfordReverse ch ≠ none) :
    ambiguousHint ch = none := by
  rw [ambiguousHint.eq_def]
  split
  · exact absurd (by decide) h
  · exact absurd (by decide) h
  · exact absurd (by decide) h
  · exact absurd (by decide) h
  · rfl

theorem scanBody_cons {ch : Char} {body : List Char} {prevHyphen : Bool} (hne : ch ≠ '-')
    (hvalid : crockfordReverse (jsLower ch) ≠ none) :
    scanBody (ch :: body) prevHyphen = do return jsLower ch :: (← scanBody body false) := by
  rw [scanBody, if_neg hne]
  simp only [ambiguousHint_of_crockford hvalid]
  rw [if_neg hvalid]

theorem exists_of_scanBody {boundaries : List Nat} {body data : List Char} {prevHyphen : Bool}
    {count : Nat} (hscan : scanBody body prevHyphen = .ok data)
    (hfit : hyphensFit boundaries count body = true) (hend : count + data.length ∉ boundaries) :
    ∃ hyphens raw, body = hyphenate hyphens count raw ∧ raw.map jsLower = data ∧
      IsCrockford raw ∧ (∀ i, hyphens i = true → i ∈ boundaries) ∧
      (prevHyphen = true → hyphens count = false) := by
  induction body generalizing prevHyphen count data with
  | nil =>
    rw [scanBody] at hscan
    cases hscan
    exact ⟨fun _ => false, [], rfl, rfl, nofun, nofun,
      fun _ => rfl⟩
  | cons ch body ih =>
    by_cases hhyphen : ch = '-'
    · subst hhyphen
      rw [scanBody, if_pos rfl] at hscan
      rw [hyphensFit, if_pos rfl, and_eq_true] at hfit
      obtain ⟨hboundary, hfit⟩ := hfit
      split at hscan
      · cases hscan
      · next hprev =>
        obtain ⟨hyphens, raw, hbody, hdata, hraw, hin, hfirst⟩ := ih hscan hfit hend
        have hfirst := hfirst rfl
        have hboundary : count ∈ boundaries := contains_iff_mem.mp hboundary
        cases raw with
        | nil =>
          rw [← hdata] at hend
          exact absurd hboundary hend
        | cons r raw =>
          refine ⟨fun i => i = count || hyphens i, r :: raw, ?_, hdata, hraw, ?_, ?_⟩
          · rw [hyphenate, if_pos (by simp), hbody, hyphenate, if_neg (ne_true_of_eq_false hfirst)]
            congr 2
            refine hyphenate_congr fun i hi => ?_
            simp [show i ≠ count by omega]
          · intro i hi
            rcases or_eq_true_iff.mp hi with heq | hi
            · rw [of_decide_eq_true heq]
              exact hboundary
            · exact hin i hi
          · exact fun htrue => absurd htrue hprev
    · rw [hyphensFit, if_neg hhyphen] at hfit
      have hvalid : crockfordReverse (jsLower ch) ≠ none := by
        intro hnone
        rw [scanBody, if_neg hhyphen] at hscan
        simp only [hnone, if_true] at hscan
        split at hscan <;> cases hscan
      rw [scanBody_cons hhyphen hvalid] at hscan
      obtain ⟨rest, hrest, hscan⟩ := bind_eq_ok.mp hscan
      cases hscan
      rw [length_cons] at hend
      obtain ⟨hyphens, raw, hbody, hdata, hraw, hin, -⟩ :=
        ih hrest hfit (by rwa [Nat.add_right_comm, Nat.add_assoc])
      refine ⟨fun i => i ≠ count && hyphens i, ch :: raw, ?_, ?_, ?_, ?_, ?_⟩
      · rw [hyphenate, if_neg (by simp), hbody]
        congr 1
        refine hyphenate_congr fun i hi => ?_
        simp [show i ≠ count by omega]
      · rw [map_cons, hdata]
      · exact forall_mem_cons.mpr ⟨hvalid, hraw⟩
      · exact fun i hi => hin i (and_eq_true_iff.mp hi).2
      · exact fun _ => by simp

theorem scanBody_hyphenate {hyphens : Nat → Bool} {count : Nat} {raw : List Char}
    {prevHyphen : Bool} (hraw : IsCrockford raw)
    (hfirst : prevHyphen = true → hyphens count = false) :
    scanBody (hyphenate hyphens count raw) prevHyphen = .ok (raw.map jsLower) := by
  induction raw generalizing count prevHyphen with
  | nil => rfl
  | cons ch raw ih =>
    have hne : ch ≠ '-' := fun heq => hraw.no_hyphen (heq ▸ mem_cons_self)
    obtain ⟨hvalid, hrest⟩ := forall_mem_cons.mp hraw
    have htail : scanBody (hyphenate hyphens (count + 1) raw) false = _ :=
      ih hrest nofun
    rw [hyphenate]
    split
    · next hhere =>
      have hprev : ¬ prevHyphen = true := fun htrue => by
        rw [hfirst htrue] at hhere
        cases hhere
      rw [scanBody, if_pos rfl, if_neg hprev, scanBody_cons hne hvalid, htail]
      rfl
    · rw [scanBody_cons hne hvalid, htail]
      rfl

theorem hyphensFit_hyphenate {boundaries : List Nat} {hyphens : Nat → Bool} {count : Nat}
    {raw : List Char} (hraw : '-' ∉ raw) (hin : ∀ i, hyphens i = true → i ∈ boundaries) :
    hyphensFit boundaries count (hyphenate hyphens count raw) = true := by
  induction raw generalizing count with
  | nil => rfl
  | cons ch raw ih =>
    have hne : ch ≠ '-' := fun heq => hraw (heq ▸ mem_cons_self)
    have htail : hyphensFit boundaries (count + 1) (hyphenate hyphens (count + 1) raw) = true :=
      ih fun hmem => hraw (mem_cons_of_mem _ hmem)
    rw [hyphenate]
    split
    · next hhere =>
      rw [hyphensFit, if_pos rfl, hyphensFit, if_neg hne, htail, Bool.and_true]
      exact contains_iff_mem.mpr (hin count hhere)
    · rw [hyphensFit, if_neg hne, htail]

/-- `s` is the prefix, in any ASCII case, and `data` up to `fold`, with hyphens at some of the
boundaries of its groups. -/
def Spells (fold : Char → Char) (s data : List Char) : Prop :=
  ∃ (pre : List Char) (hyphens : Nat → Bool) (raw : List Char),
    s = pre ++ hyphenate hyphens 0 raw ∧ pre.map Char.toLower = shortCodePrefix ∧
    raw.map fold = data ∧
    ∀ i, hyphens i = true → i ∈ (hyphenBoundaries data.length).getD []

theorem Spells.isCrockford {fold : Char → Char} {raw : List Char}
    (hfold : ∀ ch, crockfordReverse (fold ch) ≠ none → fold ch = jsLower ch)
    (hraw : raw.map fold = a.data port) : IsCrockford raw := by
  intro ch hmem
  have hvalid := a.reverse_data port (fold ch) (hraw ▸ mem_map_of_mem hmem)
  rwa [← hfold ch hvalid]

theorem matchPrefix_eq_some {s body : List Char} : matchPrefix s = some body ↔
    ∃ pre, s = pre ++ body ∧ pre.map Char.toLower = shortCodePrefix := by
  have hlength : shortCodePrefix.length = 7 := by decide
  rw [matchPrefix]
  constructor
  · intro h
    split at h
    · next hpre => exact ⟨s.take 7, by rw [← Option.some.inj h, take_append_drop], hpre⟩
    · cases h
  · rintro ⟨pre, hs, hpre⟩
    have hseven : pre.length = 7 := by
      rw [← hlength, ← hpre, length_map]
    rw [hs, ← hseven, take_left, drop_left, if_pos hpre]

theorem hyphenBoundaries_eq_some {n : Nat} {boundaries : List Nat}
    (h : hyphenBoundaries n = some boundaries) : (n = 15 ∨ n = 34) ∧ n ∉ boundaries ∧
      0 ∉ boundaries := by
  rw [hyphenBoundaries.eq_def] at h
  split at h
  · cases h
    decide
  · cases h
    decide
  · cases h

/-- **What the decoder accepts, and what it gives.** -/
theorem decodeShortCode_eq_ok {s : List Char} {r : DecodedCode} :
    decodeShortCode s = .ok r ↔ ∃ (a : CodeAddress) (port : Nat), port < 2 ^ 16 ∧
      Spells jsLower s (a.data port) ∧ r = a.decoded port := by
  rw [decodeShortCode]
  constructor
  · intro h
    split at h
    · cases h
    · next body hshared =>
      obtain ⟨pre, hs, hpre⟩ := matchPrefix_eq_some.mp hshared
      obtain ⟨data, hscan, h⟩ := bind_eq_ok.mp h
      split at h
      · cases h
      · split at h
        · cases h
        · next boundaries hboundaries =>
          obtain ⟨hcount, hend, -⟩ := hyphenBoundaries_eq_some hboundaries
          split at h
          · cases h
          · next hfit =>
            obtain ⟨hyphens, raw, hbody, hdata, hraw, hin, -⟩ :=
              exists_of_scanBody hscan (not_not.mp hfit) (by rwa [Nat.zero_add])
            have hvalid : ∀ ch ∈ data, crockfordReverse ch ≠ none := by
              rw [← hdata]
              exact forall_mem_map.mpr hraw
            obtain ⟨a, port, hport, hsame, hr⟩ := (decodeBits_textBits hcount hvalid).mp h
            refine ⟨a, port, hport, ⟨pre, hyphens, raw, hs.trans (by rw [hbody]), hpre,
              hdata.trans hsame, ?_⟩, hr⟩
            rw [← hsame, hboundaries]
            exact hin
  · rintro ⟨a, port, hport, ⟨pre, hyphens, raw, hs, hpre, hdata, hin⟩, hr⟩
    have hraw : IsCrockford raw := Spells.isCrockford (fun _ _ => rfl) hdata
    have hcount := a.length_data hport
    have hkind : a.count = 15 ∨ a.count = 34 := by
      rcases a.length_payload with ⟨hac, -⟩ | ⟨hac, -⟩
      · exact .inl hac
      · exact .inr hac
    obtain ⟨boundaries, hboundaries⟩ : ∃ boundaries,
        hyphenBoundaries (a.data port).length = some boundaries := by
      rw [hcount]
      rcases hkind with heq | heq <;> exact heq ▸ ⟨_, rfl⟩
    have hin : ∀ i, hyphens i = true → i ∈ boundaries := by
      rw [hboundaries] at hin
      exact hin
    obtain ⟨-, -, hzero⟩ := hyphenBoundaries_eq_some hboundaries
    have hfirst : hyphens 0 = false := by
      rw [← not_eq_true]
      exact fun htrue => hzero (hin 0 htrue)
    rw [matchPrefix_eq_some.mpr ⟨pre, hs, hpre⟩]
    simp only
    rw [scanBody_hyphenate hraw fun _ => hfirst, hdata]
    show (if (a.data port).length = 0 then _ else _) = _
    rw [if_neg (by rw [hcount]; omega), hboundaries]
    simp only
    rw [if_neg (not_not.mpr (hyphensFit_hyphenate hraw.no_hyphen hin))]
    exact (decodeBits_textBits (by rw [hcount]; exact hkind) (a.reverse_data port)).mpr
      ⟨a, port, hport, rfl, hr⟩

/-! ## The display form -/

theorem display_data {data : List Char} (h : data.length = 15 ∨ data.length = 34) :
    ['-'].intercalate
        (if data.length = 15 then [data.take 5, (data.take 10).drop 5, (data.take 15).drop 10]
        else chunkText 3 data data.length) =
      hyphenate (fun i => ((hyphenBoundaries data.length).getD []).contains i) 0 data := by
  rcases h with h | h
  · match data, h with
    | [x0, x1, x2, x3, x4, x5, x6, x7, x8, x9, x10, x11, x12, x13, x14], _ => rfl
  · match data, h with
    | x0 :: x1 :: x2 :: x3 :: x4 :: x5 :: x6 :: x7 :: x8 :: x9 :: x10 :: x11 :: x12 :: x13 :: x14 ::
        x15 :: x16 :: x17 :: x18 :: x19 :: x20 :: x21 :: x22 :: x23 :: x24 :: x25 :: x26 :: x27 ::
        x28 :: x29 :: x30 :: x31 :: x32 :: x33 :: [], _ => rfl

theorem Spells.jsLower_of_toLower {s : List Char} (h : Spells Char.toLower s (a.data port)) :
    Spells jsLower s (a.data port) := by
  obtain ⟨pre, hyphens, raw, hs, hpre, hdata, hin⟩ := h
  refine ⟨pre, hyphens, raw, hs, hpre, hdata ▸ map_congr_left fun ch hmem => ?_, hin⟩
  have hvalid := a.reverse_data port ch.toLower (hdata ▸ mem_map_of_mem hmem)
  rw [jsLower]
  split
  · next hkelvin =>
    rw [hkelvin] at hvalid
    exact absurd (by decide) hvalid
  · rfl

theorem toLower_crockford : ∀ ch ∈ crockfordAlphabet, ch.toLower = ch ∧ jsLower ch = ch := by
  have hall : (crockfordAlphabet.all fun ch => ch.toLower = ch ∧ jsLower ch = ch) = true := by
    decide
  exact fun ch hmem => of_decide_eq_true (all_eq_true.mp hall ch hmem)

theorem mem_crockfordAlphabet {ch : Char} (h : crockfordReverse ch ≠ none) :
    ch ∈ crockfordAlphabet := by
  obtain ⟨v, hv⟩ := Option.ne_none_iff_exists'.mp h
  rw [crockfordReverse, findIdx?_eq_some_iff_getElem] at hv
  obtain ⟨hlt, heq, -⟩ := hv
  exact of_decide_eq_true heq ▸ getElem_mem hlt

theorem CodeAddress.spells_code (a : CodeAddress) (port : Nat) (hyphens : Nat → Bool)
    (hin : ∀ i, hyphens i = true → i ∈ (hyphenBoundaries (a.data port).length).getD []) :
    Spells Char.toLower (shortCodePrefix ++ hyphenate hyphens 0 (a.data port)) (a.data port) := by
  refine ⟨shortCodePrefix, hyphens, a.data port, rfl, by decide, ?_, hin⟩
  have hsame : ∀ ch ∈ a.data port, ch.toLower = ch := fun ch hmem =>
    (toLower_crockford ch (mem_crockfordAlphabet (a.reverse_data port ch hmem))).1
  rw [map_congr_left hsame, map_id']

theorem hyphenate_none {count : Nat} {data : List Char} :
    hyphenate (fun _ => false) count data = data := by
  induction data generalizing count with
  | nil => rfl
  | cons ch data ih =>
    rw [hyphenate, if_neg Bool.false_ne_true, ih]

theorem CodeAddress.format_code (a : CodeAddress) (hport : port < 2 ^ 16) :
    formatShortCodeForDisplay (a.code port) = shortCodePrefix ++
      hyphenate (fun i => ((hyphenBoundaries (a.data port).length).getD []).contains i) 0
        (a.data port) := by
  have hlower : (a.code port).map jsLower = a.code port := by
    have hsame : ∀ ch ∈ a.code port, jsLower ch = ch := by
      have hprefix : (shortCodePrefix.all fun ch => jsLower ch = ch) = true := by decide
      refine forall_mem_append.mpr
        ⟨fun ch hmem => of_decide_eq_true (all_eq_true.mp hprefix ch hmem), fun ch hmem => ?_⟩
      exact (toLower_crockford ch (mem_crockfordAlphabet (a.reverse_data port ch hmem))).2
    rw [map_congr_left hsame, map_id']
  have hkind : (a.data port).length = 15 ∨ (a.data port).length = 34 := by
    rw [a.length_data hport]
    rcases a.length_payload with ⟨hcount, -⟩ | ⟨hcount, -⟩
    · exact .inl hcount
    · exact .inr hcount
  have hbody : (if shortCodePrefix <+: a.code port then
      (a.code port).drop shortCodePrefix.length else a.code port) = a.data port := by
    rw [CodeAddress.code, if_pos (prefix_append _ _), drop_left]
  rw [formatShortCodeForDisplay]
  simp only [hlower, hbody]
  exact congrArg (shortCodePrefix ++ ·) (display_data hkind)

/-! ## The law -/

/-- A code that the encoder gives, in any ASCII case and with hyphens or not. -/
def IsShortCode (s : List Char) : Prop :=
  ∃ ip port data, encodeShortCode ip port = .ok (shortCodePrefix ++ data) ∧
    Spells Char.toLower s data

def AcceptsCode (s : List Char) : Prop := ∃ r, decodeShortCode s = .ok r

def Replaced (data data' : List Char) : Prop :=
  ∃ before ch ch' behind, data = before ++ ch :: behind ∧ data' = before ++ ch' :: behind ∧
    ch.toLower ≠ ch'.toLower

def Swapped (data data' : List Char) : Prop :=
  ∃ before ch ch' behind, data = before ++ ch :: ch' :: behind ∧
    data' = before ++ ch' :: ch :: behind ∧ ch.toLower ≠ ch'.toLower

/-- `s` is `code` with its data characters replaced or swapped, and its hyphens where they were. -/
def Mutated (code s : List Char) : Prop :=
  ∃ pre hyphens data data', pre.length = shortCodePrefix.length ∧ '-' ∉ data ∧
    code = pre ++ hyphenate hyphens 0 data ∧ s = pre ++ hyphenate hyphens 0 data' ∧
    (Replaced data data' ∨ Swapped data data')

/-- The decoder and the encoder agree on `s`. -/
structure ShortCodeLaw (s : List Char) : Prop where
  accepts_iff : AcceptsCode s ↔ IsShortCode s
  mutated : ∀ code, IsShortCode code → Mutated code s → ¬ AcceptsCode s

/-- `s` spells a code with the port 0, or has a Kelvin sign for a `k`. -/
def ForeignCode (s : List Char) : Prop :=
  ∃ (a : CodeAddress) (port : Nat), port < 2 ^ 16 ∧ Spells jsLower s (a.data port) ∧
    (port = 0 ∨ '\u212a' ∈ s)

theorem isShortCode_iff {s : List Char} : IsShortCode s ↔
    ∃ (a : CodeAddress) (port : Nat), 1 ≤ port ∧ port < 2 ^ 16 ∧
      Spells Char.toLower s (a.data port) := by
  constructor
  · intro ⟨ip, port, data, hencode, hspells⟩
    obtain ⟨a, n, hread, hport, hone, hmax, hcode⟩ := encodeShortCode_eq_ok.mp hencode
    exact ⟨a, n, hone, by omega, append_cancel_left hcode ▸ hspells⟩
  · intro ⟨a, n, hone, hmax, hspells⟩
    refine ⟨a.text, n, a.data n, ?_, hspells⟩
    exact encodeShortCode_eq_ok.mpr ⟨a, n, a.readFrom_text, rfl, hone, by omega, rfl⟩

theorem acceptsCode_iff {s : List Char} : AcceptsCode s ↔
    ∃ (a : CodeAddress) (port : Nat), port < 2 ^ 16 ∧ Spells jsLower s (a.data port) := by
  constructor
  · intro ⟨r, hdecode⟩
    obtain ⟨a, port, hport, hspells, -⟩ := decodeShortCode_eq_ok.mp hdecode
    exact ⟨a, port, hport, hspells⟩
  · intro ⟨a, port, hport, hspells⟩
    exact ⟨a.decoded port, decodeShortCode_eq_ok.mpr ⟨a, port, hport, hspells, rfl⟩⟩

theorem mem_hyphenate {hyphens : Nat → Bool} {count : Nat} {data : List Char} {ch : Char}
    (hne : ch ≠ '-') : ch ∈ hyphenate hyphens count data ↔ ch ∈ data := by
  have hfilter : ∀ text : List Char, ch ∈ text ↔ ch ∈ text.filter (· ≠ '-') := fun text =>
    ⟨fun hmem => mem_filter.mpr ⟨hmem, decide_eq_true hne⟩,
      fun hmem => (mem_filter.mp hmem).1⟩
  rw [hfilter, filter_hyphenate, ← hfilter]

theorem length_filter_lt {data : List Char} (h : '-' ∈ data) :
    (data.filter (· ≠ '-')).length < data.length :=
  length_filter_lt_length_iff_exists.mpr ⟨'-', h, by simp⟩

/-- **A burst of at most three characters** changes the register. -/
theorem textBits_burst {before mid mid' behind : List Char} (hlen : mid.length = mid'.length)
    (hshort : mid.length ≤ 3)
    (h : crc16Feed (textBits (before ++ mid ++ behind)) = 0)
    (h' : crc16Feed (textBits (before ++ mid' ++ behind)) = 0) : textBits mid = textBits mid' := by
  rw [textBits_append, textBits_append] at h h'
  refine crcFeed_burst (by decide) ?_ ?_ (h.trans h'.symm)
  · rw [length_textBits, length_textBits, hlen]
  · rw [length_textBits]
    omega

/-- With the same hyphens, a code and what becomes of it have the same length, and no other
characters in their place. -/
theorem eq_of_hyphenate {hyphens : Nat → Bool} {pre pre' raw data : List Char}
    {hyphens' : Nat → Bool} (hpre : pre.length = pre'.length) (hraw : '-' ∉ raw)
    (h : pre ++ hyphenate hyphens 0 data = pre' ++ hyphenate hyphens' 0 raw) :
    pre = pre' ∧ data.filter (· ≠ '-') = raw := by
  obtain ⟨hsame, hbody⟩ := List.append_inj h hpre
  refine ⟨hsame, ?_⟩
  rw [← @filter_hyphenate hyphens 0, hbody, filter_hyphenate, filter_data hraw]

theorem Replaced.cases {data data' : List Char} (h : Replaced data data') :
    ∃ before mid mid' behind, data = before ++ mid ++ behind ∧ data' = before ++ mid' ++ behind ∧
      mid.length = mid'.length ∧ mid.length ≤ 3 ∧ mid.map Char.toLower ≠ mid'.map Char.toLower := by
  obtain ⟨before, ch, ch', behind, hdata, hdata', hne⟩ := h
  refine ⟨before, [ch], [ch'], behind, ?_, ?_, rfl, by simp, fun heq => hne ?_⟩
  · rw [hdata, append_assoc]
    rfl
  · rw [hdata', append_assoc]
    rfl
  · exact head_eq_of_cons_eq heq

theorem Swapped.cases {data data' : List Char} (h : Swapped data data') :
    ∃ before mid mid' behind, data = before ++ mid ++ behind ∧ data' = before ++ mid' ++ behind ∧
      mid.length = mid'.length ∧ mid.length ≤ 3 ∧ mid.map Char.toLower ≠ mid'.map Char.toLower := by
  obtain ⟨before, ch, ch', behind, hdata, hdata', hne⟩ := h
  refine ⟨before, [ch, ch'], [ch', ch], behind, ?_, ?_, rfl, by simp, fun heq => hne ?_⟩
  · rw [hdata, append_assoc]
    rfl
  · rw [hdata', append_assoc]
    rfl
  · exact head_eq_of_cons_eq heq

theorem jsLower_of_ne {ch : Char} (h : ch ≠ '\u212a') : jsLower ch = ch.toLower := by
  rw [jsLower, if_neg h]

theorem no_kelvin_of_map_toLower {raw : List Char}
    (hraw : raw.map Char.toLower = a.data port) : '\u212a' ∉ raw := by
  intro hmem
  refine a.reverse_data port '\u212a' ?_ (by decide)
  exact hraw ▸ mem_map.mpr ⟨_, hmem, by decide⟩

/-- **No burst is accepted**, but for one with a Kelvin sign. -/
theorem map_toLower_eq_of_burst {before mid mid' behind : List Char} {port' : Nat}
    (hport : port < 2 ^ 16) (hport' : port' < 2 ^ 16)
    (hlen : mid.length = mid'.length) (hshort : mid.length ≤ 3)
    (h : (before ++ mid ++ behind).map jsLower = a.data port)
    (h' : (before ++ mid' ++ behind).map jsLower = b.data port') :
    mid.map jsLower = mid'.map jsLower := by
  have hfeed := a.feed_data hport
  have hfeed' := b.feed_data hport'
  have hvalid := a.reverse_data port
  have hvalid' := b.reverse_data port'
  rw [← h, map_append, map_append] at hfeed hvalid
  rw [← h', map_append, map_append] at hfeed' hvalid'
  refine textBits_inj (fun ch hmem => ?_) (fun ch hmem => ?_)
    (textBits_burst (by rw [length_map, length_map, hlen]) (by rwa [length_map])
      hfeed hfeed')
  · exact hvalid ch (mem_append_left _ (mem_append_right _ hmem))
  · exact hvalid' ch (mem_append_left _ (mem_append_right _ hmem))

/-- **Mutations.** -/
theorem not_acceptsCode_of_mutated {code s : List Char} (hcode : IsShortCode code)
    (hmutated : Mutated code s) (hforeign : ¬ ForeignCode s) : ¬ AcceptsCode s := by
  intro haccepts
  obtain ⟨a, port, -, hport, pre₀, hyphens₀, raw₀, hcode₀, hpre₀, hdata₀, -⟩ :=
    isShortCode_iff.mp hcode
  obtain ⟨b, port', hport', hspells⟩ := acceptsCode_iff.mp haccepts
  have hkelvin : '\u212a' ∉ s := fun hmem => hforeign ⟨b, port', hport', hspells, .inr hmem⟩
  obtain ⟨pre₁, hyphens₁, raw₁, hs₁, hpre₁, hdata₁, -⟩ := hspells
  obtain ⟨pre, hyphens, data, data', hseven, hnone, hcodeEq, hs, hkind⟩ := hmutated
  have hshared : ∀ {p : List Char}, p.map Char.toLower = shortCodePrefix →
      pre.length = p.length := fun heq => by
    rw [hseven, ← heq, length_map]
  have hcrockford₁ : IsCrockford raw₁ := Spells.isCrockford (fun _ _ => rfl) hdata₁
  have hclean₀ : '-' ∉ raw₀ := by
    intro hmem
    exact a.reverse_data port '-' (hdata₀ ▸ mem_map.mpr ⟨_, hmem, by decide⟩) (by decide)
  have hraw₀ : data = raw₀ := by
    have hfiltered := (eq_of_hyphenate (hshared hpre₀) hclean₀ (hcodeEq.symm.trans hcode₀)).2
    rwa [filter_data hnone] at hfiltered
  have hraw₁ := (eq_of_hyphenate (hshared hpre₁) hcrockford₁.no_hyphen (hs.symm.trans hs₁)).2
  rw [← hraw₀] at hdata₀
  obtain ⟨before, mid, mid', behind, hdata, hdata', hlen, hshort, hne⟩ :=
    hkind.elim Replaced.cases Swapped.cases
  rw [hdata] at hdata₀ hnone
  rw [hdata'] at hraw₁
  have hclean : '-' ∉ before ∧ '-' ∉ behind := by
    refine ⟨fun hmem => hnone ?_, fun hmem => hnone (mem_append_right _ hmem)⟩
    exact mem_append_left _ (mem_append_left _ hmem)
  rw [filter_append, filter_append, filter_data hclean.1, filter_data hclean.2] at hraw₁
  -- a hyphen in the place of a character leaves too few of them
  have hmid' : '-' ∉ mid' := by
    intro hmem
    have hless := length_filter_lt hmem
    have hold := congrArg List.length hdata₀
    have hnew := congrArg List.length hraw₁
    rw [length_map, a.length_data hport, length_append, length_append] at hold
    have hcount₁ : raw₁.length = b.count := by
      rw [← b.length_data hport', ← hdata₁, length_map]
    rw [length_append, length_append, hcount₁] at hnew
    rcases a.length_payload with ⟨hcount, -⟩ | ⟨hcount, -⟩ <;>
      rcases b.length_payload with ⟨hcount', -⟩ | ⟨hcount', -⟩ <;> omega
  rw [filter_data hmid'] at hraw₁
  rw [← hraw₁] at hdata₁
  have hplain : ∀ ch ∈ before ++ mid ++ behind, jsLower ch = ch.toLower := fun ch hmem =>
    jsLower_of_ne fun heq => no_kelvin_of_map_toLower hdata₀ (heq ▸ hmem)
  have hplain' : ∀ ch ∈ mid', jsLower ch = ch.toLower := by
    intro ch hmem
    refine jsLower_of_ne fun heq => hkelvin ?_
    rw [hs, hdata']
    refine mem_append_right _ ((mem_hyphenate (by decide)).mpr ?_)
    exact mem_append_left _ (mem_append_right _ (heq ▸ hmem))
  have hburst := map_toLower_eq_of_burst hport hport' hlen hshort
    ((map_congr_left hplain).trans hdata₀) hdata₁
  refine hne ?_
  rw [← map_congr_left hplain', ← hburst]
  refine (map_congr_left fun ch hmem => hplain ch ?_).symm
  exact mem_append_left _ (mem_append_right _ hmem)

theorem CodeAddress.port_eq_of_spells {s : List Char} {port' : Nat} (hport : port < 2 ^ 16)
    (hport' : port' < 2 ^ 16) (h : Spells jsLower s (a.data port))
    (h' : Spells jsLower s (b.data port')) : port = port' := by
  have hdecode := decodeShortCode_eq_ok.mpr ⟨a, port, hport, h, rfl⟩
  rw [decodeShortCode_eq_ok.mpr ⟨b, port', hport', h', rfl⟩] at hdecode
  have hfields := congrArg DecodedCode.port (Except.ok.inj hdecode)
  have hdecoded : ∀ (c : CodeAddress) (n : Nat), (c.decoded n).port = n := by
    intro c n
    cases c <;> rfl
  rw [hdecoded, hdecoded] at hfields
  exact hfields.symm

/-- **Beyond the codes**: what is accepted and foreign spells no code of the encoder's. -/
theorem ForeignCode.not_isShortCode {s : List Char} (h : ForeignCode s) : ¬ IsShortCode s := by
  intro hcode
  obtain ⟨a, port, hport, hspells, hforeign⟩ := h
  obtain ⟨b, port', hone, hport', hspells'⟩ := isShortCode_iff.mp hcode
  have hports := CodeAddress.port_eq_of_spells hport hport' hspells hspells'.jsLower_of_toLower
  obtain ⟨pre', hyphens', raw', hs', hpre', hdata', -⟩ := hspells'
  rcases hforeign with hzero | hkelvin
  · omega
  · rw [hs'] at hkelvin
    rcases mem_append.mp hkelvin with hmem | hmem
    · have : '\u212a' ∈ shortCodePrefix := hpre' ▸ mem_map.mpr ⟨_, hmem, by decide⟩
      exact absurd this (by decide)
    · exact no_kelvin_of_map_toLower hdata' ((mem_hyphenate (by decide)).mp hmem)

theorem shortCodeLaw_iff {s : List Char} : ShortCodeLaw s ↔ ¬ ForeignCode s := by
  constructor
  · intro hlaw hforeign
    obtain ⟨a, port, hport, hspells, -⟩ := id hforeign
    refine ForeignCode.not_isShortCode hforeign (hlaw.accepts_iff.mp ?_)
    exact acceptsCode_iff.mpr ⟨a, port, hport, hspells⟩
  · intro hforeign
    refine ⟨⟨fun haccepts => ?_, fun hcode => ?_⟩, fun code hcode hmutated =>
      not_acceptsCode_of_mutated hcode hmutated hforeign⟩
    · obtain ⟨a, port, hport, hspells⟩ := acceptsCode_iff.mp haccepts
      have hfree : ¬ (port = 0 ∨ '\u212a' ∈ s) := fun h => hforeign ⟨a, port, hport, hspells, h⟩
      obtain ⟨hzero, hkelvin⟩ := not_or.mp hfree
      refine isShortCode_iff.mpr ⟨a, port, Nat.one_le_iff_ne_zero.mpr hzero, hport, ?_⟩
      obtain ⟨pre, hyphens, raw, hs, hpre, hdata, hin⟩ := hspells
      refine ⟨pre, hyphens, raw, hs, hpre, ?_, hin⟩
      rw [← hdata]
      refine map_congr_left fun ch hmem => (jsLower_of_ne fun heq => hkelvin ?_).symm
      rw [hs]
      exact mem_append_right _ ((mem_hyphenate (by decide)).mpr (heq ▸ hmem))
    · obtain ⟨a, port, hone, hport, hspells⟩ := isShortCode_iff.mp hcode
      exact acceptsCode_iff.mpr ⟨a, port, hport, hspells.jsLower_of_toLower⟩

/-- `text` is the canonical text of the address in `ip`. -/
def CanonicalAddress (ip text : List Char) : Prop :=
  isIPv4 ip = true ∧ text = ip ∨
    isIPv4 ip = false ∧ ∃ groups, parseIpv6Groups ip = some groups ∧
      CanonicalIpv6 groups text ∧ parseIpv6Groups text = some groups

theorem CodeAddress.ReadFrom.canonical {ip : List Char} (h : a.ReadFrom ip) :
    CanonicalAddress ip a.text := by
  cases a with
  | v4 bytes hlen hlt => exact .inl ⟨h.1, h.2.symm⟩
  | v6 groups hgroups hroutable =>
    exact .inr ⟨h.1, groups, h.2, formatIpv6Groups_canonical hgroups.1,
      parseIpv6Groups_formatIpv6Groups hgroups⟩

/-- **A code comes back**, as it is and in its display form. -/
theorem CodeAddress.decode_code (a : CodeAddress) (hport : port < 2 ^ 16) :
    decodeShortCode (a.code port) = .ok (a.decoded port) ∧
      decodeShortCode (formatShortCodeForDisplay (a.code port)) = .ok (a.decoded port) := by
  have hplain := a.spells_code port (fun _ => false) nofun
  rw [hyphenate_none] at hplain
  refine ⟨decodeShortCode_eq_ok.mpr ⟨a, port, hport, hplain.jsLower_of_toLower, rfl⟩, ?_⟩
  rw [a.format_code hport]
  refine decodeShortCode_eq_ok.mpr ⟨a, port, hport, Spells.jsLower_of_toLower ?_, rfl⟩
  exact a.spells_code port _ fun i h => contains_iff_mem.mp h

/-- **The access short code.** -/
theorem short_code_law (s : List Char) :
    (∀ ip port code, encodeShortCode ip port = .ok code → ∃ r, decodeShortCode code = .ok r ∧
      decodeShortCode (formatShortCodeForDisplay code) = .ok r ∧ CanonicalAddress ip r.ip ∧
      (r.port : Int) = port) ∧
    (ShortCodeLaw s ↔ ¬ ForeignCode s) := by
  refine ⟨fun ip port code hencode => ?_, shortCodeLaw_iff⟩
  obtain ⟨a, n, hread, hport, hone, hmax, hcode⟩ := encodeShortCode_eq_ok.mp hencode
  have hbound : n < 2 ^ 16 := by omega
  obtain ⟨hplain, hdisplay⟩ := a.decode_code hbound
  have hcanonical := hread.canonical
  rw [hcode]
  refine ⟨a.decoded n, hplain, hdisplay, ?_, ?_⟩
  · cases a <;> exact hcanonical
  · cases a <;> exact hport.symm

end

namespace SampleShortCode

def lan : CodeAddress := .v4 [192, 168, 2, 13] rfl (by decide)

theorem foreign_accepted :
    decodeShortCode "dwebh1.070ag0gd00071vr".toList =
      .ok ⟨"192.168.2.13".toList, 0, "http://192.168.2.13:0".toList, 4⟩ ∧
    ¬ IsShortCode "dwebh1.070ag0gd00071vr".toList ∧
    encodeShortCode "192.168.2.13".toList 8791 = .ok "dwebh1.070ag0gd49bkmy8".toList ∧
    Mutated "dwebh1.070ag0gd49bkmy8".toList "dwebh1.070ag0gd49b\u212amy8".toList ∧
    decodeShortCode "dwebh1.070ag0gd49b\u212amy8".toList =
      .ok ⟨"192.168.2.13".toList, 8791, "http://192.168.2.13:8791".toList, 4⟩ := by
  refine ⟨by decide +kernel, ?_, by decide +kernel, ?_, by decide +kernel⟩
  · refine ForeignCode.not_isShortCode ⟨lan, 0, by decide, ?_, .inl rfl⟩
    exact ⟨"dwebh1.".toList, fun _ => false, "070ag0gd00071vr".toList, by decide,
      by decide +kernel, by decide +kernel, nofun⟩
  · exact ⟨"dwebh1.".toList, fun _ => false, "070ag0gd49bkmy8".toList,
      "070ag0gd49b\u212amy8".toList, by decide, by decide, by decide, by decide,
      .inl ⟨"070ag0gd49b".toList, 'k', '\u212a', "my8".toList, by decide, by decide, by decide⟩⟩

theorem lan_read_back :
    (∃ r, decodeShortCode "dwebh1.070ag0gd49bkmy8".toList = .ok r ∧ (r.port : Int) = 8791) ∧
    ShortCodeLaw "dwebh1.".toList := by
  refine ⟨?_, (short_code_law _).2.mpr fun ⟨a, port, hport, hspells, _⟩ => ?_⟩
  · obtain ⟨r, hdecode, -, -, hport⟩ :=
      (short_code_law []).1 "192.168.2.13".toList 8791 "dwebh1.070ag0gd49bkmy8".toList
        (by decide +kernel)
    exact ⟨r, hdecode, hport⟩
  · obtain ⟨r, hdecode⟩ := acceptsCode_iff.mpr ⟨a, port, hport, hspells⟩
    have hempty : decodeShortCode "dwebh1.".toList = .error "short code: empty payload" := by
      decide
    rw [hempty] at hdecode
    cases hdecode

end SampleShortCode

end Dweb
