import OpenDweb.Fabric.WireLayer
import OpenDweb.Sdk.AddrText

/-!
# OpenDweb — the token decoders of the client SDK

Embedding of `client-sdk/token/index.mjs`: `decodeInvite` and `decodeCapability` with their
helpers. They parse what the wire layer of the Rust decoders parses, into texts and numbers.

* **`fromBase64UrlNoPad_eq_ok`** — the texts that the digit loop accepts: each one of
  `base64Encode`, and those that end in a whole group also with an `A` behind them.
* **`textDecode_eq_some`** — a text loses the mark U+FEFF at its start.
* **`toNumber_eq_iff`** — the numbers that survive as a `Number`.
-/

namespace Dweb.TokenSdk

/-! ## Errors -/

/-- The `code` of a `TokenError`. -/
inductive TokenErrorCode where
  | badInput
  | badPrefix
  | badBase64url
  | badLength
  | tooLong
  | badDomain
  | unsupportedVersion
  | reservedBits
  | countExceeded
  | lengthExceeded
  | badUtf8
  | badFamily
  | truncated
  | trailingBytes
deriving DecidableEq

/-- `TokenError`. -/
structure TokenError where
  code : TokenErrorCode
  message : String
deriving DecidableEq

/-! ## Numbers -/

/-- `Number` of a natural number: 53 significant bits, a tie to the even neighbour. -/
def toNumber (n : Nat) : Nat :=
  let shift := n.log2 - 52
  let kept := n >>> shift
  let lost := n % 2 ^ shift
  if 2 * lost < 2 ^ shift ∨ 2 * lost = 2 ^ shift ∧ kept % 2 = 0 then kept <<< shift
  else (kept + 1) <<< shift

def ExactNumber (n : Nat) : Prop := 2 ^ (n.log2 - 52) ∣ n

instance (n : Nat) : Decidable (ExactNumber n) := by
  unfold ExactNumber
  infer_instance

/-! ## Texts -/

/-- `JSON.stringify` of the code unit at which a character starts. -/
def jsonUnit (c : Char) : String :=
  let digits (n : Nat) : String := hexByte (UInt8.ofNat (n / 256)) ++ hexByte (UInt8.ofNat n)
  let escaped (n : Nat) : String := "\\u" ++ digits n
  let body :=
    if c = '"' then "\\\""
    else if c = '\\' then "\\\\"
    else if c.toNat = 8 then "\\b"
    else if c.toNat = 9 then "\\t"
    else if c.toNat = 10 then "\\n"
    else if c.toNat = 12 then "\\f"
    else if c.toNat = 13 then "\\r"
    else if c.toNat < 32 then escaped c.toNat
    -- the high surrogate of a pair
    else if 0x10000 ≤ c.toNat then escaped (0xD800 + (c.toNat - 0x10000) / 0x400)
    else c.toString
  "\"" ++ body ++ "\""

def stripBom (s : String) : String := (stripPrefix s "\uFEFF").getD s

/-! ## Base64 -/

def B64U_ALPHABET : String := "ABCDEFGHIJKLMNOPQRSTUVWXYZabcdefghijklmnopqrstuvwxyz0123456789-_"

/-- `B64U_INDEX.get`. -/
def b64uIndex (c : Char) : Option Nat := B64U_ALPHABET.toList.idxOf? c

/-- The variables of the loop in `fromBase64UrlNoPad`. -/
structure Digits where
  out : Bytes
  acc : Nat
  bits : Nat

namespace Digits

def push (state : Digits) (v : Nat) : Digits :=
  let acc := (state.acc <<< 6 ||| v) % 2 ^ 32
  let bits := state.bits + 6
  if 8 ≤ bits then
    ⟨state.out ++ [UInt8.ofNat (acc >>> (bits - 8) &&& 0xff)], acc, bits - 8⟩
  else ⟨state.out, acc, bits⟩

def finish (label : String) (state : Digits) : Except String Bytes :=
  if 0 < state.bits ∧ state.acc &&& ((1 <<< state.bits) - 1) ≠ 0 then
    .error s!"{label}: non-zero trailing bits (not canonical base64url-nopad)"
  else .ok state.out

/-- The loop, from character `i` on. -/
def loop (label : String) : Nat → List Char → Digits → Except String Bytes
  | _, [], state => state.finish label
  | i, c :: rest, state =>
    match b64uIndex c with
    | none => .error s!"{label}: invalid base64url character {jsonUnit c} at index {i}"
    | some v => loop label (i + 1) rest (state.push v)

end Digits

/-- `fromBase64UrlNoPad`; the error is the message of its `TypeError`. -/
def fromBase64UrlNoPad (s label : String) : Except String Bytes :=
  Digits.loop label 0 s.toList ⟨[], 0, 0⟩

/-! ## Invites -/

structure DecodedRelay where
  url : String
  capability : Option String
  hasCapability : Bool
deriving DecidableEq

/-- What `decodeInvite` returns. -/
structure DecodedInvite where
  fabricId : String
  inviteId : String
  issuer : String
  expiresAtMs : Nat
  recipient : String
  relays : List DecodedRelay
  directAddrs : List String
deriving DecidableEq

def truncated (what : String) : TokenError :=
  ⟨.truncated, s!"decodeInvite: truncated {what}"⟩

/-- `off`, in the scan of `total` bytes. -/
def offset (total : Nat) : Scan TokenError Nat := fun bs => .ok (total - bs.length, bs)

/-- `u16`. -/
def u16 (total : Nat) : Scan TokenError Nat := do
  let off ← offset total
  Scan.be 2 (truncated s!"u16 field at offset {off}")

/-- `u64`, a `Number`. -/
def u64 (total : Nat) : Scan TokenError Nat := do
  let off ← offset total
  let n ← Scan.be 8 (truncated s!"u64 field at offset {off}")
  return toNumber n

/-- `bytesToHex(take(n, what))`. -/
def takeHex (n : Nat) (what : String) : Scan TokenError String := do
  let bytes ← Scan.take n (truncated what)
  return hexStr bytes

/-- `utf8(take(n, what), what)`. -/
def takeText (n : Nat) (what : String) : Scan TokenError String := do
  let bytes ← Scan.take n (truncated what)
  Scan.ofExcept (okOr (textDecode bytes) ⟨.badUtf8, s!"decodeInvite: {what} is not valid UTF-8"⟩)

def scanRelay (total i : Nat) : Scan TokenError DecodedRelay := do
  let urlLen ← u16 total
  Scan.check (MAX_RELAY_URL_BYTES < urlLen) ⟨.lengthExceeded,
    s!"decodeInvite: relay {i} URL of {urlLen} bytes exceeds {MAX_RELAY_URL_BYTES}"⟩
  let url ← takeText urlLen s!"relay {i} url"
  let capLen ← u16 total
  Scan.check (MAX_RELAY_CAP_BYTES < capLen) ⟨.lengthExceeded,
    s!"decodeInvite: relay {i} capability of {capLen} bytes exceeds {MAX_RELAY_CAP_BYTES}"⟩
  if capLen = 0 then return { url, capability := none, hasCapability := false }
  else
    let capability ← takeText capLen s!"relay {i} capability"
    return { url, capability := some capability, hasCapability := true }

def scanAddr (total i : Nat) : Scan TokenError String := do
  let family ← Scan.u8 (truncated s!"direct addr {i} family tag")
  if family = 4 then
    let bytes ← Scan.array 4 (truncated s!"direct addr {i} v4 bytes")
    let port ← u16 total
    return dotted bytes 0 ++ ":" ++ toString port
  else if family = 6 then
    let bytes ← Scan.array 16 (truncated s!"direct addr {i} v6 bytes")
    let port ← u16 total
    return formatIpv6 bytes ++ ":" ++ toString port
  else
    Scan.ofExcept (.error ⟨.badFamily,
      s!"decodeInvite: direct addr {i} has unknown family tag 0x{hexByte family}"⟩)

/-- The error after the last field, `off` being the place up to which was read. -/
def trailing (off total : Nat) : TokenError :=
  ⟨.trailingBytes, s!"decodeInvite: length mismatch: expected {off} canonical bytes, got {total}"⟩

/-- `decodeInvite` on the `total` bytes before the signature, up to the check of the length.
Without a byte for `addrCount` there is no address, and that check fails. -/
def scanInvite (total : Nat) : Scan TokenError DecodedInvite := do
  let domain ← Scan.take 15 (truncated "domain")
  Scan.check (domain ≠ INVITE2_DOMAIN) ⟨.badDomain, "decodeInvite: bad invite v2 domain prefix"⟩
  let version ← Scan.u8 (truncated "version")
  Scan.check (version ≠ INVITE2_VERSION) ⟨.unsupportedVersion,
    s!"decodeInvite: unsupported invite v2 version 0x{hexByte version}"⟩
  let fabricId ← takeHex 32 "fabric_id"
  let inviteId ← takeHex 16 "invite_id"
  let issuer ← takeHex 32 "issuer"
  let expiresAtMs ← u64 total
  let recipient ← takeHex 32 "recipient"
  let relayCount ← Scan.u8 (truncated "relay count")
  Scan.check (MAX_RELAYS_V2 < relayCount.toNat) ⟨.countExceeded,
    s!"decodeInvite: {relayCount} relays exceeds the limit of {MAX_RELAYS_V2}"⟩
  let relays ← Scan.times (scanRelay total) 0 relayCount.toNat
  let addrCount ← Scan.u8 (trailing (total + 1) total)
  Scan.check (MAX_DIRECT_ADDRS < addrCount.toNat) ⟨.countExceeded,
    s!"decodeInvite: {addrCount} direct addrs exceeds the limit of {MAX_DIRECT_ADDRS}"⟩
  let directAddrs ← Scan.times (scanAddr total) 0 addrCount.toNat
  return { fabricId, inviteId, issuer, expiresAtMs, recipient, relays, directAddrs }

def decodeInvite (token : String) : Except TokenError DecodedInvite := do
  let encoded ← okOr (stripPrefix token TOKEN2_PREFIX)
    ⟨.badPrefix, s!"decodeInvite: token must start with \"{TOKEN2_PREFIX}\""⟩
  let payload ← (fromBase64UrlNoPad encoded "decodeInvite").mapError
    fun message => ⟨.badBase64url, message⟩
  if payload.length < 64 + INVITE2_MIN_LEN then
    throw ⟨.truncated, "decodeInvite: payload shorter than the fixed prefix + signature " ++
      s!"({payload.length}B)"⟩
  let bytes := payload.take (payload.length - 64)
  let (invite, rest) ← (scanInvite bytes.length).run bytes
  if rest.length ≠ 0 then
    throw (trailing (bytes.length - rest.length) bytes.length)
  return invite

/-! ## Capabilities -/

structure DecodedCaps where
  relay : Bool
  rdzAnnounce : Bool
  rdzResolve : Bool
deriving DecidableEq

/-- What `decodeCapability` returns. -/
structure DecodedCapability where
  fabricId : String
  serverId : String
  issuer : String
  recipient : String
  capsBits : UInt8
  caps : DecodedCaps
  issuedAt : Nat
  expiresAt : Nat
  signature : String
deriving DecidableEq

/-- `caps`, from the bits. -/
def namedCaps (capsBits : UInt8) : DecodedCaps where
  relay := capsBits &&& 0x01 ≠ 0
  rdzAnnounce := capsBits &&& 0x02 ≠ 0
  rdzResolve := capsBits &&& 0x04 ≠ 0

/-- `readU64BE`. -/
def readU64BE (bytes : Bytes) (off : Nat) : Nat := toNumber (beNat (slice bytes off (off + 8)))

def decodeCapability (token : String) : Except TokenError DecodedCapability := do
  let encoded ← okOr (stripPrefix token RELAY_CAP_TOKEN_PREFIX)
    ⟨.badPrefix, s!"decodeCapability: token must start with \"{RELAY_CAP_TOKEN_PREFIX}\""⟩
  if RELAY_CAP_MAX_TOKEN_LEN < utf16Length token then
    throw ⟨.tooLong,
      s!"decodeCapability: token exceeds the {RELAY_CAP_MAX_TOKEN_LEN} byte length gate"⟩
  if utf16Length encoded ≠ RELAY_CAP_ENCODED_LEN then
    throw ⟨.badLength, s!"decodeCapability: payload must be {RELAY_CAP_ENCODED_LEN} base64url " ++
      s!"characters ({RELAY_CAP_WIRE_LEN}B wire); got {utf16Length encoded}"⟩
  let wire ← (fromBase64UrlNoPad encoded "decodeCapability").mapError
    fun message => ⟨.badBase64url, message⟩
  if wire.length ≠ RELAY_CAP_WIRE_LEN then
    throw ⟨.badLength,
      s!"decodeCapability: wire must decode to {RELAY_CAP_WIRE_LEN}B; got {wire.length}"⟩
  let version := wire.getD 0 0
  if version ≠ RELAY_CAP_VERSION then
    throw ⟨.unsupportedVersion,
      s!"decodeCapability: unsupported version 0x{hexByte version} (expected 0x01)"⟩
  let capsBits := wire.getD 129 0
  if capsBits &&& ~~~CAP_KNOWN_MASK ≠ 0 then
    throw ⟨.reservedBits, s!"decodeCapability: caps 0x{hexByte capsBits} contains reserved bits " ++
      s!"(known mask 0x{hexByte CAP_KNOWN_MASK})"⟩
  return {
    fabricId := hexStr (slice wire 1 33)
    serverId := hexStr (slice wire 33 65)
    issuer := hexStr (slice wire 65 97)
    recipient := hexStr (slice wire 97 129)
    capsBits
    caps := namedCaps capsBits
    issuedAt := readU64BE wire 130
    expiresAt := readU64BE wire 138
    signature := hexStr (slice wire 146 210) }

/-! ## The digit loop -/

def digitChars (text : Bytes) : List Char := text.map fun b => Char.ofNat b.toNat

theorem exists_alphabet : ∃ l, B64U_ALPHABET.toList = l ∧ l.length = 64 ∧
    (l.zipIdx.all fun x =>
      x.1.toNat < 256 && base64Val (UInt8.ofNat x.1.toNat) == some x.2) = true :=
  ⟨_, String.toList_ofList, by decide, by decide⟩

theorem b64uIndex_eq_some {c : Char} {n : Nat} :
    b64uIndex c = some n ↔ n < 64 ∧ Char.ofNat (base64Digit n).toNat = c := by
  obtain ⟨l, hl, hlength, hdigits⟩ := exists_alphabet
  have hdigit (k : Nat) (hk : k < l.length) :
      l[k].toNat < 256 ∧ base64Val (UInt8.ofNat l[k].toNat) = some k := by
    simpa using List.all_eq_true.mp hdigits _ (List.mk_mem_zipIdx_iff_getElem?.mpr
      (List.getElem?_eq_getElem hk))
  have hchar (k : Nat) (hk : k < l.length) : Char.ofNat (base64Digit k).toNat = l[k] := by
    obtain ⟨hlt, hval⟩ := hdigit k hk
    rw [(base64Digit_of_base64Val hval).2, UInt8.toNat_ofNat_of_lt' hlt, Char.ofNat_toNat]
  rw [b64uIndex, hl, List.idxOf?, List.findIdx?_eq_some_iff_getElem]
  constructor
  · rintro ⟨hn, hc, -⟩
    exact ⟨hlength ▸ hn, (hchar n hn).trans (beq_iff_eq.mp hc)⟩
  · rintro ⟨hn, rfl⟩
    have hn' : n < l.length := hlength.symm ▸ hn
    rw [hchar n hn']
    -- two places of the alphabet that agree have one value
    refine ⟨hn', beq_self_eq_true _, fun j hj heq => ?_⟩
    have hsame := (hdigit j (hj.trans hn')).2
    rw [beq_iff_eq.mp heq, (hdigit n hn').2, Option.some.injEq] at hsame
    omega

theorem ofNat_congr {a b : Nat} (h : a % 256 = b % 256) : UInt8.ofNat a = UInt8.ofNat b := by
  rw [← UInt8.toNat_inj, UInt8.toNat_ofNat', UInt8.toNat_ofNat']
  exact h

namespace Digits

def shifted (acc v : Nat) : Nat := (acc * 64 + v) % 2 ^ 32

theorem or_eq_shifted {acc v : Nat} (h : v < 64) :
    (acc <<< 6 ||| v) % 2 ^ 32 = shifted acc v := by
  rw [← Nat.shiftLeft_add_eq_or_of_lt (by exact h), Nat.shiftLeft_eq, shifted]

variable {out : Bytes} {acc v : Nat}

theorem push_zero (h : v < 64) : push ⟨out, acc, 0⟩ v = ⟨out, shifted acc v, 6⟩ := by
  have hfew : ¬8 ≤ 0 + 6 := by decide
  simp only [push, or_eq_shifted h, hfew, if_false]

theorem push_byte {bits : Nat} (h : v < 64) (hbits : 2 ≤ bits) :
    push ⟨out, acc, bits⟩ v
      = ⟨out ++ [UInt8.ofNat (shifted acc v / 2 ^ (bits - 2))], shifted acc v, bits - 2⟩ := by
  have henough : 8 ≤ bits + 6 := by omega
  have hsub : bits + 6 - 8 = bits - 2 := by omega
  have hlast : ∀ n, UInt8.ofNat (n &&& 0xff) = UInt8.ofNat n := fun n => by
    rw [show (0xff : Nat) = 2 ^ 8 - 1 from rfl, Nat.and_two_pow_sub_one_eq_mod]
    exact ofNat_congr (Nat.mod_mod n 256)
  simp only [push, or_eq_shifted h, henough, if_true, hsub, hlast, Nat.shiftRight_eq_div_pow]

variable {w x y : Nat} {label : String} {bytes : Bytes}

theorem push_two (hw : w < 64) (hx : x < 64) :
    ((⟨out, acc, 0⟩ : Digits).push w).push x
      = ⟨out ++ [UInt8.ofNat (w * 4 + x / 16)], shifted (shifted acc w) x, 4⟩ := by
  have hbyte : shifted (shifted acc w) x / 2 ^ (6 - 2) % 256 = (w * 4 + x / 16) % 256 := by
    simp only [shifted]
    omega
  rw [push_zero hw, push_byte hx (by decide), ofNat_congr hbyte]

theorem push_three (hw : w < 64) (hx : x < 64) (hy : y < 64) :
    (((⟨out, acc, 0⟩ : Digits).push w).push x).push y
      = ⟨out ++ [UInt8.ofNat (w * 4 + x / 16), UInt8.ofNat (x % 16 * 16 + y / 4)],
          shifted (shifted (shifted acc w) x) y, 2⟩ := by
  have hbyte : shifted (shifted (shifted acc w) x) y / 2 ^ (4 - 2) % 256
      = (x % 16 * 16 + y / 4) % 256 := by
    simp only [shifted]
    omega
  rw [push_two hw hx, push_byte hy (by decide), ofNat_congr hbyte, List.append_assoc]
  rfl

theorem push_group {z : Nat} (hw : w < 64) (hx : x < 64) (hy : y < 64) (hz : z < 64) :
    ((((⟨out, acc, 0⟩ : Digits).push w).push x).push y).push z
      = ⟨out ++ [UInt8.ofNat (w * 4 + x / 16), UInt8.ofNat (x % 16 * 16 + y / 4),
          UInt8.ofNat (y % 4 * 64 + z)], shifted (shifted (shifted (shifted acc w) x) y) z, 0⟩ := by
  have hbyte : shifted (shifted (shifted (shifted acc w) x) y) z / 2 ^ (2 - 2) % 256
      = (y % 4 * 64 + z) % 256 := by
    simp only [shifted]
    omega
  rw [push_three hw hx hy, push_byte hz (by decide), ofNat_congr hbyte, List.append_assoc]
  rfl

theorem shifted_mod (acc v : Nat) : shifted acc v % 64 = v % 64 := by
  rw [shifted]
  omega

theorem finish_eq_ok {bits : Nat} (hbits : 0 < bits) :
    finish label ⟨out, acc, bits⟩ = .ok bytes ↔ acc % 2 ^ bits = 0 ∧ out = bytes := by
  show (if _ then _ else _) = _ ↔ _
  rw [Nat.shiftLeft_eq, Nat.one_mul, Nat.and_two_pow_sub_one_eq_mod]
  by_cases hzero : acc % 2 ^ bits = 0
  · simp only [hzero, ne_eq, not_true_eq_false, and_false, if_false, true_and, Except.ok.injEq]
  · simp only [hzero, ne_eq, not_false_eq_true, and_true, hbits, if_true, false_and,
      reduceCtorEq]

theorem loop_cons_eq_ok {i : Nat} {c : Char} {cs : List Char} {state : Digits} :
    loop label i (c :: cs) state = .ok bytes
      ↔ ∃ v < 64, Char.ofNat (base64Digit v).toNat = c
        ∧ loop label (i + 1) cs (state.push v) = .ok bytes := by
  rw [loop]
  constructor
  · intro h
    split at h
    · cases h
    · next v hv =>
      obtain ⟨hlt, hc⟩ := b64uIndex_eq_some.mp hv
      exact ⟨v, hlt, hc, h⟩
  · rintro ⟨v, hlt, hc, h⟩
    rw [b64uIndex_eq_some.mpr ⟨hlt, hc⟩]
    exact h

/-- What the loop makes of the characters from a byte boundary on: the digits of `tail`, or these
and an `A` that gives no bits to a byte. -/
def Reads (cs : List Char) (tail : Bytes) : Prop :=
  ∃ text, base64Bytes text = some tail
    ∧ (cs = digitChars text ∨ text.length % 4 = 0 ∧ cs = digitChars text ++ ['A'])

theorem base64Bytes_group {z : Nat} (hw : w < 64) (hx : x < 64) (hy : y < 64) (hz : z < 64)
    {text tail : Bytes} (h : base64Bytes text = some tail) :
    base64Bytes (base64Digit w :: base64Digit x :: base64Digit y :: base64Digit z :: text)
      = some (UInt8.ofNat (w * 4 + x / 16) :: UInt8.ofNat (x % 16 * 16 + y / 4)
        :: UInt8.ofNat (y % 4 * 64 + z) :: tail) := by
  rw [base64Bytes, base64Val_base64Digit hw, base64Val_base64Digit hx, base64Val_base64Digit hy,
    base64Val_base64Digit hz, h]
  rfl

theorem reads_of_loop :
    ∀ (cs : List Char) (i : Nat) (out : Bytes) (acc : Nat),
      loop label i cs ⟨out, acc, 0⟩ = .ok bytes → ∃ tail, bytes = out ++ tail ∧ Reads cs tail
  | [], _, out, _, h => by
    cases h
    exact ⟨[], (List.append_nil out).symm, [], rfl, .inl rfl⟩
  | [_], _, out, acc, h => by
    obtain ⟨w, hw, rfl, hend⟩ := loop_cons_eq_ok.mp h
    rw [push_zero hw, loop, finish_eq_ok (by decide)] at hend
    obtain ⟨hbits, rfl⟩ := hend
    -- six bits are left, and they are zero
    have hzero : w = 0 := by
      have hlow := shifted_mod acc w
      omega
    rw [hzero]
    exact ⟨[], (List.append_nil out).symm, [], rfl, .inr ⟨rfl, by decide⟩⟩
  | [_, _], _, out, acc, h => by
    obtain ⟨w, hw, rfl, hafter⟩ := loop_cons_eq_ok.mp h
    obtain ⟨x, hx, rfl, hend⟩ := loop_cons_eq_ok.mp hafter
    rw [push_two hw hx, loop, finish_eq_ok (by decide)] at hend
    obtain ⟨hbits, rfl⟩ := hend
    have hlast : x % 16 = 0 := by
      have hlow := shifted_mod (shifted acc w) x
      omega
    refine ⟨_, rfl, [base64Digit w, base64Digit x], ?_, .inl rfl⟩
    rw [base64Bytes, base64Val_base64Digit hw, base64Val_base64Digit hx]
    exact if_pos hlast
  | [_, _, _], _, out, acc, h => by
    obtain ⟨w, hw, rfl, hafter⟩ := loop_cons_eq_ok.mp h
    obtain ⟨x, hx, rfl, hafter'⟩ := loop_cons_eq_ok.mp hafter
    obtain ⟨y, hy, rfl, hend⟩ := loop_cons_eq_ok.mp hafter'
    rw [push_three hw hx hy, loop, finish_eq_ok (by decide)] at hend
    obtain ⟨hbits, rfl⟩ := hend
    have hlast : y % 4 = 0 := by
      have hlow := shifted_mod (shifted (shifted acc w) x) y
      omega
    refine ⟨_, rfl, [base64Digit w, base64Digit x, base64Digit y], ?_, .inl rfl⟩
    rw [base64Bytes, base64Val_base64Digit hw, base64Val_base64Digit hx, base64Val_base64Digit hy]
    exact if_pos hlast
  | _ :: _ :: _ :: _ :: rest, _, out, acc, h => by
    obtain ⟨w, hw, rfl, hafter⟩ := loop_cons_eq_ok.mp h
    obtain ⟨x, hx, rfl, hafter'⟩ := loop_cons_eq_ok.mp hafter
    obtain ⟨y, hy, rfl, hafter''⟩ := loop_cons_eq_ok.mp hafter'
    obtain ⟨z, hz, rfl, hrest⟩ := loop_cons_eq_ok.mp hafter''
    rw [push_group hw hx hy hz] at hrest
    obtain ⟨tail, rfl, text, htext, hcs⟩ := reads_of_loop rest _ _ _ hrest
    refine ⟨_, List.append_assoc _ _ _, _, base64Bytes_group hw hx hy hz htext, ?_⟩
    rcases hcs with rfl | ⟨hlen, rfl⟩
    · exact .inl rfl
    · refine .inr ⟨?_, rfl⟩
      simp only [List.length_cons]
      omega

theorem loop_of_reads {text tail : Bytes} (h : base64Bytes text = some tail) (i : Nat) (out : Bytes)
    (acc : Nat) :
    loop label i (digitChars text) ⟨out, acc, 0⟩ = .ok (out ++ tail)
      ∧ (text.length % 4 = 0 →
        loop label i (digitChars text ++ ['A']) ⟨out, acc, 0⟩ = .ok (out ++ tail)) := by
  fun_induction base64Bytes text generalizing tail i out acc with
  | case1 =>
    cases h
    rw [List.append_nil]
    refine ⟨rfl, fun _ => loop_cons_eq_ok.mpr ⟨0, by decide, by decide, ?_⟩⟩
    rw [push_zero (by decide), loop, finish_eq_ok (by decide)]
    exact ⟨shifted_mod acc 0, rfl⟩
  | case2 => cases h
  | case3 w x =>
    obtain ⟨w', hw, hafter⟩ := Option.bind_eq_some_iff.mp h
    obtain ⟨x', hx, hlast⟩ := Option.bind_eq_some_iff.mp hafter
    obtain ⟨hwlt, rfl⟩ := base64Digit_of_base64Val hw
    obtain ⟨hxlt, rfl⟩ := base64Digit_of_base64Val hx
    split at hlast
    · next hbits =>
      cases hlast
      refine ⟨loop_cons_eq_ok.mpr ⟨w', hwlt, rfl, loop_cons_eq_ok.mpr ⟨x', hxlt, rfl, ?_⟩⟩,
        (by intros; contradiction)⟩
      rw [push_two hwlt hxlt, List.map_nil, loop, finish_eq_ok (by decide)]
      have hlow := shifted_mod (shifted acc w') x'
      exact ⟨by omega, rfl⟩
    · cases hlast
  | case4 w x y =>
    obtain ⟨w', hw, hafter⟩ := Option.bind_eq_some_iff.mp h
    obtain ⟨x', hx, hafter'⟩ := Option.bind_eq_some_iff.mp hafter
    obtain ⟨y', hy, hlast⟩ := Option.bind_eq_some_iff.mp hafter'
    obtain ⟨hwlt, rfl⟩ := base64Digit_of_base64Val hw
    obtain ⟨hxlt, rfl⟩ := base64Digit_of_base64Val hx
    obtain ⟨hylt, rfl⟩ := base64Digit_of_base64Val hy
    split at hlast
    · next hbits =>
      cases hlast
      refine ⟨loop_cons_eq_ok.mpr ⟨w', hwlt, rfl, loop_cons_eq_ok.mpr ⟨x', hxlt, rfl,
        loop_cons_eq_ok.mpr ⟨y', hylt, rfl, ?_⟩⟩⟩, (by intros; contradiction)⟩
      rw [push_three hwlt hxlt hylt, List.map_nil, loop, finish_eq_ok (by decide)]
      have hlow := shifted_mod (shifted (shifted acc w') x') y'
      exact ⟨by omega, rfl⟩
    · cases hlast
  | case5 w x y z rest ih =>
    obtain ⟨w', hw, hafter⟩ := Option.bind_eq_some_iff.mp h
    obtain ⟨x', hx, hafter'⟩ := Option.bind_eq_some_iff.mp hafter
    obtain ⟨y', hy, hafter''⟩ := Option.bind_eq_some_iff.mp hafter'
    obtain ⟨z', hz, hrest⟩ := Option.bind_eq_some_iff.mp hafter''
    obtain ⟨tail, htail, hlast⟩ := Option.bind_eq_some_iff.mp hrest
    obtain ⟨hwlt, rfl⟩ := base64Digit_of_base64Val hw
    obtain ⟨hxlt, rfl⟩ := base64Digit_of_base64Val hx
    obtain ⟨hylt, rfl⟩ := base64Digit_of_base64Val hy
    obtain ⟨hzlt, rfl⟩ := base64Digit_of_base64Val hz
    cases hlast
    obtain ⟨hplain, hdangling⟩ := ih htail (i + 1 + 1 + 1 + 1)
      (out ++ [UInt8.ofNat (w' * 4 + x' / 16), UInt8.ofNat (x' % 16 * 16 + y' / 4),
        UInt8.ofNat (y' % 4 * 64 + z')]) (shifted (shifted (shifted (shifted acc w') x') y') z')
    rw [List.append_assoc] at hplain hdangling
    have hgroup : ∀ cs bytes, loop label (i + 1 + 1 + 1 + 1) cs
        ⟨out ++ [UInt8.ofNat (w' * 4 + x' / 16), UInt8.ofNat (x' % 16 * 16 + y' / 4),
          UInt8.ofNat (y' % 4 * 64 + z')], shifted (shifted (shifted (shifted acc w') x') y') z', 0⟩
        = .ok bytes →
        loop label i (Char.ofNat (base64Digit w').toNat :: Char.ofNat (base64Digit x').toNat
          :: Char.ofNat (base64Digit y').toNat :: Char.ofNat (base64Digit z').toNat :: cs)
          ⟨out, acc, 0⟩ = .ok bytes := fun cs bytes hloop =>
      loop_cons_eq_ok.mpr ⟨w', hwlt, rfl, loop_cons_eq_ok.mpr ⟨x', hxlt, rfl,
        loop_cons_eq_ok.mpr ⟨y', hylt, rfl, loop_cons_eq_ok.mpr ⟨z', hzlt, rfl, by
          rw [push_group hwlt hxlt hylt hzlt]
          exact hloop⟩⟩⟩⟩
    refine ⟨hgroup _ _ hplain, fun hlen => hgroup _ _ (hdangling ?_)⟩
    simp only [List.length_cons] at hlen
    omega

end Digits

/-- **The texts that the digit loop accepts**: `base64Decode` reads them too, but for a dangling
`A`. -/
theorem fromBase64UrlNoPad_eq_ok {s label : String} {bytes : Bytes} :
    fromBase64UrlNoPad s label = .ok bytes
      ↔ ∃ t, base64Decode t = some bytes
        ∧ (s = t ∨ (utf8Bytes t).length % 4 = 0 ∧ s = t ++ "A") := by
  have hchars : ∀ {text : Bytes}, base64Bytes text = some bytes →
      utf8Bytes (String.ofList (digitChars text)) = text := fun {text} h =>
    utf8Bytes_ofList_ascii fun b hb => lt_of_isBase64
      (isBase64_base64Text bytes b ((base64Text_of_base64Bytes h).symm ▸ hb))
  have hdigits : ∀ {t : String}, base64Decode t = some bytes →
      digitChars (utf8Bytes t) = t.toList := fun {t} h => by
    rw [← String.ofList_inj, String.ofList_toList]
    exact utf8Bytes_injective (hchars h)
  constructor
  · intro h
    obtain ⟨tail, rfl, text, htext, hcs⟩ := Digits.reads_of_loop _ _ _ _ h
    refine ⟨String.ofList (digitChars text), ?_, ?_⟩
    · rw [base64Decode, hchars htext]
      exact htext
    · rw [hchars htext, ← String.toList_inj, ← String.toList_inj, String.toList_append,
        String.toList_ofList]
      exact hcs
  · rintro ⟨t, ht, rfl | ⟨hlen, rfl⟩⟩
    · have hloop := (@Digits.loop_of_reads label _ _ ht 0 [] 0).1
      rw [hdigits ht] at hloop
      exact hloop
    · have hloop := (@Digits.loop_of_reads label _ _ ht 0 [] 0).2 hlen
      rw [hdigits ht] at hloop
      rw [fromBase64UrlNoPad, String.toList_append]
      exact hloop

/-! ## Texts with a mark -/

/-- **The texts that `TextDecoder` reads**: all, and the mark at the start is lost. -/
theorem textDecode_eq_some {bytes : Bytes} {t : String} :
    textDecode bytes = some t ↔ ∃ s, bytes = utf8Bytes s ∧ stripBom s = t := by
  have hbom : utf8Bytes "\uFEFF" = BOM := by decide
  have hmark : ∀ s : String, (utf8Bytes s).take 3 = BOM ↔ ∃ u, s = "\uFEFF" ++ u := by
    intro s
    constructor
    · intro h
      have hprefix : utf8Bytes "\uFEFF" <+: utf8Bytes s := by
        rw [hbom, ← h]
        exact List.take_prefix 3 _
      obtain ⟨rest, hrest⟩ := toList_prefix_of_utf8Bytes hprefix
      refine ⟨String.ofList rest, String.toList_inj.mp ?_⟩
      rw [String.toList_append, ← hrest]
      simp only [String.toList_ofList]
    · rintro ⟨u, rfl⟩
      rw [utf8Bytes_append, hbom]
      rfl
  have hkept : ∀ s : String, (utf8Bytes s).take 3 ≠ BOM → stripBom s = s := by
    intro s hstart
    rw [stripBom]
    cases hstrip : stripPrefix s "\uFEFF" with
    | none => rfl
    | some u => exact absurd ((hmark s).mpr ⟨u, stripPrefix_eq_some.mp hstrip⟩) hstart
  unfold textDecode
  constructor
  · intro h
    split at h
    · next hstart =>
      have hsplit : bytes = utf8Bytes ("\uFEFF" ++ t) := by
        rw [utf8Bytes_append, hbom, ← hstart, utf8Bytes_of_utf8Text? h, List.take_append_drop]
      refine ⟨_, hsplit, ?_⟩
      rw [stripBom, stripPrefix_eq_some.mpr rfl]
      rfl
    · next hstart =>
      obtain rfl := utf8Bytes_of_utf8Text? h
      exact ⟨t, rfl, hkept t hstart⟩
  · rintro ⟨s, rfl, rfl⟩
    split
    · next hstart =>
      obtain ⟨u, rfl⟩ := (hmark s).mp hstart
      have hdrop : (utf8Bytes ("\uFEFF" ++ u)).drop 3 = utf8Bytes u := by
        rw [utf8Bytes_append, hbom]
        rfl
      rw [hdrop, utf8Text?_utf8Bytes, stripBom, stripPrefix_eq_some.mpr rfl]
      rfl
    · next hstart =>
      rw [utf8Text?_utf8Bytes, hkept s hstart]

theorem stripBom_eq_self {s : String} : stripBom s = s ↔ ∀ u, s ≠ "\uFEFF" ++ u := by
  rw [stripBom]
  cases hstrip : stripPrefix s "\uFEFF" with
  | none =>
    refine iff_of_true rfl fun u hu => ?_
    rw [stripPrefix_eq_some.mpr hu] at hstrip
    cases hstrip
  | some u =>
    have hs := stripPrefix_eq_some.mp hstrip
    refine iff_of_false (fun heq => ?_) fun hnone => hnone u hs
    have hlen : s.length = 1 + s.length := by
      calc s.length = ("\uFEFF" ++ u).length := by rw [← hs]
        _ = 1 + u.length := by rw [String.length_append]; rfl
        _ = 1 + s.length := by rw [show u = s from heq]
    omega

/-! ## Exact numbers -/

/-- **The numbers that survive as a `Number`.** -/
theorem toNumber_eq_iff {n : Nat} : toNumber n = n ↔ ExactNumber n := by
  have hsplit := Nat.div_add_mod n (2 ^ (n.log2 - 52))
  have hlt := Nat.mod_lt n (Nat.two_pow_pos (n.log2 - 52))
  unfold toNumber ExactNumber
  simp only [Nat.shiftLeft_eq, Nat.shiftRight_eq_div_pow]
  rw [Nat.dvd_iff_mod_eq_zero]
  rw [Nat.mul_comm] at hsplit
  split
  · constructor
    · intro h
      omega
    · intro h
      omega
  · next hround =>
    rw [Nat.add_mul, Nat.one_mul]
    constructor
    · intro h
      omega
    · intro h
      rw [h] at hround
      have hpos := Nat.two_pow_pos (n.log2 - 52)
      omega

end Dweb.TokenSdk
