import OpenDweb.Cli.Ipv6Text

/-!
# OpenDweb — the access short code

`opendweb/src/util.mjs`: an address and a port as `dwebh1.` and 15 or 34 characters of Crockford's
base 32, with a checksum, for people to type.

* **`crc16CcittFalse`** — the checksum, byte by byte.
* **`bytesToCrockford`** — five bits a character, from the highest on.
* **`encodeShortCode`**, **`formatShortCodeForDisplay`** — a code, and with hyphens between groups.
* **`decodeShortCode`** — any case, and each hyphen optional.
-/

namespace Dweb

/-- `SHORT_CODE_PREFIX`. -/
def shortCodePrefix : List Char := "dwebh1.".toList

/-- `CROCKFORD_ALPHABET`. -/
def crockfordAlphabet : List Char := "0123456789abcdefghjkmnpqrstvwxyz".toList

/-- `AMBIGUOUS_HINT`. -/
def ambiguousHint : Char → Option Char
  | 'o' => some '0'
  | 'i' => some '1'
  | 'l' => some '1'
  | 'u' => some 'v'
  | _ => none

/-- `CROCKFORD_REVERSE`. -/
def crockfordReverse (ch : Char) : Option Nat := crockfordAlphabet.findIdx? (· = ch)

/-! ## The checksum -/

def crc16Shift (crc : Nat) : Nat :=
  if crc &&& 0x8000 ≠ 0 then ((crc <<< 1) ^^^ 0x1021) &&& 0xffff else (crc <<< 1) &&& 0xffff

def crc16Byte (crc b : Nat) : Nat := crc16Shift^[8] (crc ^^^ b <<< 8)

def crc16CcittFalse (bytes : List Nat) : Nat := bytes.foldl crc16Byte 0xffff

example : crc16CcittFalse ("123456789".toList.map Char.toNat) = 0x29B1 := by decide +kernel

/-! ## The characters -/

def crockfordChar (v : Nat) : Char := crockfordAlphabet.getD v '0'

/-- The inner loop: what is written, and the bits that are left. -/
def drainBits : Nat → Nat → List Char × Nat × Nat
  | acc, bits + 5 =>
    let (out, left) := drainBits (acc &&& (1 <<< bits) - 1) bits
    (crockfordChar (acc >>> bits &&& 0x1f) :: out, left)
  | acc, bits => ([], acc, bits)

def crockfordLoop : List Nat → Nat → Nat → List Char
  | [], acc, bits => if 0 < bits then [crockfordChar (acc <<< (5 - bits) &&& 0x1f)] else []
  | b :: bytes, acc, bits =>
    let (out, acc, bits) := drainBits (acc <<< 8 ||| b) (bits + 8)
    out ++ crockfordLoop bytes acc bits

def bytesToCrockford (bytes : List Nat) : List Char := crockfordLoop bytes 0 0

/-! ## Encoding -/

def shortCodeBytes (payload : List Nat) : List Nat :=
  let crc := crc16CcittFalse payload
  payload ++ [crc >>> 8, crc &&& 0xff]

def addressPayload (ip : List Char) : Except String (List Nat) :=
  if isIPv4 ip then .ok (0x01 :: ipv4Bytes ip)
  else
    match parseIpv6Groups ip with
    | none => .error s!"short code: not a valid IPv4/IPv6 address: {String.ofList ip}"
    | some groups =>
      if isLinkLocalIpv6 groups then
        .error (s!"short code: {String.ofList (formatIpv6Groups groups)} is a link-local " ++
          "address (fe80::/10) and cannot be encoded; use a routable ULA or global address")
      else .ok (0x02 :: groups.flatMap fun g => [g >>> 8, g &&& 0xff])

def encodeShortCode (ip : List Char) (port : Int) : Except String (List Char) :=
  if port < 1 ∨ 65535 < port then .error s!"short code: invalid port {port}"
  else do
    let address ← addressPayload ip
    let port := port.toNat
    let payload := address ++ [port >>> 8, port &&& 0xff]
    return shortCodePrefix ++ bytesToCrockford (shortCodeBytes payload)

/-- `chunk`, for `n + 1` characters a group. -/
def chunkText (n : Nat) : List Char → Nat → List (List Char)
  | [], _ => []
  | _, 0 => []
  | ch :: rest, fuel + 1 => (ch :: rest.take n) :: chunkText n (rest.drop n) fuel

def formatShortCodeForDisplay (code : List Char) : List Char :=
  let lower := code.map jsLower
  let body := if shortCodePrefix <+: lower then lower.drop shortCodePrefix.length else lower
  let groups :=
    if body.length = 15 then [body.take 5, (body.take 10).drop 5, (body.take 15).drop 10]
    else chunkText 3 body body.length
  shortCodePrefix ++ ['-'].intercalate groups

/-! ## Decoding -/

/-- `HYPHEN_BOUNDARIES`, by the number of data characters. -/
def hyphenBoundaries : Nat → Option (List Nat)
  | 15 => some [5, 10]
  | 34 => some [4, 8, 12, 16, 20, 24, 28, 32]
  | _ => none

/-- What follows `/^dwebh1\./i`. -/
def matchPrefix (raw : List Char) : Option (List Char) :=
  if (raw.take 7).map Char.toLower = shortCodePrefix then some (raw.drop 7) else none

def scanBody : List Char → Bool → Except String (List Char)
  | [], _ => .ok []
  | ch :: body, prevHyphen =>
    if ch = '-' then
      if prevHyphen then .error "short code: repeated or misplaced hyphen" else scanBody body true
    else
      let lower := jsLower ch
      match ambiguousHint lower with
      | some hint =>
        .error (s!"short code: ambiguous character \"{ch}\" " ++
          s!"(use \"{hint}\"; crockford excludes i/l/o/u)")
      | none =>
        if crockfordReverse lower = none then .error s!"short code: invalid character \"{ch}\""
        else do
          let data ← scanBody body false
          return lower :: data

def hyphensFit (boundaries : List Nat) : Nat → List Char → Bool
  | _, [] => true
  | count, ch :: body =>
    if ch = '-' then boundaries.contains count && hyphensFit boundaries count body
    else hyphensFit boundaries (count + 1) body

/-- The lowest `n` bits, from the highest on. -/
def bitsOf : Nat → Nat → List Bool
  | 0, _ => []
  | n + 1, v => v.testBit n :: bitsOf n v

def readBits (bits : List Bool) (start len : Nat) : Nat :=
  ((bits.drop start).take len).foldl (fun v bit => v <<< 1 ||| bit.toNat) 0

structure DecodedCode where
  ip : List Char
  port : Nat
  url : List Char
  family : Nat
deriving DecidableEq

def decodeFields (ver : Nat) (ip : List Nat) (port crcStored : Nat) : Except String DecodedCode :=
  if ver ≠ 0x01 ∧ ver ≠ 0x02 then
    .error ("short code: unknown version byte 0x" ++ String.ofList ((toHex ver).leftpad 2 '0'))
  else if ¬ (ver = 0x01 ↔ ip.length = 4) then .error "short code: version/family mismatch"
  else
    let crcActual := crc16CcittFalse (ver :: ip ++ [port >>> 8, port &&& 0xff])
    if crcStored ≠ crcActual then
      .error (s!"short code: checksum mismatch (expected 0x{String.ofList (toHex crcActual)}, " ++
        s!"got 0x{String.ofList (toHex crcStored)})")
    else if ver = 0x02 then
      let groups := (List.range 8).map fun i => ip.getD (2 * i) 0 <<< 8 ||| ip.getD (2 * i + 1) 0
      if isLinkLocalIpv6 groups then
        .error ("short code: decoded address is link-local (fe80::/10); use a routable ULA or " ++
          "global address")
      else
        let ipText := formatIpv6Groups groups
        .ok ⟨ipText, port, "http://[".toList ++ ipText ++ "]:".toList ++ toDecimal port, 6⟩
    else
      let ipText := ipv4Text ip
      .ok ⟨ipText, port, "http://".toList ++ ipText ++ ":".toList ++ toDecimal port, 4⟩

def decodeBits (count : Nat) (bits : List Bool) : Except String DecodedCode :=
  let neededBits := if count = 15 then 72 else 168
  let ipBytes := if count = 15 then 4 else 16
  let portStart := 8 + ipBytes * 8
  if (bits.drop neededBits).any id then .error "short code: non-zero padding bits"
  else
    decodeFields (readBits bits 0 8) ((List.range ipBytes).map fun i => readBits bits (8 + i * 8) 8)
      (readBits bits portStart 16) (readBits bits (portStart + 16) 16)

def decodeShortCode (raw : List Char) : Except String DecodedCode :=
  match matchPrefix raw with
  | none => .error s!"short code: missing \"{String.ofList shortCodePrefix}\" prefix"
  | some body => do
    let dataChars ← scanBody body true
    if dataChars.length = 0 then .error "short code: empty payload"
    else
      match hyphenBoundaries dataChars.length with
      | none =>
        .error ("short code: expected 15 characters (IPv4) or 34 characters (IPv6), " ++
          s!"got {dataChars.length}")
      | some boundaries =>
        if ¬ hyphensFit boundaries 0 body then .error "short code: misplaced hyphen"
        else
          decodeBits dataChars.length
            (dataChars.flatMap fun ch => bitsOf 5 ((crockfordReverse ch).getD 0))

example : (encodeShortCode "192.168.2.13".toList 8787).map formatShortCodeForDisplay =
    .ok "dwebh1.070ag-0gd49-9qnz8".toList := by decide +kernel

example : decodeShortCode "dwebh1.0byg-0000-0000-0000-0000-0000-009j-4mz5-0r".toList =
    .ok ⟨"fd00::13".toList, 8787, "http://[fd00::13]:8787".toList, 6⟩ := by decide +kernel

end Dweb
