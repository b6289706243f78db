import OpenDweb.Lib.Text

/-!
# OpenDweb — hexadecimal text

* **`hexStr`** — bytes as lower-case digits; **`hexDecode`** reads digits of either case.
* **`hexDecode_hexStr`** — what was written is read back.
* **`toAsciiLowercase_hexStr`** — it is lower case already.
-/

namespace Dweb

open List

/-! ## Writing -/

def hexByte (b : UInt8) : String :=
  let digit (n : Nat) : Char := "0123456789abcdef".toList.getD n '0'
  String.ofList [digit (b.toNat / 16), digit (b.toNat % 16)]

/-- `hex_str`, also the `Display` of a `FabricId`. -/
def hexStr (bytes : Bytes) : String := String.join (bytes.map hexByte)

/-! ## Reading -/

/-- `FromHexError`, the two variants a vector raises. -/
inductive HexError where
  | oddLength
  | invalidHexCharacter (c : Char) (index : Nat)
  deriving DecidableEq

/-- `hex::decode`'s `val`: the value of one digit, given as a byte of the text. -/
def hexVal (c : UInt8) (idx : Nat) : Except HexError UInt8 :=
  if 65 ≤ c ∧ c ≤ 70 then .ok (c - 65 + 10)
  else if 97 ≤ c ∧ c ≤ 102 then .ok (c - 97 + 10)
  else if 48 ≤ c ∧ c ≤ 57 then .ok (c - 48)
  else .error (.invalidHexCharacter (Char.ofNat c.toNat) idx)

/-- The pairs of digits, from byte `idx` of the text on. -/
def hexPairs : Nat → Bytes → Except HexError Bytes
  | _, [] => .ok []
  | _, [_] => .error .oddLength
  | idx, hi :: lo :: rest => do
    let hi ← hexVal hi idx
    let lo ← hexVal lo (idx + 1)
    let bytes ← hexPairs (idx + 2) rest
    .ok ((hi <<< 4 ||| lo) :: bytes)

/-- `hex::decode`. -/
def hexDecode (s : String) : Except HexError Bytes :=
  let text := utf8Bytes s
  if text.length % 2 ≠ 0 then .error .oddLength else hexPairs 0 text

example : hexDecode "0Fa1" = .ok [15, 161] := by decide +kernel

/-! ## Round trip -/

/-- The digit of `n`, as a byte of the text. -/
def hexDigit (n : Nat) : UInt8 := "0123456789abcdef".toUTF8.data.toList.getD n 0

theorem hexVal_hexDigit {n : Nat} (h : n < 16) (idx : Nat) :
    hexVal (hexDigit n) idx = .ok (UInt8.ofNat n) := by
  interval_cases n <;> rfl

theorem utf8Bytes_hexByte (b : UInt8) :
    utf8Bytes (hexByte b) = [hexDigit (b.toNat / 16), hexDigit (b.toNat % 16)] := by
  have hdigit : ∀ n < 16, String.utf8EncodeChar ("0123456789abcdef".toList.getD n '0')
      = [hexDigit n] := by decide +kernel
  have hlt : b.toNat < 256 := b.toNat_lt
  rw [hexByte, utf8Bytes_eq, String.toList_ofList, flatMap_cons, flatMap_singleton,
    hdigit _ (by omega), hdigit _ (by omega)]
  rfl

theorem hexVal_pair (b : UInt8) :
    UInt8.ofNat (b.toNat / 16) <<< 4 ||| UInt8.ofNat (b.toNat % 16) = b := by
  have hall : ∀ n < 256, UInt8.ofNat (n / 16) <<< 4 ||| UInt8.ofNat (n % 16) = UInt8.ofNat n := by
    decide +kernel
  rw [hall b.toNat b.toNat_lt, UInt8.ofNat_toNat]

theorem hexStr_cons (b : UInt8) (bytes : Bytes) : hexStr (b :: bytes) = hexByte b ++ hexStr bytes := by
  rw [hexStr, hexStr, map_cons, String.join_cons]

theorem utf8Bytes_hexStr_cons (b : UInt8) (bytes : Bytes) :
    utf8Bytes (hexStr (b :: bytes))
      = hexDigit (b.toNat / 16) :: hexDigit (b.toNat % 16) :: utf8Bytes (hexStr bytes) := by
  rw [hexStr_cons, utf8Bytes_append, utf8Bytes_hexByte]
  rfl

theorem length_utf8Bytes_hexStr (bytes : Bytes) :
    (utf8Bytes (hexStr bytes)).length = 2 * bytes.length := by
  induction bytes with
  | nil => rfl
  | cons b bytes ih =>
    rw [utf8Bytes_hexStr_cons, length_cons, length_cons, length_cons, ih]
    omega

theorem hexPairs_hexStr (bytes : Bytes) (idx : Nat) :
    hexPairs idx (utf8Bytes (hexStr bytes)) = .ok bytes := by
  induction bytes generalizing idx with
  | nil => rfl
  | cons b bytes ih =>
    have hlt : b.toNat < 256 := b.toNat_lt
    rw [utf8Bytes_hexStr_cons, hexPairs, hexVal_hexDigit (by omega), hexVal_hexDigit (by omega), ih]
    show Except.ok _ = _
    rw [hexVal_pair]

/-- **What was written is read back.** -/
theorem hexDecode_hexStr (bytes : Bytes) : hexDecode (hexStr bytes) = .ok bytes := by
  have heven : ¬(utf8Bytes (hexStr bytes)).length % 2 ≠ 0 := by
    rw [length_utf8Bytes_hexStr]
    omega
  rw [hexDecode, if_neg heven]
  exact hexPairs_hexStr bytes 0

/-! ## Case -/

/-- `str::to_ascii_lowercase`. -/
def toAsciiLowercase (s : String) : String := String.ofList (s.toList.map Char.toLower)

theorem toAsciiLowercase_hexStr (bytes : Bytes) :
    toAsciiLowercase (hexStr bytes) = hexStr bytes := by
  have hdigit : ∀ n < 16, ("0123456789abcdef".toList.getD n '0').toLower
      = "0123456789abcdef".toList.getD n '0' := by decide +kernel
  have hmap : (hexStr bytes).toList.map Char.toLower = (hexStr bytes).toList := by
    induction bytes with
    | nil => rfl
    | cons b bytes ih =>
      have hlt : b.toNat < 256 := b.toNat_lt
      rw [hexStr_cons, String.toList_append, map_append, ih, hexByte, String.toList_ofList,
        map_cons, map_cons, map_nil, hdigit _ (by omega), hdigit _ (by omega)]
  rw [toAsciiLowercase, hmap, String.ofList_toList]

end Dweb
