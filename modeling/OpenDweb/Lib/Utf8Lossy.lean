import OpenDweb.Lib.Bytes

/-!
# OpenDweb — reading bytes as text, with replacement

`String::from_utf8_lossy`: the characters of a byte string, where each ill-formed sequence
(the longest start of a well-formed one, or a single byte) becomes U+FFFD.

* **`utf8Head`** — the first character, or `none` for an ill-formed sequence, and how many
  bytes it takes.
* **`fromUtf8Lossy`** — the loop over the whole string; it consumes at least one byte a
  turn, so the length is enough fuel.
* **`fromUtf8Lossy_toUTF8`** — well-formed text comes back unchanged.
-/

namespace Dweb

open List Bool

def replacementChar : Char := Char.ofNat 0xFFFD

/-- A continuation byte `10xxxxxx` that lies in `[lo, hi]`. -/
def continuationIn (lo hi : Nat) (b : UInt8) : Bool := lo ≤ b.toNat && b.toNat ≤ hi

def continuation (b : UInt8) : Bool := continuationIn 0x80 0xBF b

/-- What the second byte of a three- or four-byte sequence may be after `b`. -/
def secondByteOk (b c : UInt8) : Bool :=
  if b.toNat = 0xE0 then continuationIn 0xA0 0xBF c
  else if b.toNat = 0xED then continuationIn 0x80 0x9F c
  else if b.toNat = 0xF0 then continuationIn 0x90 0xBF c
  else if b.toNat = 0xF4 then continuationIn 0x80 0x8F c
  else continuation c

/-- The first character of a nonempty byte string and the bytes it takes. -/
def utf8Head (b : UInt8) (rest : Bytes) : Option Char × Nat :=
  let n := b.toNat
  if n < 0x80 then (some (Char.ofNat n), 1)
  else if 0xC2 ≤ n && n ≤ 0xDF then
    match rest with
    | c :: _ =>
      if continuation c then (some (Char.ofNat ((n - 0xC0) * 64 + (c.toNat - 0x80))), 2)
      else (none, 1)
    | [] => (none, 1)
  else if 0xE0 ≤ n && n ≤ 0xEF then
    match rest with
    | c :: d :: _ =>
      if ¬secondByteOk b c then (none, 1)
      else if ¬continuation d then (none, 2)
      else
        (some (Char.ofNat ((n - 0xE0) * 4096 + (c.toNat - 0x80) * 64 + (d.toNat - 0x80))), 3)
    | [c] => (none, if secondByteOk b c then 2 else 1)
    | [] => (none, 1)
  else if 0xF0 ≤ n && n ≤ 0xF4 then
    match rest with
    | c :: d :: e :: _ =>
      if ¬secondByteOk b c then (none, 1)
      else if ¬continuation d then (none, 2)
      else if ¬continuation e then (none, 3)
      else
        (some (Char.ofNat ((n - 0xF0) * 262144 + (c.toNat - 0x80) * 4096
          + (d.toNat - 0x80) * 64 + (e.toNat - 0x80))), 4)
    | [c, d] => (none, if ¬secondByteOk b c then 1 else if continuation d then 3 else 2)
    | [c] => (none, if secondByteOk b c then 2 else 1)
    | [] => (none, 1)
  else (none, 1)

def lossyLoop : Nat → Bytes → List Char
  | 0, _ => []
  | _, [] => []
  | fuel + 1, b :: rest =>
    let head := utf8Head b rest
    head.1.getD replacementChar :: lossyLoop fuel ((b :: rest).drop head.2)

def fromUtf8Lossy (bs : Bytes) : List Char := lossyLoop bs.length bs

-- a truncated three-byte sequence is one replacement character
example : fromUtf8Lossy [0x61, 0xE2, 0x82, 0x62] = ['a', replacementChar, 'b'] := by decide +kernel

/-! ## Reading back an encoded character -/

private theorem toNat_byte {n : Nat} (h : n < 256) : (UInt8.ofNat n).toNat = n :=
  UInt8.toNat_ofNat_of_lt' h

theorem continuation_byte {n : Nat} (h : n < 64) :
    continuation (UInt8.ofNat (n + 0x80)) = true := by
  unfold continuation continuationIn
  rw [toNat_byte (by omega)]
  simp only [and_eq_true, decide_eq_true_eq]
  omega

variable {v : Nat}

theorem utf8Head_one (h : v < 0x80) (rest : Bytes) :
    utf8Head (UInt8.ofNat v) rest = (some (Char.ofNat v), 1) := by
  unfold utf8Head
  rw [toNat_byte (by omega)]
  dsimp only
  rw [if_pos h]

theorem utf8Head_two (hlo : 0x80 ≤ v) (hhi : v ≤ 0x7FF) (rest : Bytes) :
    utf8Head (UInt8.ofNat (v / 64 % 0x20 + 0xC0)) (UInt8.ofNat (v % 0x40 + 0x80) :: rest)
      = (some (Char.ofNat v), 2) := by
  have hlead : v / 64 % 0x20 + 0xC0 < 256 := by omega
  have hval : (v / 64 % 0x20 + 0xC0 - 0xC0) * 64 + (v % 0x40 + 0x80 - 0x80) = v := by omega
  unfold utf8Head
  rw [toNat_byte hlead]
  dsimp only
  rw [if_neg (by omega), if_pos (by simp only [and_eq_true, decide_eq_true_eq]; omega),
    if_pos (continuation_byte (by omega)), toNat_byte (by omega)]
  rw [hval]

theorem secondByteOk_three (hlo : 0x800 ≤ v) (hhi : v ≤ 0xFFFF) (hsurr : v < 0xD800 ∨ 0xDFFF < v) :
    secondByteOk (UInt8.ofNat (v / 4096 % 0x10 + 0xE0)) (UInt8.ofNat (v / 64 % 0x40 + 0x80))
      = true := by
  unfold secondByteOk continuation continuationIn
  rw [toNat_byte (by omega), toNat_byte (by omega)]
  repeat' split
  all_goals
    simp only [and_eq_true, decide_eq_true_eq]
    omega

theorem utf8Head_three (hlo : 0x800 ≤ v) (hhi : v ≤ 0xFFFF) (hsurr : v < 0xD800 ∨ 0xDFFF < v)
    (rest : Bytes) :
    utf8Head (UInt8.ofNat (v / 4096 % 0x10 + 0xE0))
        (UInt8.ofNat (v / 64 % 0x40 + 0x80) :: UInt8.ofNat (v % 0x40 + 0x80) :: rest)
      = (some (Char.ofNat v), 3) := by
  have hlead : v / 4096 % 0x10 + 0xE0 < 256 := by omega
  have hval : (v / 4096 % 0x10 + 0xE0 - 0xE0) * 4096 + (v / 64 % 0x40 + 0x80 - 0x80) * 64
      + (v % 0x40 + 0x80 - 0x80) = v := by omega
  unfold utf8Head
  rw [toNat_byte hlead]
  dsimp only
  rw [if_neg (by omega), if_neg (by simp only [and_eq_true, decide_eq_true_eq]; omega),
    if_pos (by simp only [and_eq_true, decide_eq_true_eq]; omega),
    if_neg (not_not.mpr (secondByteOk_three hlo hhi hsurr)),
    if_neg (not_not.mpr (continuation_byte (by omega))), toNat_byte (by omega),
    toNat_byte (by omega)]
  rw [hval]

theorem secondByteOk_four (hlo : 0x10000 ≤ v) (hhi : v < 0x110000) :
    secondByteOk (UInt8.ofNat (v / 262144 % 0x08 + 0xF0)) (UInt8.ofNat (v / 4096 % 0x40 + 0x80))
      = true := by
  unfold secondByteOk continuation continuationIn
  rw [toNat_byte (by omega), toNat_byte (by omega)]
  repeat' split
  all_goals
    simp only [and_eq_true, decide_eq_true_eq]
    omega

theorem utf8Head_four (hlo : 0x10000 ≤ v) (hhi : v < 0x110000) (rest : Bytes) :
    utf8Head (UInt8.ofNat (v / 262144 % 0x08 + 0xF0))
        (UInt8.ofNat (v / 4096 % 0x40 + 0x80) :: UInt8.ofNat (v / 64 % 0x40 + 0x80)
          :: UInt8.ofNat (v % 0x40 + 0x80) :: rest)
      = (some (Char.ofNat v), 4) := by
  have hlead : v / 262144 % 0x08 + 0xF0 < 256 := by omega
  have hval : (v / 262144 % 0x08 + 0xF0 - 0xF0) * 262144 + (v / 4096 % 0x40 + 0x80 - 0x80) * 4096
      + (v / 64 % 0x40 + 0x80 - 0x80) * 64 + (v % 0x40 + 0x80 - 0x80) = v := by omega
  unfold utf8Head
  rw [toNat_byte hlead]
  dsimp only
  rw [if_neg (by omega), if_neg (by simp only [and_eq_true, decide_eq_true_eq]; omega),
    if_neg (by simp only [and_eq_true, decide_eq_true_eq]; omega),
    if_pos (by simp only [and_eq_true, decide_eq_true_eq]; omega),
    if_neg (not_not.mpr (secondByteOk_four hlo hhi)),
    if_neg (not_not.mpr (continuation_byte (by omega))),
    if_neg (not_not.mpr (continuation_byte (by omega))), toNat_byte (by omega),
    toNat_byte (by omega), toNat_byte (by omega)]
  rw [hval]

theorem lossyLoop_encodeChar (c : Char) (rest : Bytes) (fuel : Nat) :
    lossyLoop (fuel + 1) (String.utf8EncodeChar c ++ rest) = c :: lossyLoop fuel rest := by
  have hback : Char.ofNat c.val.toNat = c := Char.ofNat_toNat c
  have hvalid : c.val.toNat < 0xD800 ∨ 0xDFFF < c.val.toNat ∧ c.val.toNat < 0x110000 := c.valid
  unfold String.utf8EncodeChar
  generalize c.val.toNat = v at hback hvalid
  dsimp only
  split
  · rw [singleton_append, lossyLoop, utf8Head_one (by omega), hback]
    rfl
  · split
    · rw [cons_append, singleton_append, lossyLoop,
        utf8Head_two (by omega) (by omega), hback]
      rfl
    · split
      · rw [cons_append, cons_append, singleton_append, lossyLoop,
          utf8Head_three (by omega) (by omega) (by omega), hback]
        rfl
      · rw [cons_append, cons_append, cons_append, singleton_append,
          lossyLoop, utf8Head_four (by omega) (by omega), hback]
        rfl

theorem lossyLoop_encode (cs : List Char) {fuel : Nat} (hfuel : cs.length ≤ fuel) :
    lossyLoop fuel (cs.flatMap String.utf8EncodeChar) = cs := by
  induction cs generalizing fuel with
  | nil => cases fuel <;> rfl
  | cons c cs ih =>
    rw [length_cons] at hfuel
    obtain ⟨fuel, rfl⟩ : ∃ k, fuel = k + 1 := ⟨fuel - 1, by omega⟩
    rw [flatMap_cons, lossyLoop_encodeChar, ih (by omega)]

theorem length_le_encode (cs : List Char) :
    cs.length ≤ (cs.flatMap String.utf8EncodeChar).length := by
  induction cs with
  | nil => exact Nat.le_refl 0
  | cons c cs ih =>
    have hpos : 0 < (String.utf8EncodeChar c).length := by
      rw [String.length_utf8EncodeChar]
      exact c.utf8Size_pos
    rw [flatMap_cons, length_append, length_cons]
    omega

/-- **Text that was encoded is read back unchanged.** -/
theorem fromUtf8Lossy_toUTF8 (s : String) : fromUtf8Lossy s.toUTF8.data.toList = s.toList := by
  have hbytes : s.toUTF8.data.toList = s.toList.flatMap String.utf8EncodeChar := by
    conv => lhs; rw [← String.ofList_toList (s := s)]
    rw [String.toUTF8_eq_toByteArray, String.toByteArray_ofList, List.utf8Encode]
    simp
  rw [hbytes, fromUtf8Lossy]
  exact lossyLoop_encode s.toList (length_le_encode s.toList)

end Dweb
