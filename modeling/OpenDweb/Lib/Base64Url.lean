import OpenDweb.Lib.Text

/-!
# OpenDweb — base64url without padding

The URL-safe alphabet, no `=`, and no bits left over: each text has one reading and each byte
string one text.

* **`base64Decode_base64Encode`** — what was written is read back.
* **`base64Encode_of_base64Decode`** — what is read is what would be written.
-/

namespace Dweb

open List Option

/-! ## Digits -/

def base64Digit (n : Nat) : UInt8 :=
  "ABCDEFGHIJKLMNOPQRSTUVWXYZabcdefghijklmnopqrstuvwxyz0123456789-_".toUTF8.data.toList.getD n 0

/-- The value of a digit. -/
def base64Val (c : UInt8) : Option Nat :=
  if 65 ≤ c ∧ c ≤ 90 then some (c.toNat - 65)
  else if 97 ≤ c ∧ c ≤ 122 then some (c.toNat - 71)
  else if 48 ≤ c ∧ c ≤ 57 then some (c.toNat + 4)
  else if c = 45 then some 62
  else if c = 95 then some 63
  else none

variable {n : Nat} {bytes : Bytes}

theorem base64Val_base64Digit (h : n < 64) : base64Val (base64Digit n) = some n := by
  have hall : ∀ k < 64, base64Val (base64Digit k) = some k := by decide +kernel
  exact hall n h

theorem base64Digit_of_base64Val {c : UInt8} (h : base64Val c = some n) :
    n < 64 ∧ base64Digit n = c := by
  have hall : ∀ k < 256, ∀ v ∈ base64Val (UInt8.ofNat k),
      v < 64 ∧ base64Digit v = UInt8.ofNat k := by decide +kernel
  have hc := hall c.toNat c.toNat_lt
  rw [UInt8.ofNat_toNat] at hc
  exact hc n h

/-! ## Bytes and digits -/

/-- Three bytes are four digits; one or two bytes at the end are two or three. -/
def base64Text : Bytes → Bytes
  | [] => []
  | [a] => [base64Digit (a.toNat / 4), base64Digit (a.toNat % 4 * 16)]
  | [a, b] =>
    [base64Digit (a.toNat / 4), base64Digit (a.toNat % 4 * 16 + b.toNat / 16),
      base64Digit (b.toNat % 16 * 4)]
  | a :: b :: c :: rest =>
    base64Digit (a.toNat / 4) :: base64Digit (a.toNat % 4 * 16 + b.toNat / 16)
      :: base64Digit (b.toNat % 16 * 4 + c.toNat / 64) :: base64Digit (c.toNat % 64)
      :: base64Text rest

/-- The inverse; the bits that the last digit does not give to a byte are zero. -/
def base64Bytes : Bytes → Option Bytes
  | [] => some []
  | [_] => none
  | [w, x] => do
    let w ← base64Val w
    let x ← base64Val x
    if x % 16 = 0 then some [UInt8.ofNat (w * 4 + x / 16)] else none
  | [w, x, y] => do
    let w ← base64Val w
    let x ← base64Val x
    let y ← base64Val y
    if y % 4 = 0 then some [UInt8.ofNat (w * 4 + x / 16), UInt8.ofNat (x % 16 * 16 + y / 4)]
    else none
  | w :: x :: y :: z :: rest => do
    let w ← base64Val w
    let x ← base64Val x
    let y ← base64Val y
    let z ← base64Val z
    let bytes ← base64Bytes rest
    some (UInt8.ofNat (w * 4 + x / 16) :: UInt8.ofNat (x % 16 * 16 + y / 4)
      :: UInt8.ofNat (y % 4 * 64 + z) :: bytes)

theorem ofNat_eq {b : UInt8} (h : n = b.toNat) : UInt8.ofNat n = b := by
  rw [h, UInt8.ofNat_toNat]

theorem base64Bytes_base64Text (bytes : Bytes) : base64Bytes (base64Text bytes) = some bytes := by
  fun_induction base64Text bytes with
  | case1 => rfl
  | case2 a =>
    have ha := a.toNat_lt
    have hbits : a.toNat % 4 * 16 % 16 = 0 := by omega
    have hbyte : a.toNat / 4 * 4 + a.toNat % 4 * 16 / 16 = a.toNat := by omega
    rw [base64Bytes, base64Val_base64Digit (by omega), base64Val_base64Digit (by omega)]
    show (if _ then _ else _) = _
    rw [if_pos hbits, ofNat_eq hbyte]
  | case3 a b =>
    have ha := a.toNat_lt
    have hb := b.toNat_lt
    have hbits : b.toNat % 16 * 4 % 4 = 0 := by omega
    have hfirst : a.toNat / 4 * 4 + (a.toNat % 4 * 16 + b.toNat / 16) / 16 = a.toNat := by omega
    have hsecond : (a.toNat % 4 * 16 + b.toNat / 16) % 16 * 16 + b.toNat % 16 * 4 / 4
        = b.toNat := by omega
    rw [base64Bytes, base64Val_base64Digit (by omega), base64Val_base64Digit (by omega),
      base64Val_base64Digit (by omega)]
    show (if _ then _ else _) = _
    rw [if_pos hbits, ofNat_eq hfirst, ofNat_eq hsecond]
  | case4 a b c rest ih =>
    have ha := a.toNat_lt
    have hb := b.toNat_lt
    have hc := c.toNat_lt
    have hfirst : a.toNat / 4 * 4 + (a.toNat % 4 * 16 + b.toNat / 16) / 16 = a.toNat := by omega
    have hsecond : (a.toNat % 4 * 16 + b.toNat / 16) % 16 * 16
        + (b.toNat % 16 * 4 + c.toNat / 64) / 4 = b.toNat := by omega
    have hthird : (b.toNat % 16 * 4 + c.toNat / 64) % 4 * 64 + c.toNat % 64 = c.toNat := by omega
    rw [base64Bytes, base64Val_base64Digit (by omega), base64Val_base64Digit (by omega),
      base64Val_base64Digit (by omega), base64Val_base64Digit (by omega), ih]
    show some _ = _
    rw [ofNat_eq hfirst, ofNat_eq hsecond, ofNat_eq hthird]

theorem base64Text_of_base64Bytes {text : Bytes} (h : base64Bytes text = some bytes) :
    base64Text bytes = text := by
  fun_induction base64Bytes text generalizing bytes with
  | case1 =>
    cases h
    rfl
  | case2 => cases h
  | case3 w x =>
    obtain ⟨w', hw, hafter⟩ := bind_eq_some_iff.mp h
    obtain ⟨x', hx, hlast⟩ := bind_eq_some_iff.mp hafter
    obtain ⟨hwlt, rfl⟩ := base64Digit_of_base64Val hw
    obtain ⟨hxlt, rfl⟩ := base64Digit_of_base64Val hx
    split at hlast
    · next hbits =>
      cases hlast
      have h1 : (w' * 4 + x' / 16) % 2 ^ 8 / 4 = w' := by omega
      have h2 : (w' * 4 + x' / 16) % 2 ^ 8 % 4 * 16 = x' := by omega
      rw [base64Text, UInt8.toNat_ofNat', h1, h2]
    · cases hlast
  | case4 w x y =>
    obtain ⟨w', hw, hafter⟩ := bind_eq_some_iff.mp h
    obtain ⟨x', hx, hafter'⟩ := bind_eq_some_iff.mp hafter
    obtain ⟨y', hy, hlast⟩ := bind_eq_some_iff.mp hafter'
    obtain ⟨hwlt, rfl⟩ := base64Digit_of_base64Val hw
    obtain ⟨hxlt, rfl⟩ := base64Digit_of_base64Val hx
    obtain ⟨hylt, rfl⟩ := base64Digit_of_base64Val hy
    split at hlast
    · next hbits =>
      cases hlast
      rw [base64Text, UInt8.toNat_ofNat', UInt8.toNat_ofNat']
      have h1 : (w' * 4 + x' / 16) % 2 ^ 8 / 4 = w' := by omega
      have h2 : (w' * 4 + x' / 16) % 2 ^ 8 % 4 * 16 + (x' % 16 * 16 + y' / 4) % 2 ^ 8 / 16 = x' := by
        omega
      have h3 : (x' % 16 * 16 + y' / 4) % 2 ^ 8 % 16 * 4 = y' := by omega
      rw [h1, h2, h3]
    · cases hlast
  | case5 w x y z rest ih =>
    obtain ⟨w', hw, hafter⟩ := bind_eq_some_iff.mp h
    obtain ⟨x', hx, hafter'⟩ := bind_eq_some_iff.mp hafter
    obtain ⟨y', hy, hafter''⟩ := bind_eq_some_iff.mp hafter'
    obtain ⟨z', hz, hrest⟩ := bind_eq_some_iff.mp hafter''
    obtain ⟨tail, htail, hlast⟩ := bind_eq_some_iff.mp hrest
    obtain ⟨hwlt, rfl⟩ := base64Digit_of_base64Val hw
    obtain ⟨hxlt, rfl⟩ := base64Digit_of_base64Val hx
    obtain ⟨hylt, rfl⟩ := base64Digit_of_base64Val hy
    obtain ⟨hzlt, rfl⟩ := base64Digit_of_base64Val hz
    cases hlast
    rw [base64Text, UInt8.toNat_ofNat', UInt8.toNat_ofNat', UInt8.toNat_ofNat', ih htail]
    have h1 : (w' * 4 + x' / 16) % 2 ^ 8 / 4 = w' := by omega
    have h2 : (w' * 4 + x' / 16) % 2 ^ 8 % 4 * 16 + (x' % 16 * 16 + y' / 4) % 2 ^ 8 / 16 = x' := by
      omega
    have h3 : (x' % 16 * 16 + y' / 4) % 2 ^ 8 % 16 * 4 + (y' % 4 * 64 + z') % 2 ^ 8 / 64 = y' := by
      omega
    have h4 : (y' % 4 * 64 + z') % 2 ^ 8 % 64 = z' := by omega
    rw [h1, h2, h3, h4]

theorem length_base64Text (bytes : Bytes) :
    (base64Text bytes).length = (4 * bytes.length + 2) / 3 := by
  fun_induction base64Text bytes with
  | case1 => rfl
  | case2 => simp only [length_cons, length_nil]
  | case3 => simp only [length_cons, length_nil]
  | case4 a b c rest ih =>
    simp only [length_cons, ih]
    omega

/-! ## Texts -/

/-- `URL_SAFE_NO_PAD.encode`. -/
def base64Encode (bytes : Bytes) : String :=
  String.ofList ((base64Text bytes).map fun b => Char.ofNat b.toNat)

/-- `URL_SAFE_NO_PAD.decode`. -/
def base64Decode (s : String) : Option Bytes := base64Bytes (utf8Bytes s)

example : base64Encode [251, 239] = "--8" := by decide +kernel
-- the same digits but for a bit left over
example : base64Decode "--9" = none := by decide +kernel

theorem utf8Bytes_injective {s t : String} (h : utf8Bytes s = utf8Bytes t) : s = t := by
  have hs := utf8Text?_utf8Bytes s
  rw [h, utf8Text?_utf8Bytes] at hs
  exact (some.inj hs).symm

theorem utf8Bytes_ofList_ascii (h : ∀ b ∈ bytes, b.toNat < 128) :
    utf8Bytes (String.ofList (bytes.map fun b => Char.ofNat b.toNat)) = bytes := by
  have hone : ∀ n < 128, String.utf8EncodeChar (Char.ofNat n) = [UInt8.ofNat n] := by
    decide +kernel
  rw [utf8Bytes_eq, String.toList_ofList, flatMap_map]
  induction bytes with
  | nil => rfl
  | cons b bytes ih =>
    rw [flatMap_cons, ih fun x hx => h x (mem_cons_of_mem b hx),
      hone _ (h b mem_cons_self), UInt8.ofNat_toNat]
    rfl

def IsBase64 (b : UInt8) : Prop := (base64Val b).isSome

theorem isBase64_base64Text (bytes : Bytes) : ∀ b ∈ base64Text bytes, IsBase64 b := by
  have hdigit : ∀ n < 64, IsBase64 (base64Digit n) := fun n hn => by
    rw [IsBase64, base64Val_base64Digit hn]
    rfl
  fun_induction base64Text bytes with
  | case1 => exact fun b hb => absurd hb not_mem_nil
  | case2 a =>
    have ha := a.toNat_lt
    simp only [forall_mem_cons]
    exact ⟨hdigit _ (by omega), hdigit _ (by omega), fun b hb => absurd hb not_mem_nil⟩
  | case3 a b =>
    have ha := a.toNat_lt
    have hb := b.toNat_lt
    simp only [forall_mem_cons]
    exact ⟨hdigit _ (by omega), hdigit _ (by omega), hdigit _ (by omega),
      fun b hb => absurd hb not_mem_nil⟩
  | case4 a b c rest ih =>
    have ha := a.toNat_lt
    have hb := b.toNat_lt
    have hc := c.toNat_lt
    simp only [forall_mem_cons]
    exact ⟨hdigit _ (by omega), hdigit _ (by omega), hdigit _ (by omega), hdigit _ (by omega), ih⟩

theorem lt_of_isBase64 {b : UInt8} (h : IsBase64 b) : b.toNat < 128 := by
  have hall : ∀ k < 256, (base64Val (UInt8.ofNat k)).isSome → k < 128 := by decide +kernel
  refine hall b.toNat b.toNat_lt ?_
  rw [UInt8.ofNat_toNat]
  exact h

@[simp] theorem utf8Bytes_base64Encode (bytes : Bytes) :
    utf8Bytes (base64Encode bytes) = base64Text bytes :=
  utf8Bytes_ofList_ascii fun b hb => lt_of_isBase64 (isBase64_base64Text bytes b hb)

/-- **What was written is read back.** -/
theorem base64Decode_base64Encode (bytes : Bytes) :
    base64Decode (base64Encode bytes) = some bytes := by
  rw [base64Decode, utf8Bytes_base64Encode, base64Bytes_base64Text]

/-- **What is read is what would be written.** -/
theorem base64Encode_of_base64Decode {s : String} (h : base64Decode s = some bytes) :
    base64Encode bytes = s := by
  refine utf8Bytes_injective ?_
  rw [utf8Bytes_base64Encode, base64Text_of_base64Bytes h]

end Dweb
