import OpenDweb.Lib.Keys

/-!
# OpenDweb — strings of JavaScript

A `String` here is a list of code points; what JavaScript counts is code units.

* **`utf16Length`** — `length`.
* **`jsTrim`** — `trim`: `WhiteSpace` and `LineTerminator` at both ends go.
* **`jsLower`** — `toLowerCase`, as far as ASCII letters come out of it.
* **`forall_mem_toDigits`** — what holds of each digit holds in `toString` of a number.
-/

namespace Dweb

def utf16Length (s : String) : Nat :=
  (s.toList.map fun c => if 0x10000 ≤ c.toNat then 2 else 1).sum

/-- What `String.prototype.trim` takes away. -/
def isJsSpace (c : Char) : Bool :=
  let n := c.toNat
  (0x09 ≤ n && n ≤ 0x0D) || n = 0x20 || n = 0xA0 || n = 0x1680 || (0x2000 ≤ n && n ≤ 0x200A) ||
    n = 0x2028 || n = 0x2029 || n = 0x202F || n = 0x205F || n = 0x3000 || n = 0xFEFF

def jsTrim (cs : List Char) : List Char :=
  ((cs.dropWhile isJsSpace).reverse.dropWhile isJsSpace).reverse

/-- The lower case of a character, as far as it is ASCII: that of the Kelvin sign is. -/
def jsLower (ch : Char) : Char := if ch = '\u212a' then 'k' else ch.toLower

theorem toLower_cases (c : Char) :
    c.toLower = c ∨ 97 ≤ c.toLower.toNat ∧ c.toLower.toNat ≤ 122 := by
  by_cases h : c.val ≥ 'A'.val ∧ c.val ≤ 'Z'.val
  · have hlow : c.toLower.toNat = c.toNat + 32 := by
      have hA : 'A'.val.toNat = 65 := rfl
      have hZ : 'Z'.val.toNat = 90 := rfl
      have h1 := UInt32.le_iff_toNat_le.mp h.1
      have h2 := UInt32.le_iff_toNat_le.mp h.2
      rw [Char.toLower, dif_pos h]
      show (c.val + ('a'.val - 'A'.val)).toNat = c.val.toNat + 32
      rw [UInt32.toNat_add, show ('a'.val - 'A'.val).toNat = 32 from rfl]
      omega
    have h1 := UInt32.le_iff_toNat_le.mp h.1
    have h2 := UInt32.le_iff_toNat_le.mp h.2
    refine .inr ⟨?_, ?_⟩
    · show 'A'.val.toNat + 32 ≤ c.toLower.toNat
      rw [hlow]
      exact Nat.add_le_add_right h1 32
    · show c.toLower.toNat ≤ 'Z'.val.toNat + 32
      rw [hlow]
      exact Nat.add_le_add_right h2 32
  · exact .inl (by rw [Char.toLower, dif_neg h])

theorem toLower_of_lower {c : Char} (h : 97 ≤ c.toNat ∧ c.toNat ≤ 122) : c.toLower = c := by
  rw [Char.toLower, dif_neg]
  intro hupper
  have hle := UInt32.le_iff_toNat_le.mp hupper.2
  have hZ : 'Z'.val.toNat = 90 := rfl
  have hval : c.toNat = c.val.toNat := rfl
  omega

theorem jsLower_jsLower (c : Char) : jsLower (jsLower c) = jsLower c := by
  by_cases hkelvin : c = '\u212a'
  · rw [hkelvin]
    decide
  · have hlow : jsLower c = c.toLower := if_neg hkelvin
    rcases toLower_cases c with hsame | hlower
    · rw [hlow, hsame, hlow, hsame]
    · rw [hlow, jsLower, if_neg, toLower_of_lower hlower]
      intro heq
      rw [heq] at hlower
      exact absurd hlower (by decide)

theorem forall_mem_toDigits {p : Char → Prop} {b : Nat} (hb : 1 < b)
    (hp : ∀ d < b, p (Nat.digitChar d)) (n : Nat) : ∀ ch ∈ Nat.toDigits b n, p ch := by
  induction n using Nat.strongRecOn with
  | ind n ih =>
    rw [Nat.toDigits_eq_if hb]
    split
    · next hlt =>
      intro ch hmem
      rw [List.mem_singleton.mp hmem]
      exact hp n hlt
    · next hge =>
      intro ch hmem
      rcases List.mem_append.mp hmem with hmem | hmem
      · exact ih (n / b) (Nat.div_lt_self (by omega) hb) ch hmem
      · rw [List.mem_singleton.mp hmem]
        exact hp (n % b) (Nat.mod_lt n (by omega))

end Dweb
