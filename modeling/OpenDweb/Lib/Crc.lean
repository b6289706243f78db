import OpenDweb.Lib.Keys

/-!
# OpenDweb — checksums by a shift register

A cyclic redundancy check is a register that is shifted once for each bit of a message. The
message may be of any length; the register has `w` bits, and its polynomial has the lowest bit
(`hodd`), as every one in use does.

* **`crcShift`**, **`crcFeed`** — one shift, and a message from its first bit on.
* **`crcFeed_xor`** — both are linear; **`crcFeed_inj`** — the register before is known from the
  register behind.
* **`crcFeed_topBits_eq_zero`** — a message with its checksum behind it empties the register.
* **`crcFeed_burst`** — messages that differ within `w` bits in a row have different checksums.
-/

namespace Dweb

variable {w : Nat}

/-- The register moves up; the bit that leaves brings the polynomial in. -/
def crcShift (poly x : BitVec w) : BitVec w := x <<< 1 ^^^ if x.msb then poly else 0

def crcTop (bit : Bool) : BitVec w := if bit then BitVec.twoPow w (w - 1) else 0

def crcFeed (poly : BitVec w) : BitVec w → List Bool → BitVec w
  | x, [] => x
  | x, bit :: bits => crcFeed poly (crcShift poly (x ^^^ crcTop bit)) bits

def xorBits (a b : List Bool) : List Bool := List.zipWith (· ^^ ·) a b

section

variable {poly x y : BitVec w} {a b bits : List Bool}

/-! ## Linearity -/

theorem xor_xor_xor_comm (a b c d : BitVec w) :
    (a ^^^ b) ^^^ (c ^^^ d) = (a ^^^ c) ^^^ (b ^^^ d) := by
  ac_rfl

theorem crcShift_xor (x y : BitVec w) :
    crcShift poly (x ^^^ y) = crcShift poly x ^^^ crcShift poly y := by
  unfold crcShift
  rw [BitVec.shiftLeft_xor_distrib, BitVec.msb_xor, xor_xor_xor_comm (x <<< 1)]
  congr 1
  cases x.msb <;> cases y.msb <;> simp

theorem crcShift_zero : crcShift poly 0 = 0 := by
  simp [crcShift]

theorem crcTop_xor (a b : Bool) : (crcTop (a ^^ b) : BitVec w) = crcTop a ^^^ crcTop b := by
  cases a <;> cases b <;> simp [crcTop]

theorem crcFeed_append (x : BitVec w) (a b : List Bool) :
    crcFeed poly x (a ++ b) = crcFeed poly (crcFeed poly x a) b := by
  induction a generalizing x with
  | nil => rfl
  | cons bit a ih => exact ih _

theorem crcFeed_xor (hlen : a.length = b.length) :
    crcFeed poly (x ^^^ y) (xorBits a b) = crcFeed poly x a ^^^ crcFeed poly y b := by
  induction a generalizing b x y with
  | nil =>
    cases b with
    | nil => rfl
    | cons _ _ => cases hlen
  | cons bit a ih =>
    cases b with
    | nil => cases hlen
    | cons bit' b =>
      show crcFeed poly (crcShift poly (x ^^^ y ^^^ crcTop (bit ^^ bit'))) (xorBits a b) = _
      rw [crcTop_xor, xor_xor_xor_comm x, crcShift_xor]
      exact ih (Nat.succ.inj hlen)

theorem crcFeed_zeros (n : Nat) : crcFeed poly 0 (List.replicate n false) = 0 := by
  induction n with
  | zero => rfl
  | succ n ih =>
    show crcFeed poly (crcShift poly (0 ^^^ crcTop false)) (List.replicate n false) = 0
    rw [show (0 : BitVec w) ^^^ crcTop false = 0 by simp [crcTop], crcShift_zero]
    exact ih

/-! ## The register before -/

theorem getLsbD_crcShift_zero (hodd : poly.getLsbD 0 = true) (x : BitVec w) :
    (crcShift poly x).getLsbD 0 = x.msb := by
  unfold crcShift
  rw [BitVec.getLsbD_xor, BitVec.getLsbD_shiftLeft]
  cases x.msb <;> simp [hodd]

theorem crcShift_of_msb_false (h : x.msb = false) : crcShift poly x = x <<< 1 := by
  rw [crcShift, h]
  simp

theorem crcShift_eq_zero (hodd : poly.getLsbD 0 = true)
    (h : crcShift poly x = 0) : x = 0 := by
  have hmsb : x.msb = false := by
    rw [← getLsbD_crcShift_zero hodd x, h]
    exact BitVec.getLsbD_zero
  rw [crcShift_of_msb_false hmsb] at h
  apply BitVec.eq_of_getLsbD_eq
  intro i hi
  rw [show (0 : BitVec w).getLsbD i = false from BitVec.getLsbD_zero]
  by_cases hlast : i + 1 < w
  · have hbit : (x <<< 1).getLsbD (i + 1) = false := by
      rw [h]
      exact BitVec.getLsbD_zero
    rw [BitVec.getLsbD_shiftLeft] at hbit
    simpa [hlast] using hbit
  · rw [BitVec.msb_eq_getLsbD_last] at hmsb
    rw [show i = w - 1 by omega]
    exact hmsb

theorem xor_eq_zero : x ^^^ y = 0 ↔ x = y := by
  constructor
  · intro h
    apply BitVec.eq_of_getLsbD_eq
    intro i _
    have hbit : (x ^^^ y).getLsbD i = false := by
      rw [h]
      exact BitVec.getLsbD_zero
    simpa using hbit
  · intro h
    rw [h, BitVec.xor_self]
    rfl

theorem crcShift_inj (hodd : poly.getLsbD 0 = true)
    (h : crcShift poly x = crcShift poly y) : x = y := by
  refine xor_eq_zero.mp (crcShift_eq_zero hodd ?_)
  rw [crcShift_xor, h, BitVec.xor_self]
  rfl

theorem crcFeed_inj (hodd : poly.getLsbD 0 = true)
    (h : crcFeed poly x bits = crcFeed poly y bits) : x = y := by
  induction bits generalizing x y with
  | nil => exact h
  | cons bit bits ih =>
    have hshift := crcShift_inj hodd (ih h)
    have := congrArg (· ^^^ crcTop bit) hshift
    simpa [BitVec.xor_assoc] using this

/-! ## The checksum of a checked message -/

/-- The `n` highest bits. -/
def topBits : Nat → BitVec w → List Bool
  | 0, _ => []
  | n + 1, x => x.msb :: topBits n (x <<< 1)

theorem shiftLeft_clear_top (x : BitVec w) : crcShift poly (x ^^^ crcTop x.msb) = x <<< 1 := by
  cases hmsb : x.msb with
  | false => rw [show crcTop false = (0 : BitVec w) from rfl, crcShift_of_msb_false] <;> simp [hmsb]
  | true =>
    have hw : 0 < w := by
      refine Nat.pos_of_ne_zero fun hzero => ?_
      subst hzero
      rw [BitVec.msb_eq_getLsbD_last, BitVec.getLsbD_of_ge _ _ (Nat.le_refl 0)] at hmsb
      cases hmsb
    have htop : (crcTop true : BitVec w) = BitVec.twoPow w (w - 1) := rfl
    have hclear : (x ^^^ crcTop true).msb = false := by
      rw [BitVec.msb_xor, hmsb, htop, BitVec.msb_eq_getLsbD_last]
      simp
      omega
    rw [crcShift_of_msb_false hclear, BitVec.shiftLeft_xor_distrib, htop]
    have hout : BitVec.twoPow w (w - 1) <<< 1 = 0 := by
      apply BitVec.eq_of_getLsbD_eq
      intro i hi
      rw [show (0 : BitVec w).getLsbD i = false from BitVec.getLsbD_zero,
        BitVec.getLsbD_shiftLeft, BitVec.getLsbD_twoPow]
      simp
      omega
    rw [hout]
    simp

theorem crcFeed_topBits (n : Nat) (x : BitVec w) : crcFeed poly x (topBits n x) = x <<< n := by
  induction n generalizing x with
  | zero => simp [topBits, crcFeed]
  | succ n ih =>
    show crcFeed poly (crcShift poly (x ^^^ crcTop x.msb)) (topBits n (x <<< 1)) = _
    rw [shiftLeft_clear_top, ih, ← BitVec.shiftLeft_add, Nat.add_comm]

/-- **A message with its checksum** behind it, and no other message, empties the register. -/
theorem crcFeed_topBits_eq_zero (hodd : poly.getLsbD 0 = true) :
    crcFeed poly x (topBits w y) = 0 ↔ x = y := by
  have hself : crcFeed poly y (topBits w y) = 0 := by
    rw [crcFeed_topBits]
    simp
  constructor
  · intro h
    exact crcFeed_inj hodd (h.trans hself.symm)
  · intro h
    exact h ▸ hself

/-! ## Bursts -/

theorem low_of_crcFeed_eq_zero (hodd : poly.getLsbD 0 = true) (hlen : bits.length ≤ w)
    (h : crcFeed poly x bits = 0) : ∀ i < w - bits.length, x.getLsbD i = false := by
  induction bits generalizing x with
  | nil =>
    intro i _
    rw [show x = 0 from h]
    exact BitVec.getLsbD_zero
  | cons bit bits ih =>
    rw [List.length_cons] at hlen
    have hw : 0 < w := by omega
    have hlow := ih (by omega) h
    have hmsb : (x ^^^ crcTop bit).msb = false := by
      rw [← getLsbD_crcShift_zero hodd]
      exact hlow 0 (by omega)
    rw [crcShift_of_msb_false hmsb] at hlow
    intro i hi
    rw [List.length_cons] at hi
    have hbit := hlow (i + 1) (by omega)
    have htop : (crcTop bit : BitVec w).getLsbD i = false := by
      cases bit
      · simp [crcTop]
      · simp only [crcTop, if_true, BitVec.getLsbD_twoPow]
        simp only [Bool.and_eq_false_iff, decide_eq_false_iff_not]
        omega
    rw [BitVec.getLsbD_shiftLeft, BitVec.getLsbD_xor] at hbit
    simp only [show i + 1 < w by omega, decide_true, Nat.add_sub_cancel, htop,
      Bool.xor_false] at hbit
    simpa using hbit

theorem eq_zeros_of_crcFeed_eq_zero (hodd : poly.getLsbD 0 = true) (hlen : bits.length ≤ w)
    (h : crcFeed poly 0 bits = 0) : ∀ bit ∈ bits, bit = false := by
  induction bits with
  | nil => exact nofun
  | cons bit bits ih =>
    rw [List.length_cons] at hlen
    have hw : 0 < w := by omega
    have hshifted : crcFeed poly (crcShift poly (0 ^^^ crcTop bit)) bits = 0 := h
    have hlow := low_of_crcFeed_eq_zero hodd (by omega) hshifted 0 (by omega)
    rw [getLsbD_crcShift_zero hodd] at hlow
    have hbit : bit = false := by
      cases bit
      · rfl
      · rw [BitVec.msb_eq_getLsbD_last] at hlow
        simp [crcTop] at hlow
        omega
    subst hbit
    have hempty : crcShift poly (0 ^^^ crcTop false) = 0 := by
      rw [show (0 : BitVec w) ^^^ crcTop false = 0 by simp [crcTop], crcShift_zero]
    rw [hempty] at hshifted
    intro bit' hmem
    rcases List.mem_cons.mp hmem with heq | hmem
    · exact heq
    · exact ih (by omega) hshifted bit' hmem

theorem eq_of_xorBits (hlen : a.length = b.length) (h : ∀ bit ∈ xorBits a b, bit = false) :
    a = b := by
  induction a generalizing b with
  | nil =>
    cases b with
    | nil => rfl
    | cons _ _ => cases hlen
  | cons bit a ih =>
    cases b with
    | nil => cases hlen
    | cons bit' b =>
      have hhead := h (bit ^^ bit') List.mem_cons_self
      have htail := ih (Nat.succ.inj hlen) fun c hmem => h c (List.mem_cons_of_mem _ hmem)
      rw [htail]
      cases bit <;> cases bit' <;> first | rfl | cases hhead

/-- **Messages that differ in a burst** of at most `w` bits are told apart. -/
theorem crcFeed_burst (hodd : poly.getLsbD 0 = true) {before behind : List Bool}
    (hlen : a.length = b.length) (hburst : a.length ≤ w)
    (h : crcFeed poly x (before ++ a ++ behind) = crcFeed poly x (before ++ b ++ behind)) :
    a = b := by
  simp only [crcFeed_append] at h
  have hsame := crcFeed_inj hodd h
  have hzero : crcFeed poly 0 (xorBits a b) = 0 := by
    rw [show (0 : BitVec w) = crcFeed poly x before ^^^ crcFeed poly x before from
      (BitVec.xor_self).symm, crcFeed_xor hlen, hsame, BitVec.xor_self, BitVec.xor_self]
  refine eq_of_xorBits hlen (eq_zeros_of_crcFeed_eq_zero hodd ?_ hzero)
  rw [xorBits, List.length_zipWith, hlen, Nat.min_self, ← hlen]
  exact hburst

end

end Dweb
