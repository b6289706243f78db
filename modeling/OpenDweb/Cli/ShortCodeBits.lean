import OpenDweb.Cli.ShortCode
import OpenDweb.Lib.Crc

/-!
# OpenDweb — the bits of a short code

What the bytes, the characters and the fields of a code have in common is their bits.

* **`crc16CcittFalse_eq_iff`** — the checksum as one of `Lib/Crc`.
* **`textBits_bytesToCrockford`** — the characters have the bits of the bytes, and zeros.
* **`take_eq_fields`** — `readBits` takes them apart into fields.
-/

namespace Dweb

open List Option

/-! ## Numbers and their bits -/

variable {n b v : Nat} {bits : List Bool} {bytes : List Nat}

theorem bitsOf_congr {a : Nat} (h : ∀ i < n, a.testBit i = b.testBit i) :
    bitsOf n a = bitsOf n b := by
  induction n with
  | zero => rfl
  | succ n ih =>
    rw [bitsOf, bitsOf, h n (by omega), ih fun i hi => h i (by omega)]

theorem length_bitsOf (n v : Nat) : (bitsOf n v).length = n := by
  induction n with
  | zero => rfl
  | succ n ih => rw [bitsOf, length_cons, ih]

theorem bitsOf_add (m n v : Nat) : bitsOf (m + n) v = bitsOf m (v >>> n) ++ bitsOf n v := by
  induction m with
  | zero => simp [bitsOf]
  | succ m ih =>
    rw [show m + 1 + n = (m + n) + 1 by omega, bitsOf, ih, bitsOf, cons_append,
      Nat.testBit_shiftRight, Nat.add_comm n m]

theorem bitsOf_mask (n v : Nat) : bitsOf n (v &&& (1 <<< n) - 1) = bitsOf n v := by
  refine bitsOf_congr fun i hi => ?_
  rw [Nat.one_shiftLeft, Nat.testBit_and, Nat.testBit_two_pow_sub_one]
  simp [hi]

theorem bitsOf_inj {a : Nat} (ha : a < 2 ^ n) (hb : b < 2 ^ n) (h : bitsOf n a = bitsOf n b) :
    a = b := by
  have hbits : ∀ i < n, a.testBit i = b.testBit i := by
    clear ha hb
    induction n with
    | zero => exact fun i hi => absurd hi (Nat.not_lt_zero i)
    | succ n ih =>
      rw [bitsOf, bitsOf] at h
      obtain ⟨htop, hrest⟩ := List.cons.inj h
      intro i hi
      by_cases heq : i = n
      · exact heq ▸ htop
      · exact ih hrest i (by omega)
  refine Nat.eq_of_testBit_eq fun i => ?_
  by_cases hi : i < n
  · exact hbits i hi
  · have hlarge : 2 ^ n ≤ 2 ^ i := Nat.pow_le_pow_right (by decide) (by omega)
    rw [Nat.testBit_lt_two_pow (by omega), Nat.testBit_lt_two_pow (by omega)]

/-- The number that `readBits` makes of bits. -/
def ofBits (bits : List Bool) : Nat := bits.foldl (fun v bit => v <<< 1 ||| bit.toNat) 0

theorem ofBits_append_singleton (bits : List Bool) (bit : Bool) :
    ofBits (bits ++ [bit]) = 2 * ofBits bits + bit.toNat := by
  rw [ofBits, foldl_append]
  show ofBits bits <<< 1 ||| bit.toNat = _
  rw [Nat.shiftLeft_eq, ← Nat.shiftLeft_eq, ← Nat.shiftLeft_add_eq_or_of_lt, Nat.shiftLeft_eq]
  · omega
  · cases bit <;> decide

theorem ofBits_lt (bits : List Bool) : ofBits bits < 2 ^ bits.length := by
  induction bits using List.reverseRecOn with
  | nil => decide
  | append_singleton bits bit ih =>
    rw [ofBits_append_singleton, length_append, length_singleton, Nat.pow_succ]
    have hbit : bit.toNat ≤ 1 := by cases bit <;> decide
    omega

theorem bitsOf_ofBits (bits : List Bool) : bitsOf bits.length (ofBits bits) = bits := by
  induction bits using List.reverseRecOn with
  | nil => rfl
  | append_singleton bits bit ih =>
    rw [length_append, length_singleton, ofBits_append_singleton, bitsOf_add]
    have hbit : bit.toNat ≤ 1 := by cases bit <;> decide
    have hhigh : (2 * ofBits bits + bit.toNat) >>> 1 = ofBits bits := by
      rw [Nat.shiftRight_one]
      omega
    rw [hhigh, ih]
    congr 1
    simp only [bitsOf, Nat.testBit_zero]
    cases bit <;> simp

theorem bitsOf_readBits {start len : Nat} (h : start + len ≤ bits.length) :
    bitsOf len (readBits bits start len) = (bits.drop start).take len := by
  have hlen : ((bits.drop start).take len).length = len := by
    rw [length_take, length_drop]
    omega
  have hback := bitsOf_ofBits ((bits.drop start).take len)
  rw [hlen] at hback
  exact hback

theorem readBits_lt {start len : Nat} : readBits bits start len < 2 ^ len := by
  refine Nat.lt_of_lt_of_le (ofBits_lt ((bits.drop start).take len)) ?_
  exact Nat.pow_le_pow_right (by decide) (length_take_le _ _)

/-! ## Bytes -/

def byteBits (bytes : List Nat) : List Bool := bytes.flatMap (bitsOf 8)

theorem byteBits_cons (b : Nat) (bytes : List Nat) :
    byteBits (b :: bytes) = bitsOf 8 b ++ byteBits bytes :=
  flatMap_cons

theorem length_byteBits (bytes : List Nat) : (byteBits bytes).length = 8 * bytes.length := by
  induction bytes with
  | nil => rfl
  | cons b bytes ih =>
    rw [byteBits_cons, length_append, length_bitsOf, ih, length_cons]
    omega

theorem byteBits_append (a b : List Nat) : byteBits (a ++ b) = byteBits a ++ byteBits b :=
  flatMap_append

theorem byteBits_inj {a b : List Nat} (ha : ∀ x ∈ a, x < 256) (hb : ∀ x ∈ b, x < 256)
    (h : byteBits a = byteBits b) : a = b := by
  have hlen : a.length = b.length := by
    have := congrArg List.length h
    rw [length_byteBits, length_byteBits] at this
    omega
  induction a generalizing b with
  | nil => exact (length_eq_zero_iff.mp hlen.symm).symm
  | cons x a ih =>
    cases b with
    | nil => cases hlen
    | cons y b =>
      obtain ⟨hx, ha⟩ := forall_mem_cons.mp ha
      obtain ⟨hy, hb⟩ := forall_mem_cons.mp hb
      rw [byteBits_cons, byteBits_cons] at h
      obtain ⟨hhead, htail⟩ := List.append_inj h (by rw [length_bitsOf, length_bitsOf])
      rw [bitsOf_inj hx hy hhead, ih ha hb htail (Nat.succ.inj hlen)]

def twoBytes (v : Nat) : List Nat := [v >>> 8, v &&& 0xff]

theorem byteBits_twoBytes (v : Nat) : byteBits (twoBytes v) = bitsOf 16 v := by
  show bitsOf 8 (v >>> 8) ++ (bitsOf 8 (v &&& (1 <<< 8) - 1) ++ []) = _
  rw [append_nil, bitsOf_mask, ← bitsOf_add]

theorem twoBytes_lt (h : v < 2 ^ 16) : ∀ b ∈ twoBytes v, b < 256 := by
  intro b hmem
  simp only [twoBytes, mem_cons, not_mem_nil, or_false] at hmem
  rcases hmem with heq | heq
  · rw [heq, Nat.shiftRight_eq_div_pow]
    omega
  · rw [heq]
    exact Nat.lt_of_le_of_lt Nat.and_le_right (by decide)

theorem byteBits_readBits (bits : List Bool) (start n : Nat) (h : start + 8 * n ≤ bits.length) :
    byteBits ((List.range n).map fun i => readBits bits (start + i * 8) 8) =
      (bits.drop start).take (8 * n) := by
  induction n with
  | zero => simp [byteBits]
  | succ n ih =>
    rw [range_succ, map_append, byteBits_append, ih (by omega)]
    show _ ++ (bitsOf 8 (readBits bits (start + n * 8) 8) ++ []) = _
    rw [append_nil, bitsOf_readBits (by omega), show 8 * (n + 1) = 8 * n + 8 by omega,
      take_add, drop_drop, Nat.mul_comm n 8]

/-- **The fields of a code**, of an address of `n` bytes. -/
theorem take_eq_fields (h : 40 + 8 * n ≤ bits.length) :
    byteBits (readBits bits 0 8 :: (List.range n).map fun i => readBits bits (8 + i * 8) 8) ++
      bitsOf 16 (readBits bits (8 + n * 8) 16) ++ bitsOf 16 (readBits bits (8 + n * 8 + 16) 16) =
      bits.take (40 + 8 * n) := by
  rw [byteBits_cons, byteBits_readBits bits 8 n (by omega), bitsOf_readBits (by omega),
    bitsOf_readBits (by omega), bitsOf_readBits (by omega),
    show 40 + 8 * n = 8 + 8 * n + 16 + 16 by omega, take_add, take_add, take_add,
    Nat.mul_comm n 8, drop_zero]

/-! ## The checksum -/

def crc16Poly : BitVec 16 := 0x1021

def crc16Feed (bits : List Bool) : BitVec 16 := crcFeed crc16Poly 0xffff bits

theorem crc16Shift_toNat (x : BitVec 16) : crc16Shift x.toNat = (crcShift crc16Poly x).toNat := by
  have hmask : ∀ v : Nat, v &&& 0xffff = v % 2 ^ 16 := fun v => Nat.and_two_pow_sub_one_eq_mod v 16
  have hmsb : x.toNat &&& 0x8000 ≠ 0 ↔ x.msb = true := by
    rw [BitVec.msb_eq_getLsbD_last, BitVec.getLsbD, show (0x8000 : Nat) = 2 ^ 15 from rfl,
      Nat.and_two_pow]
    cases x.toNat.testBit 15 <;> simp
  rw [crc16Shift, crcShift]
  by_cases h : x.msb = true
  · rw [if_pos (hmsb.mpr h), if_pos h, hmask, BitVec.toNat_xor, BitVec.toNat_shiftLeft,
      Nat.xor_mod_two_pow]
    rfl
  · rw [if_neg (fun hset => h (hmsb.mp hset)), if_neg h, hmask, BitVec.toNat_xor,
      BitVec.toNat_shiftLeft]
    simp

theorem iterate_crc16Shift (n : Nat) (x : BitVec 16) :
    crc16Shift^[n] x.toNat = ((crcShift crc16Poly)^[n] x).toNat := by
  induction n generalizing x with
  | zero => rfl
  | succ n ih =>
    rw [Function.iterate_succ_apply, Function.iterate_succ_apply, crc16Shift_toNat, ih]

theorem iterate_crcShift_xor (n : Nat) (x y : BitVec 16) : (crcShift crc16Poly)^[n] (x ^^^ y) =
    (crcShift crc16Poly)^[n] x ^^^ (crcShift crc16Poly)^[n] y := by
  induction n generalizing x y with
  | zero => rfl
  | succ n ih =>
    rw [Function.iterate_succ_apply, Function.iterate_succ_apply, Function.iterate_succ_apply,
      crcShift_xor, ih]

theorem crcFeed_replicate_false (n : Nat) (x : BitVec 16) :
    crcFeed crc16Poly x (List.replicate n false) = (crcShift crc16Poly)^[n] x := by
  induction n generalizing x with
  | zero => rfl
  | succ n ih =>
    rw [Function.iterate_succ_apply, ← ih]
    show crcFeed _ (crcShift _ (x ^^^ 0)) _ = _
    simp

theorem xorBits_replicate_false (bits : List Bool) :
    xorBits (List.replicate bits.length false) bits = bits := by
  induction bits with
  | nil => rfl
  | cons bit bits ih =>
    show (false ^^ bit) :: xorBits (List.replicate bits.length false) bits = _
    rw [ih, Bool.false_xor]

theorem iterate_crcShift_byte : ∀ b < 256, (crcShift crc16Poly)^[8] (BitVec.ofNat 16 (b <<< 8)) =
    crcFeed crc16Poly 0 (bitsOf 8 b) := by
  decide +kernel

theorem crc16Byte_toNat (x : BitVec 16) (hb : b < 256) :
    crc16Byte x.toNat b = (crcFeed crc16Poly x (bitsOf 8 b)).toNat := by
  have hshifted : b <<< 8 < 2 ^ 16 := by
    rw [Nat.shiftLeft_eq]
    omega
  have hxor : x.toNat ^^^ b <<< 8 = (x ^^^ BitVec.ofNat 16 (b <<< 8)).toNat := by
    rw [BitVec.toNat_xor, BitVec.toNat_ofNat, Nat.mod_eq_of_lt hshifted]
  have hfeed : crcFeed crc16Poly x (bitsOf 8 b) =
      crcFeed crc16Poly x (List.replicate 8 false) ^^^ crcFeed crc16Poly 0 (bitsOf 8 b) := by
    have hzeros := xorBits_replicate_false (bitsOf 8 b)
    rw [length_bitsOf] at hzeros
    rw [← crcFeed_xor (by rw [length_replicate, length_bitsOf]), hzeros]
    simp
  rw [crc16Byte, hxor, iterate_crc16Shift, iterate_crcShift_xor, iterate_crcShift_byte b hb, hfeed,
    crcFeed_replicate_false]

theorem crc16CcittFalse_toNat (h : ∀ b ∈ bytes, b < 256) :
    crc16CcittFalse bytes = (crc16Feed (byteBits bytes)).toNat := by
  have hfold : ∀ x : BitVec 16,
      bytes.foldl crc16Byte x.toNat = (crcFeed crc16Poly x (byteBits bytes)).toNat := by
    induction bytes with
    | nil => exact fun x => rfl
    | cons b bytes ih =>
      obtain ⟨hb, hrest⟩ := forall_mem_cons.mp h
      intro x
      rw [foldl_cons, crc16Byte_toNat x hb, ih hrest, byteBits_cons, crcFeed_append]
  exact hfold 0xffff

theorem crc16CcittFalse_lt (h : ∀ b ∈ bytes, b < 256) : crc16CcittFalse bytes < 2 ^ 16 := by
  rw [crc16CcittFalse_toNat h]
  exact BitVec.isLt _

theorem topBits_shiftLeft {k : Nat} (h : k + n = 16) :
    topBits n (BitVec.ofNat 16 v <<< k) = bitsOf n v := by
  induction n generalizing k with
  | zero => rfl
  | succ n ih =>
    rw [topBits, bitsOf, ← BitVec.shiftLeft_add, ih (by omega), BitVec.msb_eq_getLsbD_last,
      BitVec.getLsbD_shiftLeft, BitVec.getLsbD_ofNat, show 16 - 1 - k = n by omega]
    simp only [show n < 16 by omega, show ¬ 16 - 1 < k by omega, decide_true, decide_false,
      Bool.not_false, Bool.true_and]
    rfl

theorem topBits_ofNat (v : Nat) : topBits 16 (BitVec.ofNat 16 v) = bitsOf 16 v := by
  have hshift := topBits_shiftLeft (v := v) (show 0 + 16 = 16 from rfl)
  rwa [BitVec.shiftLeft_zero] at hshift

/-- **The checksum**: behind its message it empties the register, and nothing else does. -/
theorem crc16CcittFalse_eq_iff (h : ∀ b ∈ bytes, b < 256) {crc : Nat} (hcrc : crc < 2 ^ 16) :
    crc = crc16CcittFalse bytes ↔ crc16Feed (byteBits bytes ++ bitsOf 16 crc) = 0 := by
  rw [crc16Feed, crcFeed_append, ← topBits_ofNat, crcFeed_topBits_eq_zero (by decide),
    crc16CcittFalse_toNat h]
  rw [crc16Feed]
  constructor
  · intro heq
    rw [heq, BitVec.ofNat_toNat, BitVec.setWidth_eq]
  · intro heq
    rw [heq, BitVec.toNat_ofNat, Nat.mod_eq_of_lt hcrc]

/-! ## The characters -/

def charBits (ch : Char) : List Bool := bitsOf 5 ((crockfordReverse ch).getD 0)

def textBits (text : List Char) : List Bool := text.flatMap charBits

theorem textBits_cons (ch : Char) (text : List Char) :
    textBits (ch :: text) = charBits ch ++ textBits text :=
  flatMap_cons

theorem textBits_append (a b : List Char) : textBits (a ++ b) = textBits a ++ textBits b :=
  flatMap_append

theorem length_textBits (text : List Char) : (textBits text).length = 5 * text.length := by
  induction text with
  | nil => rfl
  | cons ch text ih =>
    rw [textBits_cons, length_append, charBits, length_bitsOf, ih, length_cons]
    omega

theorem crockfordReverse_crockfordChar : ∀ v < 32, crockfordReverse (crockfordChar v) = some v := by
  decide

theorem charBits_crockfordChar (v : Nat) : charBits (crockfordChar (v &&& 0x1f)) = bitsOf 5 v := by
  have hlt : v &&& 0x1f < 32 := Nat.lt_of_le_of_lt Nat.and_le_right (by decide)
  rw [charBits, crockfordReverse_crockfordChar _ hlt]
  exact bitsOf_mask 5 v

theorem crockfordReverse_eq_some {ch : Char} (h : crockfordReverse ch = some v) :
    v < 32 ∧ crockfordChar v = ch := by
  rw [crockfordReverse, findIdx?_eq_some_iff_getElem] at h
  obtain ⟨hlt, heq, -⟩ := h
  refine ⟨hlt, ?_⟩
  rw [crockfordChar, getD_eq_getElem _ _ hlt]
  exact of_decide_eq_true heq

theorem charBits_inj {a b : Char} (ha : crockfordReverse a ≠ none) (hb : crockfordReverse b ≠ none)
    (h : charBits a = charBits b) : a = b := by
  obtain ⟨x, hx⟩ := ne_none_iff_exists'.mp ha
  obtain ⟨y, hy⟩ := ne_none_iff_exists'.mp hb
  obtain ⟨hxlt, hxchar⟩ := crockfordReverse_eq_some hx
  obtain ⟨hylt, hychar⟩ := crockfordReverse_eq_some hy
  rw [charBits, charBits, hx, hy] at h
  have hsame : x = y := bitsOf_inj hxlt hylt h
  rw [← hxchar, ← hychar, hsame]

theorem textBits_inj {a b : List Char} (ha : ∀ ch ∈ a, crockfordReverse ch ≠ none)
    (hb : ∀ ch ∈ b, crockfordReverse ch ≠ none) (h : textBits a = textBits b) : a = b := by
  have hlen : a.length = b.length := by
    have := congrArg List.length h
    rw [length_textBits, length_textBits] at this
    omega
  induction a generalizing b with
  | nil => exact (length_eq_zero_iff.mp hlen.symm).symm
  | cons x a ih =>
    cases b with
    | nil => cases hlen
    | cons y b =>
      obtain ⟨hx, ha⟩ := forall_mem_cons.mp ha
      obtain ⟨hy, hb⟩ := forall_mem_cons.mp hb
      rw [textBits_cons, textBits_cons] at h
      obtain ⟨hhead, htail⟩ := List.append_inj h (by
        rw [charBits, charBits, length_bitsOf, length_bitsOf])
      rw [charBits_inj hx hy hhead, ih ha hb htail (Nat.succ.inj hlen)]

theorem textBits_drainBits (acc bits : Nat) :
    textBits (drainBits acc bits).1 ++ bitsOf (drainBits acc bits).2.2 (drainBits acc bits).2.1 =
      bitsOf bits acc ∧ (drainBits acc bits).2.2 < 5 := by
  fun_induction drainBits acc bits with
  | case1 acc bits out left heq ih =>
    rw [heq] at ih
    refine ⟨?_, ih.2⟩
    rw [textBits_cons, charBits_crockfordChar, append_assoc, ih.1, bitsOf_mask]
    show _ = bitsOf (bits + 5) acc
    rw [Nat.add_comm bits 5, bitsOf_add]
  | case2 acc bits hsmall =>
    refine ⟨rfl, ?_⟩
    show bits < 5
    by_contra hlarge
    exact hsmall (bits - 5) (by omega)

theorem bitsOf_push {acc bits : Nat} (hb : b < 256) :
    bitsOf (bits + 8) (acc <<< 8 ||| b) = bitsOf bits acc ++ bitsOf 8 b := by
  rw [bitsOf_add]
  have hhigh : (acc <<< 8 ||| b) >>> 8 = acc := by
    refine Nat.eq_of_testBit_eq fun i => ?_
    have hlow : b < 2 ^ (8 + i) :=
      Nat.lt_of_lt_of_le hb (Nat.pow_le_pow_right (n := 2) (by decide) (Nat.le_add_right 8 i))
    rw [Nat.testBit_shiftRight, Nat.testBit_or, Nat.testBit_shiftLeft,
      Nat.testBit_lt_two_pow hlow]
    simp
  rw [hhigh]
  congr 1
  refine bitsOf_congr fun i hi => ?_
  rw [Nat.testBit_or, Nat.testBit_shiftLeft]
  simp [show ¬ 8 ≤ i by omega]

theorem crockfordLoop_cons (b : Nat) (bytes : List Nat) (acc bits : Nat) :
    crockfordLoop (b :: bytes) acc bits = (drainBits (acc <<< 8 ||| b) (bits + 8)).1 ++
      crockfordLoop bytes (drainBits (acc <<< 8 ||| b) (bits + 8)).2.1
        (drainBits (acc <<< 8 ||| b) (bits + 8)).2.2 := by
  rw [crockfordLoop]

/-- **The characters have the bits of the bytes**, and fewer than five zeros. -/
theorem textBits_crockfordLoop (h : ∀ b ∈ bytes, b < 256) (acc bits : Nat) (hbits : bits < 5) :
    ∃ pad < 5,
      textBits (crockfordLoop bytes acc bits) =
        bitsOf bits acc ++ byteBits bytes ++ List.replicate pad false := by
  induction bytes generalizing acc bits with
  | nil =>
    rw [crockfordLoop]
    by_cases hpos : 0 < bits
    · refine ⟨5 - bits, by omega, ?_⟩
      rw [if_pos hpos, textBits_cons, charBits_crockfordChar]
      have hadd := bitsOf_add bits (5 - bits) (acc <<< (5 - bits))
      rw [show bits + (5 - bits) = 5 by omega, Nat.shiftLeft_shiftRight] at hadd
      rw [hadd]
      have hzeros : bitsOf (5 - bits) (acc <<< (5 - bits)) = List.replicate (5 - bits) false := by
        refine eq_replicate_iff.mpr ⟨length_bitsOf _ _, ?_⟩
        have hzero : ∀ n ≤ 5 - bits, ∀ bit ∈ bitsOf n (acc <<< (5 - bits)), bit = false := by
          intro n
          induction n with
          | zero => exact nofun
          | succ n ih =>
            intro hn bit hmem
            rw [bitsOf] at hmem
            rcases mem_cons.mp hmem with heq | hmem
            · rw [heq, Nat.testBit_shiftLeft]
              simp [show ¬ 5 - bits ≤ n by omega]
            · exact ih (by omega) bit hmem
        exact hzero _ (Nat.le_refl _)
      rw [hzeros]
      simp [byteBits, textBits]
    · refine ⟨0, by decide, ?_⟩
      rw [if_neg hpos, show bits = 0 by omega]
      rfl
  | cons b bytes ih =>
    obtain ⟨hb, hrest⟩ := forall_mem_cons.mp h
    rw [crockfordLoop_cons]
    obtain ⟨hdrained, hleft⟩ := textBits_drainBits (acc <<< 8 ||| b) (bits + 8)
    obtain ⟨pad, hpad, hloop⟩ := ih hrest (drainBits (acc <<< 8 ||| b) (bits + 8)).2.1
      (drainBits (acc <<< 8 ||| b) (bits + 8)).2.2 hleft
    refine ⟨pad, hpad, ?_⟩
    rw [textBits_append, hloop, ← append_assoc, ← append_assoc, hdrained, bitsOf_push hb,
      byteBits_cons, ← append_assoc]

theorem textBits_bytesToCrockford (h : ∀ b ∈ bytes, b < 256) : ∃ pad < 5,
    textBits (bytesToCrockford bytes) = byteBits bytes ++ List.replicate pad false := by
  obtain ⟨pad, hpad, heq⟩ := textBits_crockfordLoop h 0 0 (by decide)
  exact ⟨pad, hpad, heq⟩

theorem crockfordReverse_of_mem_crockfordLoop {acc bits : Nat} :
    ∀ ch ∈ crockfordLoop bytes acc bits, crockfordReverse ch ≠ none := by
  have hchar : ∀ v, crockfordReverse (crockfordChar (v &&& 0x1f)) ≠ none := by
    intro v
    rw [crockfordReverse_crockfordChar _ (Nat.lt_of_le_of_lt Nat.and_le_right (by decide))]
    exact some_ne_none _
  have hdrain : ∀ acc bits, ∀ ch ∈ (drainBits acc bits).1, crockfordReverse ch ≠ none := by
    intro acc bits
    fun_induction drainBits acc bits with
    | case1 acc bits out left heq ih =>
      rw [heq] at ih
      exact forall_mem_cons.mpr ⟨hchar _, ih⟩
    | case2 acc bits _ => exact nofun
  induction bytes generalizing acc bits with
  | nil =>
    rw [crockfordLoop]
    split
    · exact forall_mem_singleton.mpr (hchar _)
    · exact nofun
  | cons b bytes ih =>
    rw [crockfordLoop_cons]
    exact forall_mem_append.mpr ⟨hdrain _ _, ih⟩

end Dweb
