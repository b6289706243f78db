import OpenDweb.Lib.Keys

/-!
# OpenDweb — byte strings, fixed-width arrays and big-endian integers

The wire formats of the development are lists of `UInt8`. This module holds what
every codec needs and nothing of any one format:

* a `LinearOrder` on `UInt8` and `UInt64` that keeps their built-in comparisons, so
  that byte strings are ordered lexicographically (`List.instLinearOrder`) the way
  `Ord for [u8; N]` orders them;
* `BytesN n`, the fixed-width array `[u8; n]` with its length as a field;
* `beBytes`/`beNat`, the `to_be_bytes`/`from_be_bytes` pair at any width. `beBytes`
  truncates modulo `256 ^ w`, as an `as u16`/`as u32` cast does;
* `leBytes`, the same in little-endian order;
* `BytesN.append_inj` and its like — fields of one width can be compared one by one;
* `slice`, the `&bytes[a..b]` of an offset-driven parser, with the lemmas that move it across
  an append, and `arrayAt`, a fixed-width array read at an offset.
-/

namespace Dweb

open List

/-- A byte string on the wire or on disk. -/
abbrev Bytes := List UInt8

/-! ## Orders on machine integers -/

instance instLinearOrderUInt8 : LinearOrder UInt8 where
  le_refl := UInt8.le_refl
  le_trans _ _ _ := UInt8.le_trans
  le_antisymm _ _ := UInt8.le_antisymm
  le_total := UInt8.le_total
  lt_iff_le_not_ge a b := by
    simp only [UInt8.le_iff_toNat_le, UInt8.lt_iff_toNat_lt]; omega
  toDecidableLE := inferInstance
  toDecidableLT := inferInstance
  toDecidableEq := inferInstance

instance instLinearOrderUInt64 : LinearOrder UInt64 where
  le_refl := UInt64.le_refl
  le_trans _ _ _ := UInt64.le_trans
  le_antisymm _ _ := UInt64.le_antisymm
  le_total := UInt64.le_total
  lt_iff_le_not_ge a b := by
    simp only [UInt64.le_iff_toNat_le, UInt64.lt_iff_toNat_lt]; omega
  toDecidableLE := inferInstance
  toDecidableLT := inferInstance
  toDecidableEq := inferInstance

/-! ## Saturating sums -/

/-- `u64::saturating_add`. -/
def saturatingAdd (a b : UInt64) : UInt64 := UInt64.ofNat (min (a.toNat + b.toNat) (2 ^ 64 - 1))

theorem le_saturatingAdd {a b c : UInt64} :
    c ≤ saturatingAdd a b ↔ c.toNat ≤ a.toNat + b.toNat := by
  have hc : c.toNat < 2 ^ 64 := c.toNat_lt
  have hmin : min (a.toNat + b.toNat) (2 ^ 64 - 1) < 2 ^ 64 := by omega
  rw [UInt64.le_iff_toNat_le, saturatingAdd, UInt64.toNat_ofNat_of_lt' hmin]
  omega

/-! ## Fixed-width arrays -/

/-- `[u8; n]`: a byte string that carries its length. -/
structure BytesN (n : Nat) where
  toBytes : Bytes
  length_eq : toBytes.length = n

namespace BytesN

variable {n : Nat}

theorem toBytes_injective : Function.Injective (toBytes : BytesN n → Bytes) := by
  intro a b h
  cases a; cases b
  simpa using h

/-- `Ord for [u8; N]`: lexicographic. -/
instance : LinearOrder (BytesN n) := LinearOrder.lift' toBytes toBytes_injective

instance transOrd32 : Std.TransOrd (BytesN 32) := transOrd

instance lawfulBEq32 : LawfulBEq (BytesN 32) := inferInstance

/-- `<[u8; n]>::try_from(slice)`: succeeds exactly on a slice of length `n`. -/
def ofBytes? (n : Nat) (bs : Bytes) : Option (BytesN n) :=
  if h : bs.length = n then some ⟨bs, h⟩ else none

@[simp] theorem length_toBytes (a : BytesN n) : a.toBytes.length = n := a.length_eq

@[simp] theorem ofBytes?_toBytes (a : BytesN n) : ofBytes? n a.toBytes = some a := by
  simp [ofBytes?]

end BytesN

/-! ## Big-endian integers -/

/-- The `w` big-endian bytes of `v`, truncated modulo `256 ^ w`. -/
def beBytes : Nat → Nat → Bytes
  | 0, _ => []
  | w + 1, v => beBytes w (v / 256) ++ [UInt8.ofNat v]

def beNat (bs : Bytes) : Nat := bs.foldl (fun acc b => acc * 256 + b.toNat) 0

@[simp] theorem length_beBytes (w v : Nat) : (beBytes w v).length = w := by
  induction w generalizing v with
  | zero => rfl
  | succ w ih => simp [beBytes, ih]

theorem beNat_append_singleton (bs : Bytes) (b : UInt8) :
    beNat (bs ++ [b]) = beNat bs * 256 + b.toNat := by
  simp [beNat]

def BytesN.ofNat (n v : Nat) : BytesN n := ⟨beBytes n v, length_beBytes n v⟩

theorem beNat_beBytes (w v : Nat) : beNat (beBytes w v) = v % 256 ^ w := by
  induction w generalizing v with
  | zero => simp [beBytes, beNat, Nat.mod_one]
  | succ w ih =>
    rw [beBytes, beNat_append_singleton, ih]
    have hb : (UInt8.ofNat v).toNat = v % 256 := by simp
    rw [hb, pow_succ, mul_comm (256 ^ w) 256, Nat.mod_mul]
    ring

variable {w a b n i : Nat} {x y bs : Bytes}

theorem beNat_beBytes_of_lt {v : Nat} (h : v < 256 ^ w) : beNat (beBytes w v) = v := by
  rw [beNat_beBytes, Nat.mod_eq_of_lt h]

theorem beNat_lt (bs : Bytes) : beNat bs < 256 ^ bs.length := by
  induction bs using List.reverseRecOn with
  | nil => simp [beNat]
  | append_singleton bs b ih =>
    rw [beNat_append_singleton, length_append, length_singleton, pow_succ]
    have hb := b.toNat_lt
    omega

theorem beBytes_beNat (bs : Bytes) : beBytes bs.length (beNat bs) = bs := by
  induction bs using List.reverseRecOn with
  | nil => rfl
  | append_singleton bs b ih =>
    have hb := b.toNat_lt
    rw [length_append, length_singleton, beBytes, beNat_append_singleton]
    have hdiv : (beNat bs * 256 + b.toNat) / 256 = beNat bs := by omega
    have hlast : UInt8.ofNat (beNat bs * 256 + b.toNat) = b := by
      apply UInt8.toNat_inj.mp
      simp only [UInt8.toNat_ofNat']
      omega
    rw [hdiv, ih, hlast]

theorem beBytes_inj (ha : a < 256 ^ w) (hb : b < 256 ^ w) : beBytes w a = beBytes w b ↔ a = b := by
  constructor
  · intro h
    rw [← beNat_beBytes_of_lt ha, h, beNat_beBytes_of_lt hb]
  · rintro rfl
    rfl

theorem beBytes_u64_inj {a b : UInt64} : beBytes 8 a.toNat = beBytes 8 b.toNat ↔ a = b := by
  rw [beBytes_inj a.toNat_lt b.toNat_lt, UInt64.toNat_inj]

/-- The `w` little-endian bytes of `v`, truncated modulo `256 ^ w`. -/
def leBytes (w v : Nat) : Bytes := (beBytes w v).reverse

@[simp] theorem length_leBytes (w v : Nat) : (leBytes w v).length = w := by
  rw [leBytes, length_reverse, length_beBytes]

theorem leBytes_inj (ha : a < 256 ^ w) (hb : b < 256 ^ w) : leBytes w a = leBytes w b ↔ a = b := by
  rw [leBytes, leBytes, reverse_inj, beBytes_inj ha hb]

/-! ## Fields in front of the rest -/

theorem append_inj_of_length {a b : Bytes} (h : a.length = b.length) :
    a ++ x = b ++ y ↔ a = b ∧ x = y := by
  constructor
  · intro heq
    exact List.append_inj heq h
  · rintro ⟨rfl, rfl⟩
    rfl

theorem BytesN.append_inj {a b : BytesN n} : a.toBytes ++ x = b.toBytes ++ y ↔ a = b ∧ x = y := by
  have hlen : a.toBytes.length = b.toBytes.length := by rw [a.length_toBytes, b.length_toBytes]
  rw [append_inj_of_length hlen, BytesN.toBytes_injective.eq_iff]

theorem beBytes_u64_append_inj {a b : UInt64} :
    beBytes 8 a.toNat ++ x = beBytes 8 b.toNat ++ y ↔ a = b ∧ x = y := by
  have hlen : (beBytes 8 a.toNat).length = (beBytes 8 b.toNat).length := by
    rw [length_beBytes, length_beBytes]
  rw [append_inj_of_length hlen, beBytes_u64_inj]

theorem leBytes_append_inj (ha : a < 256 ^ w) (hb : b < 256 ^ w) :
    leBytes w a ++ x = leBytes w b ++ y ↔ a = b ∧ x = y := by
  have hlen : (leBytes w a).length = (leBytes w b).length := by
    rw [length_leBytes, length_leBytes]
  rw [append_inj_of_length hlen, leBytes_inj ha hb]

theorem singleton_append_inj {a b : UInt8} : [a] ++ x = [b] ++ y ↔ a = b ∧ x = y := by
  have hlen : [a].length = [b].length := rfl
  rw [append_inj_of_length hlen, singleton_inj]

/-! ## Slices -/

def slice (bs : Bytes) (a b : Nat) : Bytes := (bs.drop a).take (b - a)

theorem length_slice (h : b ≤ bs.length) : (slice bs a b).length = b - a := by
  simp only [slice, length_take, length_drop]
  omega

theorem drop_slice (bs : Bytes) (a b k : Nat) : (slice bs a b).drop k = slice bs (a + k) b := by
  unfold slice
  rw [drop_take, drop_drop, show b - (a + k) = b - a - k by omega]

theorem slice_slice {j : Nat} (hj : a + j ≤ b) :
    slice (slice bs a b) i j = slice bs (a + i) (a + j) := by
  unfold slice
  rw [drop_take, drop_drop, take_take,
    show min (j - i) (b - a - i) = a + j - (a + i) by omega]

theorem slice_append {pre mid post : Bytes} (ha : pre.length = a) (hb : a + mid.length = b) :
    slice (pre ++ (mid ++ post)) a b = mid := by
  subst ha hb
  simp [slice]

theorem slice_append_slice {c : Nat} (hab : a ≤ b) (hbc : b ≤ c) :
    slice bs a b ++ slice bs b c = slice bs a c := by
  unfold slice
  have hdrop : bs.drop b = (bs.drop a).drop (b - a) := by
    rw [drop_drop]; congr 1; omega
  have hlen : c - a = (b - a) + (c - b) := by omega
  rw [hdrop, hlen, take_add]

@[simp] theorem slice_zero_length (bs : Bytes) : slice bs 0 bs.length = bs := by
  simp [slice]

theorem getElem?_slice (h : i < b - a) : (slice bs a b)[i]? = bs[a + i]? := by
  unfold slice
  rw [getElem?_take_of_lt h, getElem?_drop]

theorem slice_succ (h : a < bs.length) : slice bs a (a + 1) = [bs.getD a 0] := by
  unfold slice
  rw [Nat.add_sub_cancel_left, drop_eq_getElem_cons h, take_succ_cons, take_zero]
  simp [h]

theorem slice_append_self {a b : Bytes} (h : a.length = n) : slice (a ++ b) 0 n = a := by
  subst h
  simp [slice]

theorem getD_append_right {a b : Bytes} {d : UInt8} (h : a.length ≤ i) :
    (a ++ b).getD i d = b.getD (i - a.length) d := by
  simp only [getD_eq_getElem?_getD, getElem?_append_right h]

/-! ## Arrays out of a byte string -/

/-- `<[u8; n]>::try_from(&bytes[a..a + n]).expect(..)` behind a length check. The zero
array is the panic that the check excludes (`toBytes_arrayAt`). -/
def arrayAt (bytes : Bytes) (a n : Nat) : BytesN n :=
  if h : (slice bytes a (a + n)).length = n then ⟨slice bytes a (a + n), h⟩
  else ⟨List.replicate n 0, length_replicate⟩

theorem toBytes_arrayAt {bytes : Bytes} (h : a + n ≤ bytes.length) :
    (arrayAt bytes a n).toBytes = slice bytes a (a + n) := by
  have hlen : (slice bytes a (a + n)).length = n := by rw [length_slice h]; omega
  simp [arrayAt, hlen]

theorem arrayAt_eq {bytes : Bytes} {v : BytesN n} (h : slice bytes a (a + n) = v.toBytes) :
    arrayAt bytes a n = v := by
  apply BytesN.toBytes_injective
  unfold arrayAt
  rw [dif_pos (by rw [h, v.length_toBytes])]
  exact h

end Dweb
