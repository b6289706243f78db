import OpenDweb.Lib.Base64Url
import OpenDweb.Lib.Except

/-!
# OpenDweb — strict parsers of byte strings

A `Scan` takes its value off the front of the input. What is proved of one is a single
equivalence, `Scan.Codes`: it accepts exactly the encodings of the valid values. Both directions
of a round trip follow, and the equivalences compose along a `do` block.

* **`Scan.run_bind_eq_ok`**, **`Scan.run_check_eq_ok`** — the links of a `do` block.
* **`Scan.Codes.times`**, **`Scan.Codes.map`** — lists, and values that are checked after the
  parse.
* **`Scan.run_text_eq_ok`** — a text of a given length.
* **`Scan.Reads.times`** — the same for a parser that returns less, or other, than what it read.
-/

namespace Dweb

open List

/-- A parser that takes its value off the front of the input. -/
abbrev Scan (ε : Type) : Type → Type := StateT Bytes (Except ε)

namespace Scan

variable {ε α β : Type} {bs rest : Bytes}

/-! ## Primitives -/

/-- `if c { return Err(e) }`. -/
def check (c : Prop) [Decidable c] (e : ε) : Scan ε Unit :=
  fun bs => if c then .error e else .ok ((), bs)

/-- The input has `n` bytes left. -/
def need (n : Nat) (e : ε) : Scan ε Unit :=
  fun bs => if bs.length < n then .error e else .ok ((), bs)

def ofExcept (x : Except ε α) : Scan ε α := fun bs => x.map fun a => (a, bs)

/-- The next `n` bytes. -/
def take (n : Nat) (e : ε) : Scan ε Bytes :=
  fun bs => if bs.length < n then .error e else .ok (bs.take n, bs.drop n)

def array (n : Nat) (e : ε) : Scan ε (BytesN n) :=
  fun bs => if h : n ≤ bs.length then .ok (⟨bs.take n, length_take_of_le h⟩, bs.drop n)
    else .error e

/-- A big-endian number of `w` bytes. -/
def be (w : Nat) (e : ε) : Scan ε Nat := do
  let bytes ← take w e
  return beNat bytes

def u8 (e : ε) : Scan ε UInt8 := do
  let n ← be 1 e
  return UInt8.ofNat n

def u64 (e : ε) : Scan ε UInt64 := do
  let n ← be 8 e
  return UInt64.ofNat n

/-- A text of `n` bytes. -/
def text (n : Nat) (short invalid : ε) : Scan ε String := do
  let bytes ← take n short
  ofExcept (okOr (utf8Text? bytes) invalid)

/-- `n` values, the first of them with the number `i`. -/
def times (p : Nat → Scan ε α) : Nat → Nat → Scan ε (List α)
  | _, 0 => return []
  | i, n + 1 => do
    let a ← p i
    let as ← times p (i + 1) n
    return a :: as

/-! ## Links -/

theorem run_pure_eq_ok {a b : α} :
    (pure a : Scan ε α).run bs = .ok (b, rest) ↔ a = b ∧ bs = rest := by
  simp only [StateT.run_pure, pure_eq_ok, Prod.mk.injEq]

theorem run_bind_eq_ok {p : Scan ε α} {f : α → Scan ε β} {b : β} :
    (p >>= f).run bs = .ok (b, rest)
      ↔ ∃ a mid, p.run bs = .ok (a, mid) ∧ (f a).run mid = .ok (b, rest) := by
  rw [StateT.run_bind, bind_eq_ok]
  exact ⟨fun ⟨r, h⟩ => ⟨r.1, r.2, h⟩, fun ⟨a, mid, h⟩ => ⟨(a, mid), h⟩⟩

theorem run_check_eq_ok {c : Prop} [Decidable c] {e : ε} {u : Unit} :
    (check c e).run bs = .ok (u, rest) ↔ ¬c ∧ bs = rest := by
  show (if c then _ else _) = _ ↔ _
  by_cases hc : c
  · simp only [hc, if_true, not_true_eq_false, false_and, reduceCtorEq]
  · simp only [hc, if_false, not_false_eq_true, true_and, Except.ok.injEq, Prod.mk.injEq]

theorem run_need_eq_ok {n : Nat} {e : ε} {u : Unit} :
    (need n e).run bs = .ok (u, rest) ↔ n ≤ bs.length ∧ bs = rest := by
  show (if bs.length < n then _ else _) = _ ↔ _
  by_cases hn : bs.length < n
  · simp only [hn, if_true, Nat.not_le.mpr hn, false_and, reduceCtorEq]
  · simp only [hn, if_false, Nat.le_of_not_lt hn, true_and, Except.ok.injEq, Prod.mk.injEq]

theorem run_ofExcept_eq_ok {x : Except ε α} {a : α} :
    (ofExcept x).run bs = .ok (a, rest) ↔ x = .ok a ∧ bs = rest := by
  show x.map _ = _ ↔ _
  cases x with
  | error e => simp only [Except.map, reduceCtorEq, false_and]
  | ok b => simp only [Except.map, Except.ok.injEq, Prod.mk.injEq]

/-! ## Codes -/

/-- The parser accepts exactly the encodings of the values with `P`. -/
def Codes (p : Scan ε α) (enc : α → Bytes) (P : α → Prop) : Prop :=
  ∀ bs a rest, p.run bs = .ok (a, rest) ↔ P a ∧ bs = enc a ++ rest

theorem codes_take (n : Nat) (e : ε) : Codes (take n e) id fun bytes => bytes.length = n := by
  intro bs a rest
  show (if bs.length < n then _ else _) = _ ↔ _
  by_cases hn : bs.length < n
  · rw [if_pos hn]
    refine iff_of_false nofun ?_
    rintro ⟨hlen, rfl⟩
    rw [length_append, id, hlen] at hn
    omega
  · rw [if_neg hn, Except.ok.injEq, Prod.mk.injEq]
    constructor
    · rintro ⟨rfl, rfl⟩
      exact ⟨length_take_of_le (Nat.le_of_not_lt hn), (take_append_drop n bs).symm⟩
    · rintro ⟨rfl, rfl⟩
      exact ⟨take_left' rfl, drop_left' rfl⟩

theorem codes_array (n : Nat) (e : ε) :
    Codes (array n e) BytesN.toBytes fun _ => True := by
  intro bs a rest
  show (if h : n ≤ bs.length then _ else _) = _ ↔ _
  by_cases hn : n ≤ bs.length
  · rw [dif_pos hn, Except.ok.injEq, Prod.mk.injEq, true_and]
    constructor
    · rintro ⟨rfl, rfl⟩
      exact (take_append_drop n bs).symm
    · rintro rfl
      exact ⟨BytesN.toBytes_injective (take_left' a.length_eq), drop_left' a.length_eq⟩
  · rw [dif_neg hn]
    refine iff_of_false nofun ?_
    rintro ⟨-, rfl⟩
    rw [length_append, a.length_eq] at hn
    omega

theorem codes_be (w : Nat) (e : ε) : Codes (be w e) (beBytes w) fun n => n < 256 ^ w := by
  intro bs n rest
  simp only [be, run_bind_eq_ok, codes_take w e _ _ _, run_pure_eq_ok, id]
  constructor
  · rintro ⟨bytes, _, ⟨hlen, rfl⟩, rfl, rfl⟩
    subst hlen
    rw [beBytes_beNat]
    exact ⟨beNat_lt bytes, rfl⟩
  · rintro ⟨hlt, rfl⟩
    exact ⟨_, _, ⟨length_beBytes w n, rfl⟩, beNat_beBytes_of_lt hlt, rfl⟩

theorem codes_u8 (e : ε) : Codes (u8 e) (fun b => [b]) fun _ => True := by
  intro bs b rest
  have hone : ∀ b : UInt8, beBytes 1 b.toNat = [b] := fun b => by
    rw [beBytes, beBytes, UInt8.ofNat_toNat, nil_append]
  simp only [u8, run_bind_eq_ok, codes_be 1 e _ _ _, run_pure_eq_ok, true_and]
  constructor
  · rintro ⟨n, _, ⟨hlt, rfl⟩, rfl, rfl⟩
    rw [beBytes, beBytes, nil_append]
  · rintro rfl
    exact ⟨b.toNat, _, ⟨b.toNat_lt, by rw [hone]⟩, UInt8.ofNat_toNat, rfl⟩

theorem codes_u64 (e : ε) : Codes (u64 e) (fun v => beBytes 8 v.toNat) fun _ => True := by
  intro bs v rest
  simp only [u64, run_bind_eq_ok, codes_be 8 e _ _ _, run_pure_eq_ok, true_and]
  constructor
  · rintro ⟨n, _, ⟨hlt, rfl⟩, rfl, rfl⟩
    rw [UInt64.toNat_ofNat_of_lt' hlt]
  · rintro rfl
    exact ⟨v.toNat, _, ⟨v.toNat_lt, rfl⟩, UInt64.ofNat_toNat, rfl⟩

theorem run_text_eq_ok {n : Nat} {short invalid : ε} {s : String} :
    (text n short invalid).run bs = .ok (s, rest)
      ↔ (utf8Bytes s).length = n ∧ bs = utf8Bytes s ++ rest := by
  simp only [text, run_bind_eq_ok, codes_take n short _ _ _, run_ofExcept_eq_ok, okOr_eq_ok, id]
  constructor
  · rintro ⟨bytes, _, ⟨hlen, rfl⟩, hs, rfl⟩
    rw [utf8Bytes_of_utf8Text? hs]
    exact ⟨hlen, rfl⟩
  · rintro ⟨hlen, rfl⟩
    exact ⟨_, _, ⟨hlen, rfl⟩, utf8Text?_utf8Bytes s, rfl⟩

theorem Codes.times {p : Nat → Scan ε α} {enc : α → Bytes} {P : α → Prop}
    (h : ∀ i, Codes (p i) enc P) (i n : Nat) :
    Codes (times p i n) (fun as => as.flatMap enc) fun as => as.length = n ∧ ∀ a ∈ as, P a := by
  induction n generalizing i with
  | zero =>
    intro bs as rest
    rw [Scan.times, run_pure_eq_ok]
    constructor
    · rintro ⟨rfl, rfl⟩
      exact ⟨⟨rfl, fun a ha => absurd ha not_mem_nil⟩, rfl⟩
    · rintro ⟨⟨hlen, -⟩, rfl⟩
      obtain rfl := length_eq_zero_iff.mp hlen
      exact ⟨rfl, rfl⟩
  | succ n ih =>
    intro bs as rest
    simp only [Scan.times, run_bind_eq_ok, h i _ _ _, ih (i + 1) _ _ _, run_pure_eq_ok]
    constructor
    · rintro ⟨a, _, ⟨ha, rfl⟩, as, _, ⟨⟨hlen, has⟩, rfl⟩, rfl, rfl⟩
      refine ⟨⟨by rw [length_cons, hlen], forall_mem_cons.mpr ⟨ha, has⟩⟩, ?_⟩
      rw [flatMap_cons, append_assoc]
    · rintro ⟨⟨hlen, has⟩, rfl⟩
      cases as with
      | nil => cases hlen
      | cons a as =>
        obtain ⟨ha, has⟩ := forall_mem_cons.mp has
        rw [flatMap_cons, append_assoc]
        exact ⟨a, _, ⟨ha, rfl⟩, as, _, ⟨⟨Nat.succ.inj hlen, has⟩, rfl⟩, rfl, rfl⟩

/-! ## Readings -/

/-- The parser accepts exactly the encodings of the values with `P`, and returns `f` of them. -/
def Reads {γ : Type} (p : Scan ε β) (enc : γ → Bytes) (P : γ → Prop) (f : γ → β) : Prop :=
  ∀ bs b rest, p.run bs = .ok (b, rest) ↔ ∃ a, P a ∧ bs = enc a ++ rest ∧ f a = b

theorem Reads.times {γ : Type} {p : Nat → Scan ε β} {enc : γ → Bytes} {P : γ → Prop} {f : γ → β}
    (h : ∀ i, Reads (p i) enc P f) (i n : Nat) :
    Reads (times p i n) (fun as : List γ => as.flatMap enc)
      (fun as => as.length = n ∧ ∀ a ∈ as, P a)
      (fun as => as.map f) := by
  induction n generalizing i with
  | zero =>
    intro bs out rest
    rw [Scan.times, run_pure_eq_ok]
    constructor
    · rintro ⟨rfl, rfl⟩
      exact ⟨[], ⟨rfl, fun a ha => absurd ha not_mem_nil⟩, rfl, rfl⟩
    · rintro ⟨as, ⟨hlen, -⟩, rfl, rfl⟩
      obtain rfl := length_eq_zero_iff.mp hlen
      exact ⟨rfl, rfl⟩
  | succ n ih =>
    intro bs out rest
    simp only [Scan.times, run_bind_eq_ok, h i _ _ _, ih (i + 1) _ _ _, run_pure_eq_ok]
    constructor
    · rintro ⟨_, _, ⟨a, ha, rfl, rfl⟩, _, _, ⟨as, ⟨hlen, has⟩, rfl, rfl⟩, rfl, rfl⟩
      refine ⟨a :: as, ⟨by rw [length_cons, hlen], forall_mem_cons.mpr ⟨ha, has⟩⟩, ?_, rfl⟩
      rw [flatMap_cons, append_assoc]
    · rintro ⟨as, ⟨hlen, has⟩, rfl, rfl⟩
      cases as with
      | nil => cases hlen
      | cons a as =>
        obtain ⟨ha, has⟩ := forall_mem_cons.mp has
        rw [flatMap_cons, append_assoc]
        exact ⟨_, _, ⟨a, ha, rfl, rfl⟩, _, _, ⟨as, ⟨Nat.succ.inj hlen, has⟩, rfl, rfl⟩, rfl, rfl⟩

end Scan

end Dweb
