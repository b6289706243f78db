import OpenDweb.Lib.Bytes

/-!
# OpenDweb — code that could panic

A total model of a parser says nothing about the reads that would stop it. Here every such read
has a partial form: an index, a slice, a fixed-width array behind an `expect`, an unsigned sum
or difference. A decoder written with them lives in `MayPanic`, and it is shown free of panics
by proving it equal to `sure` of its total model.

* **`orPanic_bind`** — a read that succeeds is its value.
* **`sure_bind`** — a chain is free of panics if each of its links is, on the values the links
  before it let through.
-/

namespace Dweb

universe u

/-! ## Reads -/

/-- `bytes.get(a..b)`, or `&bytes[a..b]` with its panic. -/
def sliceChecked (bs : Bytes) (a b : Nat) : Option Bytes :=
  if a ≤ b ∧ b ≤ bs.length then some (slice bs a b) else none

variable {bs : Bytes} {a b : Nat}

theorem sliceChecked_of_le (hab : a ≤ b) (hb : b ≤ bs.length) :
    sliceChecked bs a b = some (slice bs a b) := if_pos ⟨hab, hb⟩

/-- `[bytes[a], …, bytes[a + n - 1]]`, one index after another. -/
def indexesChecked (bs : Bytes) (a : Nat) : Nat → Option Bytes
  | 0 => some []
  | n + 1 => do
    let b ← bs[a]?
    let rest ← indexesChecked bs (a + 1) n
    some (b :: rest)

theorem indexesChecked_of_le {n : Nat} (h : a + n ≤ bs.length) :
    indexesChecked bs a n = some (slice bs a (a + n)) := by
  induction n generalizing a with
  | zero => simp [indexesChecked, slice]
  | succ n ih =>
    have hlt : a < bs.length := by omega
    have hhead : bs[a]? = some (bs.getD a 0) := by simp [hlt]
    have hrest : slice bs a (a + (n + 1)) = bs.getD a 0 :: slice bs (a + 1) (a + 1 + n) := by
      rw [← slice_append_slice (Nat.le_succ a) (by omega : a + 1 ≤ a + (n + 1)), slice_succ hlt,
        List.singleton_append, show a + (n + 1) = a + 1 + n by omega]
    rw [indexesChecked, hhead, ih (by omega), hrest]
    rfl

theorem getElem?_eq_getD (h : a < bs.length) :
    bs[a]? = some (bs.getD a 0) := by simp [h]

def arrayChecked (bs : Bytes) (a b n : Nat) : Option (BytesN n) :=
  (sliceChecked bs a b).bind (BytesN.ofBytes? n)

theorem arrayChecked_of_le {n : Nat} (hn : a + n = b) (hb : b ≤ bs.length) :
    arrayChecked bs a b n = some (arrayAt bs a n) := by
  subst hn
  rw [arrayChecked, sliceChecked_of_le (Nat.le_add_right a n) hb, Option.bind_some,
    ← toBytes_arrayAt hb, BytesN.ofBytes?_toBytes]

/-! ## Sums and differences -/

/-- `isize::MAX`, the most bytes a slice can have. -/
def ISIZE_MAX : Nat := 2 ^ 63 - 1

/-- `a + b` on a 64-bit `usize`; `none` is the overflow, a panic or what `checked_add` returns. -/
def usizeAdd (a b : Nat) : Option Nat := if a + b < 2 ^ 64 then some (a + b) else none

theorem usizeAdd_of_lt (h : a + b < 2 ^ 64) : usizeAdd a b = some (a + b) := if_pos h

/-- `a - b` on `usize`. -/
def usizeSub (a b : Nat) : Option Nat := if b ≤ a then some (a - b) else none

theorem usizeSub_of_le (h : b ≤ a) : usizeSub a b = some (a - b) := if_pos h

/-! ## Chains -/

variable {ε α β : Type u}

/-- Code that panics (`none`), fails, or returns. -/
abbrev MayPanic (ε : Type u) := ExceptT ε Option

def orPanic (o : Option α) : MayPanic ε α := ExceptT.lift o

def sure (r : Except ε α) : MayPanic ε α := ExceptT.mk (some r)

theorem run_sure (r : Except ε α) : (sure r).run = some r := rfl

theorem orPanic_bind {o : Option α} {a : α} (h : o = some a) (f : α → MayPanic ε β) :
    orPanic o >>= f = f a := by
  subst h
  rfl

theorem sure_bind {r : Except ε α} {f : α → MayPanic ε β} {g : α → Except ε β}
    (h : ∀ a, r = .ok a → f a = sure (g a)) : sure r >>= f = sure (r >>= g) := by
  cases r with
  | error e => rfl
  | ok a => exact h a rfl

theorem guard_sure {c : Prop} [Decidable c] {e : ε} {f : PUnit → MayPanic ε β}
    {g : PUnit → Except ε β} (h : ¬c → f ⟨⟩ = sure (g ⟨⟩)) :
    (if c then (throw e : MayPanic ε PUnit) >>= f else f ⟨⟩) =
      sure (if c then (throw e : Except ε PUnit) >>= g else g ⟨⟩) := by
  by_cases hc : c
  · rw [if_pos hc, if_pos hc]
    rfl
  · rw [if_neg hc, if_neg hc]
    exact h hc

end Dweb
