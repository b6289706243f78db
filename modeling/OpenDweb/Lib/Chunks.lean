import OpenDweb.Lib.MapSum

/-!
# OpenDweb — a string that grows by chunks

A writer appends chunks to a string; copies of chunks travel on their own, each known by the
offset at which it begins. `IsChunk cs off p` says that `p` is one of the chunks `cs`, at
offset `off` of their concatenation, and `Boundary cs off` that no chunk extends across
`off`. Both stay true as the string grows.

* **`IsChunk.end_le_of_lt`** — chunks do not overlap, nor extend across a boundary.
* **`IsChunk.take_drop`** — a chunk is what the string holds at its place.
* **`exists_isChunk`** — every position lies in a chunk.
* **`mapSum_length_le`**, **`le_mapSum_length`** — a table of pieces of a range holds at most
  as much as the range if they do not overlap, and at least as much if they cover it.
-/

namespace Dweb

open Std (ExtTreeMap)
open List Finset

section Chunks

variable {α : Type*} {cs ds : List (List α)} {p q : List α} {off e : Nat}

/-- `p` is one of the chunks, beginning at `off`. -/
def IsChunk (cs : List (List α)) (off : Nat) (p : List α) : Prop :=
  ∃ pre post, cs = pre ++ p :: post ∧ pre.flatten.length = off

/-- `off` lies between two chunks, or at an end of the string. -/
def Boundary (cs : List (List α)) (off : Nat) : Prop :=
  ∃ pre post, cs = pre ++ post ∧ pre.flatten.length = off

/-! ## Growing -/

theorem IsChunk.append (h : IsChunk cs off p) (ds : List (List α)) : IsChunk (cs ++ ds) off p := by
  obtain ⟨pre, post, rfl, rfl⟩ := h
  exact ⟨pre, post ++ ds, by simp, rfl⟩

theorem Boundary.append (h : Boundary cs off) (ds : List (List α)) : Boundary (cs ++ ds) off := by
  obtain ⟨pre, post, rfl, rfl⟩ := h
  exact ⟨pre, post ++ ds, by simp, rfl⟩

theorem isChunk_last (cs : List (List α)) (p : List α) :
    IsChunk (cs ++ [p]) cs.flatten.length p :=
  ⟨cs, [], rfl, rfl⟩

theorem IsChunk.cons (h : IsChunk cs off p) (c : List α) :
    IsChunk (c :: cs) (c.length + off) p := by
  obtain ⟨pre, post, rfl, rfl⟩ := h
  exact ⟨c :: pre, post, rfl, by simp⟩

theorem IsChunk.of_append_singleton (h : IsChunk (cs ++ [q]) off p) :
    IsChunk cs off p ∨ (off = cs.flatten.length ∧ p = q) := by
  obtain ⟨pre, post, heq, rfl⟩ := h
  rcases eq_nil_or_concat post with rfl | ⟨post, last, rfl⟩
  · obtain ⟨rfl, hlast⟩ := append_inj' heq rfl
    exact Or.inr ⟨rfl, (List.cons.inj hlast).1.symm⟩
  · have heq : cs ++ [q] = (pre ++ p :: post) ++ [last] := by simpa using heq
    obtain ⟨rfl, -⟩ := append_inj' heq rfl
    exact Or.inl ⟨pre, post, rfl, rfl⟩

/-! ## Places -/

theorem boundary_zero (cs : List (List α)) : Boundary cs 0 := ⟨[], cs, rfl, rfl⟩

theorem Boundary.le (h : Boundary cs e) : e ≤ cs.flatten.length := by
  obtain ⟨pre, post, rfl, rfl⟩ := h
  simp

theorem IsChunk.boundary (h : IsChunk cs off p) : Boundary cs off := by
  obtain ⟨pre, post, rfl, rfl⟩ := h
  exact ⟨pre, p :: post, rfl, rfl⟩

theorem IsChunk.boundary_end (h : IsChunk cs off p) : Boundary cs (off + p.length) := by
  obtain ⟨pre, post, rfl, rfl⟩ := h
  exact ⟨pre ++ [p], post, by simp, by simp⟩

theorem IsChunk.end_le (h : IsChunk cs off p) : off + p.length ≤ cs.flatten.length :=
  h.boundary_end.le

theorem IsChunk.end_le_of_lt (h : IsChunk cs off p) (he : Boundary cs e) (hlt : off < e) :
    off + p.length ≤ e := by
  obtain ⟨pre, post, rfl, rfl⟩ := h
  obtain ⟨pre', post', heq, rfl⟩ := he
  rcases append_eq_append_iff.mp heq with ⟨mid, rfl, hmid⟩ | ⟨mid, rfl, -⟩
  · cases mid with
    | nil => simp at hlt
    | cons c mid =>
      obtain ⟨rfl, -⟩ := List.cons.inj hmid
      simp only [flatten_append, flatten_cons, length_append]
      omega
  · simp only [flatten_append, length_append] at hlt
    omega

theorem IsChunk.take_drop (h : IsChunk cs off p) : (cs.flatten.drop off).take p.length = p := by
  obtain ⟨pre, post, rfl, rfl⟩ := h
  simp

theorem exists_isChunk {x : Nat} (hx : x < cs.flatten.length) :
    ∃ off p, IsChunk cs off p ∧ off ≤ x ∧ x < off + p.length := by
  induction cs generalizing x with
  | nil => simp at hx
  | cons c cs ih =>
    by_cases hc : x < c.length
    · exact ⟨0, c, ⟨[], cs, rfl, rfl⟩, Nat.zero_le x, by omega⟩
    · simp only [flatten_cons, length_append] at hx
      obtain ⟨off, p, h, hle, hlt⟩ := ih (x := x - c.length) (by omega)
      exact ⟨c.length + off, p, h.cons c, by omega, by omega⟩

end Chunks

/-! ## Tables of pieces -/

section Pieces

variable {α : Type*} {m : ExtTreeMap Nat (List α)} {a b : Nat}

/-- The range the piece at `off` takes, empty if there is none. -/
def pieceRange (m : ExtTreeMap Nat (List α)) (off : Nat) : Finset Nat :=
  Finset.Ico off (off + contribution m List.length off)

theorem mapSum_eq_sum_card (m : ExtTreeMap Nat (List α)) :
    mapSum m List.length = ∑ off ∈ keySet m, (pieceRange m off).card := by
  rw [mapSum_eq_sum (S := keySet m) fun k v hk => mem_keySet.mpr ⟨v, hk⟩]
  refine sum_congr rfl fun off _ => ?_
  rw [pieceRange, Nat.card_Ico, Nat.add_sub_cancel_left]

theorem mapSum_length_le
    (hin : ∀ (off : Nat) (p : List α), m[off]? = some p → a ≤ off ∧ off + p.length ≤ b)
    (hdisj : ∀ (off : Nat) (p : List α) (off' : Nat) (p' : List α), m[off]? = some p →
      m[off']? = some p' → off < off' → off + p.length ≤ off') :
    mapSum m List.length ≤ b - a := by
  have hpair : ((keySet m : Finset Nat) : Set Nat).PairwiseDisjoint (pieceRange m) := by
    intro off hoff off' hoff' hne
    obtain ⟨p, hp⟩ := mem_keySet.mp hoff
    obtain ⟨p', hp'⟩ := mem_keySet.mp hoff'
    refine Finset.disjoint_left.mpr fun x hx hx' => ?_
    rw [pieceRange, contribution_of_some hp, mem_Ico] at hx
    rw [pieceRange, contribution_of_some hp', mem_Ico] at hx'
    rcases Nat.lt_or_gt_of_ne hne with hlt | hlt
    · have := hdisj _ _ _ _ hp hp' hlt
      omega
    · have := hdisj _ _ _ _ hp' hp hlt
      omega
  have hsub : (keySet m).biUnion (pieceRange m) ⊆ Finset.Ico a b := by
    intro x hx
    obtain ⟨off, hoff, hx⟩ := mem_biUnion.mp hx
    obtain ⟨p, hp⟩ := mem_keySet.mp hoff
    have hrange := hin off p hp
    rw [pieceRange, contribution_of_some hp, mem_Ico] at hx
    rw [mem_Ico]
    omega
  calc mapSum m List.length
      = ((keySet m).biUnion (pieceRange m)).card := by
        rw [mapSum_eq_sum_card, card_biUnion hpair]
    _ ≤ (Finset.Ico a b).card := card_le_card hsub
    _ = b - a := Nat.card_Ico a b

theorem le_mapSum_length
    (hcover : ∀ x, a ≤ x → x < b → ∃ (off : Nat) (p : List α),
      m[off]? = some p ∧ off ≤ x ∧ x < off + p.length) :
    b - a ≤ mapSum m List.length := by
  have hsub : Finset.Ico a b ⊆ (keySet m).biUnion (pieceRange m) := by
    intro x hx
    obtain ⟨hax, hxb⟩ := mem_Ico.mp hx
    obtain ⟨off, p, hp, hle, hlt⟩ := hcover x hax hxb
    refine mem_biUnion.mpr ⟨off, mem_keySet.mpr ⟨p, hp⟩, ?_⟩
    rw [pieceRange, contribution_of_some hp, mem_Ico]
    exact ⟨hle, hlt⟩
  calc b - a = (Finset.Ico a b).card := (Nat.card_Ico a b).symm
    _ ≤ ((keySet m).biUnion (pieceRange m)).card := card_le_card hsub
    _ ≤ ∑ off ∈ keySet m, (pieceRange m off).card := card_biUnion_le
    _ = mapSum m List.length := (mapSum_eq_sum_card m).symm

end Pieces

end Dweb
