import OpenDweb.Lib.Bfs

/-!
# OpenDweb — the order of a breadth-first search

A path is the list of the positions it takes among the successors. Shorter paths come first,
and among those of one length the one that is less where they part.

* **`follow`**, **`pathRank`** — where a path leads, and its place in this order.
* **`Pending`** — the invariant of the search: the queue is in this order, every path from an
  element of the queue comes after the queue, and every path goes through it.
* **`find_bfs`** — the first visited element with a property is the one of the first path to any.
-/

namespace Dweb

open List Option

variable {α : Type*} {next : α → List α} {a b c : α} {p q s : List ℕ}

def follow (next : α → List α) : α → List ℕ → Option α
  | a, [] => some a
  | a, i :: p => (next a)[i]?.bind fun b => follow next b p

theorem follow_append : follow next a (p ++ q) = (follow next a p).bind (follow next · q) := by
  induction p generalizing a with
  | nil => rfl
  | cons i p ih =>
    rw [cons_append, follow, follow, bind_assoc]
    exact congrArg _ (funext fun b => ih)

/-! ## The order of the paths -/

def pathRank (p : List ℕ) : ℕ ×ₗ List ℕ := toLex (p.length, p)

theorem pathRank_lt :
    pathRank p < pathRank q ↔ p.length < q.length ∨ p.length = q.length ∧ p < q := by
  rw [pathRank, pathRank, Prod.Lex.toLex_lt_toLex]

theorem pathRank_injective : Function.Injective pathRank := fun _ _ h =>
  congrArg (fun k => (ofLex k).2) h

theorem pathRank_wf : WellFounded fun p q : List ℕ => pathRank p < pathRank q := by
  have h := List.Shortlex.wf (r := fun i j : ℕ => i < j) Nat.lt_wfRel.wf
  refine h.mono fun p q hlt => ?_
  rw [pathRank_lt] at hlt
  exact shortlex_def.mpr hlt

theorem pathRank_le_append (p s : List ℕ) : pathRank p ≤ pathRank (p ++ s) := by
  cases s with
  | nil => rw [append_nil]
  | cons i s =>
    refine le_of_lt (pathRank_lt.mpr (.inl ?_))
    rw [length_append, length_cons]
    omega

theorem pathRank_lt_child (p : List ℕ) (i : ℕ) : pathRank p < pathRank (p ++ [i]) := by
  refine pathRank_lt.mpr (.inl ?_)
  rw [length_append, length_singleton]
  omega

theorem lt_append_of_lt {p q : List ℕ} (hlen : p.length = q.length) (h : p < q)
    (s t : List ℕ) : p ++ s < q ++ t := by
  induction p generalizing q with
  | nil =>
    cases q with
    | nil => exact absurd h (List.lt_irrefl _)
    | cons j q => cases hlen
  | cons i p ih =>
    cases q with
    | nil => cases hlen
    | cons j q =>
      rw [length_cons, length_cons, Nat.add_right_cancel_iff] at hlen
      rw [cons_append, cons_append, cons_lt_cons_iff]
      rcases cons_lt_cons_iff.mp h with hij | ⟨hij, hpq⟩
      · exact .inl hij
      · exact .inr ⟨hij, ih hlen hpq⟩

theorem pathRank_append_lt {t : List ℕ} (h : pathRank p < pathRank q)
    (hlen : s.length ≤ t.length) : pathRank (p ++ s) < pathRank (q ++ t) := by
  rw [pathRank_lt] at h ⊢
  rw [length_append, length_append]
  rcases h with h | ⟨heq, h⟩
  · left
    omega
  · rcases Nat.lt_or_eq_of_le hlen with hlt | hsame
    · left
      omega
    · exact .inr ⟨by omega, lt_append_of_lt heq h s t⟩

theorem pathRank_child_lt {i j : ℕ} (h : i < j) :
    pathRank (p ++ [i]) < pathRank (p ++ [j]) := by
  refine pathRank_lt.mpr (.inr ⟨by simp, ?_⟩)
  exact append_left_lt (cons_lt_cons_iff.mpr (.inl h))

/-! ## The search -/

def children (next : α → List α) (x : List ℕ × α) : List (List ℕ × α) :=
  (next x.2).zipIdx.map fun y => (x.1 ++ [y.2], y.1)

theorem map_snd_children (x : List ℕ × α) :
    (children next x).map Prod.snd = next x.2 := by
  rw [children, List.map_map]
  exact zipIdx_map_fst 0 (next x.2)

theorem mem_children {x y : List ℕ × α} :
    y ∈ children next x ↔ ∃ i, (next x.2)[i]? = some y.2 ∧ y.1 = x.1 ++ [i] := by
  simp only [children, List.mem_map, mem_zipIdx_iff_getElem?, Prod.exists]
  constructor
  · rintro ⟨d, i, hi, rfl⟩
    exact ⟨i, hi, rfl⟩
  · rintro ⟨i, hi, hy⟩
    exact ⟨y.2, i, hi, by rw [← hy]⟩

/-- The state of a search from `a` for `P`, with the paths on which its elements were found. -/
structure Pending (next : α → List α) (P : α → Prop) (a : α) (queue order : List (List ℕ × α)) :
    Prop where
  found : ∀ x ∈ order ++ queue, follow next a x.1 = some x.2
  sorted : queue.Pairwise fun x y => pathRank x.1 < pathRank y.1
  /-- What will be queued comes after what is queued. -/
  level : ∀ x ∈ queue, ∀ y ∈ queue, ∀ i, pathRank x.1 < pathRank (y.1 ++ [i])
  visited : ∀ x ∈ order, ∀ y ∈ queue, pathRank x.1 < pathRank y.1
  without : ∀ x ∈ order, ¬P x.2
  /-- To everything that is searched for a path goes through the queue. -/
  through : ∀ q c, follow next a q = some c → P c →
    ∃ x ∈ queue, ∃ s c', follow next x.2 s = some c' ∧ P c' ∧ pathRank (x.1 ++ s) ≤ pathRank q

variable {P : α → Prop} {x : List ℕ × α} {queue order : List (List ℕ × α)}

theorem pending_init (P : α → Prop) (a : α) : Pending next P a [([], a)] [] where
  found x hx := by
    obtain rfl := mem_singleton.mp hx
    rfl
  sorted := pairwise_singleton _ _
  level x hx y hy i := by
    obtain rfl := mem_singleton.mp hx
    obtain rfl := mem_singleton.mp hy
    exact pathRank_lt_child [] i
  visited := nofun
  without := nofun
  through q c hq hc := ⟨_, mem_singleton_self _, q, c, hq, hc, le_refl _⟩

/-- An element that was visited before is dropped: a path through it went through an earlier
one. -/
theorem Pending.skip (h : Pending next P a (x :: queue) order)
    (hseen : x.2 ∈ order.map Prod.snd) : Pending next P a queue order where
  found y hy := by
    rw [mem_append] at hy
    exact h.found y (by simpa using hy.imp_right .inr)
  sorted := (pairwise_cons.mp h.sorted).2
  level y hy z hz := h.level y (mem_cons_of_mem _ hy) z (mem_cons_of_mem _ hz)
  visited y hy z hz := h.visited y hy z (mem_cons_of_mem _ hz)
  without := h.without
  through := by
    intro q
    induction q using pathRank_wf.induction with
    | _ q ih =>
      intro c hq hc
      obtain ⟨y, hy, s, c', hs, hc', hle⟩ := h.through q c hq hc
      rcases mem_cons.mp hy with rfl | hy
      · obtain ⟨z, hz, hzy⟩ := List.mem_map.mp hseen
        have hlt : pathRank (z.1 ++ s) < pathRank q :=
          lt_of_lt_of_le (pathRank_append_lt (h.visited z hz y mem_cons_self) (Nat.le_refl _))
            hle
        have hfollow : follow next a (z.1 ++ s) = some c' := by
          rw [follow_append, h.found z (mem_append_left _ hz), hzy]
          exact hs
        obtain ⟨w, hw, t, d, ht, hd, hwle⟩ := ih _ hlt c' hfollow hc'
        exact ⟨w, hw, t, d, ht, hd, le_trans hwle (le_of_lt hlt)⟩
      · exact ⟨y, hy, s, c', hs, hc', hle⟩

theorem Pending.visit (h : Pending next P a (x :: queue) order) (hx : ¬P x.2) :
    Pending next P a (queue ++ children next x) (order ++ [x]) where
  found y hy := by
    rw [append_assoc, mem_append, mem_append, mem_singleton,
      mem_append] at hy
    rcases hy with hy | rfl | hy | hy
    · exact h.found y (mem_append_left _ hy)
    · exact h.found y (by simp)
    · exact h.found y (by simp [hy])
    · obtain ⟨i, hi, hyp⟩ := mem_children.mp hy
      rw [hyp, follow_append, h.found x (by simp), bind_some, follow, hi]
      rfl
  sorted := by
    rw [pairwise_append]
    refine ⟨(pairwise_cons.mp h.sorted).2, ?_, fun y hy z hz => ?_⟩
    · rw [children, pairwise_map]
      have hidx : ((next x.2).zipIdx.map Prod.snd).Pairwise (· < ·) := by
        rw [zipIdx_map_snd]
        exact pairwise_lt_range'
      exact (pairwise_map.mp hidx).imp fun hlt => pathRank_child_lt hlt
    · obtain ⟨i, -, hzp⟩ := mem_children.mp hz
      rw [hzp]
      exact h.level y (mem_cons_of_mem _ hy) x mem_cons_self i
  level y hy z hz i := by
    rw [mem_append] at hy hz
    have hfirst := (pairwise_cons.mp h.sorted).1
    rcases hy with hy | hy
    · rcases hz with hz | hz
      · exact h.level y (mem_cons_of_mem _ hy) z (mem_cons_of_mem _ hz) i
      · obtain ⟨j, -, hzp⟩ := mem_children.mp hz
        rw [hzp]
        exact lt_trans (h.level y (mem_cons_of_mem _ hy) x mem_cons_self j)
          (pathRank_lt_child _ i)
    · obtain ⟨j, -, hyp⟩ := mem_children.mp hy
      rw [hyp]
      rcases hz with hz | hz
      · exact pathRank_append_lt (hfirst z hz) (Nat.le_refl _)
      · obtain ⟨k, -, hzp⟩ := mem_children.mp hz
        rw [hzp]
        refine pathRank_lt.mpr (.inl ?_)
        simp
  visited y hy z hz := by
    rw [mem_append, mem_singleton] at hy
    rw [mem_append] at hz
    have hyx : pathRank y.1 ≤ pathRank x.1 := by
      rcases hy with hy | rfl
      · exact le_of_lt (h.visited y hy x mem_cons_self)
      · exact le_refl _
    rcases hz with hz | hz
    · exact lt_of_le_of_lt hyx ((pairwise_cons.mp h.sorted).1 z hz)
    · obtain ⟨i, -, hzp⟩ := mem_children.mp hz
      rw [hzp]
      exact lt_of_le_of_lt hyx (pathRank_lt_child _ i)
  without y hy := by
    rw [mem_append, mem_singleton] at hy
    rcases hy with hy | rfl
    · exact h.without y hy
    · exact hx
  through q c hq hc := by
    obtain ⟨y, hy, s, c', hs, hc', hle⟩ := h.through q c hq hc
    rcases mem_cons.mp hy with rfl | hy
    · cases s with
      | nil =>
        cases hs
        exact absurd hc' hx
      | cons i s =>
        obtain ⟨d, hd, hrest⟩ := bind_eq_some_iff.mp hs
        refine ⟨(y.1 ++ [i], d), mem_append_right _ (mem_children.mpr ⟨i, hd, rfl⟩), s, c',
          hrest, hc', ?_⟩
        rwa [append_assoc, singleton_append]
    · exact ⟨y, mem_append_left _ hy, s, c', hs, hc', hle⟩

variable [DecidableEq α]

variable {fuel : Nat} {out : List α}

theorem prefix_of_bfs {queue order : List α} (h : bfs next fuel queue order = some out) :
    order <+: out := by
  induction fuel generalizing queue order with
  | zero =>
    cases queue with
    | nil =>
      cases h
      exact prefix_refl _
    | cons a queue => cases h
  | succ fuel ih =>
    cases queue with
    | nil =>
      cases h
      exact prefix_refl _
    | cons a queue =>
      simp only [bfs] at h
      split at h
      · exact ih h
      · exact (prefix_append _ _).trans (ih h)

theorem find_bfs_pending [DecidablePred P]
    (h : bfs next fuel (queue.map Prod.snd) (order.map Prod.snd) = some out)
    (hinv : Pending next P a queue order) (hc : out.find? (fun c => P c) = some c) :
    ∃ p, follow next a p = some c ∧
      ∀ q c', follow next a q = some c' → P c' → pathRank p ≤ pathRank q := by
  have hnone : (order.map Prod.snd).find? (fun c => P c) = none := by
    rw [find?_eq_none]
    intro d hd
    obtain ⟨x, hx, rfl⟩ := List.mem_map.mp hd
    simpa using hinv.without x hx
  induction fuel generalizing queue order with
  | zero =>
    cases queue with
    | nil =>
      cases h
      rw [hnone] at hc
      cases hc
    | cons x queue => cases h
  | succ fuel ih =>
    cases queue with
    | nil =>
      cases h
      rw [hnone] at hc
      cases hc
    | cons x queue =>
      rw [map_cons, bfs] at h
      split at h
      · next hseen => exact ih h (hinv.skip hseen) hnone
      · by_cases hx : P x.2
        · -- found: everything else is reached through the queue, on later paths
          obtain ⟨rest, rfl⟩ := prefix_of_bfs h
          rw [append_assoc, find?_append, hnone, none_or,
            singleton_append, find?_cons_of_pos (by simpa using hx)] at hc
          cases hc
          refine ⟨x.1, hinv.found x (by simp), fun q c' hq hc' => ?_⟩
          obtain ⟨y, hy, s, -, -, -, hle⟩ := hinv.through q c' hq hc'
          refine le_trans ?_ (le_trans (pathRank_le_append y.1 s) hle)
          rcases mem_cons.mp hy with rfl | hy
          · exact le_refl _
          · exact le_of_lt ((pairwise_cons.mp hinv.sorted).1 y hy)
        · have hrest : bfs next fuel ((queue ++ children next x).map Prod.snd)
              ((order ++ [x]).map Prod.snd) = some out := by
            rw [map_append, map_append, map_snd_children]
            exact h
          refine ih hrest (hinv.visit hx) ?_
          rw [map_append, find?_append, hnone, none_or, map_singleton,
            find?_cons_of_neg (by simpa using hx), find?_nil]

/-- **The first found is on the first path** to anything that has the property. -/
theorem find_bfs [DecidablePred P] (h : bfs next fuel [a] [] = some out)
    (hc : out.find? (fun c => P c) = some c) :
    ∃ p, follow next a p = some c ∧
      ∀ q c', follow next a q = some c' → P c' → pathRank p ≤ pathRank q := by
  let start : List (List ℕ × α) := [([], a)]
  let none : List (List ℕ × α) := []
  have hbfs : bfs next fuel (start.map Prod.snd) (none.map Prod.snd) = some out := h
  exact find_bfs_pending hbfs (pending_init P a) hc

end Dweb
