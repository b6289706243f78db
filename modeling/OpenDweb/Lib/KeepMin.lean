import OpenDweb.Lib.Keys

/-!
# OpenDweb — the best candidate per key

A loop that walks a list of candidates and keeps, for each key, the one of least rank
seen so far (`keepMin`). The two facts a caller needs about the finished table are

* **`getElem?_foldKeepMin_isSome`** — a key is present iff some candidate has it;
* **`foldKeepMin_spec`** — the entry at a key is a candidate for that key and no
  candidate for it has a smaller rank.
-/

namespace Dweb

open Std (ExtTreeMap)
open List

variable {κ ν β : Type*} [LinearOrder κ] [LinearOrder β]

/-- Offer `v` at `k`: it takes the place if the key is free or its rank is smaller. -/
def keepMin (rank : ν → β) (m : ExtTreeMap κ ν) (k : κ) (v : ν) : ExtTreeMap κ ν :=
  match m[k]? with
  | none => m.insert k v
  | some old => if rank v < rank old then m.insert k v else m

def foldKeepMin (rank : ν → β) (m : ExtTreeMap κ ν) (cs : List (κ × ν)) : ExtTreeMap κ ν :=
  cs.foldl (fun m c => keepMin rank m c.1 c.2) m

variable {rank : ν → β}

theorem getElem?_keepMin (m : ExtTreeMap κ ν) (k k' : κ) (v : ν) :
    (keepMin rank m k v)[k']? =
      if k = k' then
        match m[k]? with
        | none => some v
        | some old => if rank v < rank old then some v else some old
      else m[k']? := by
  unfold keepMin
  by_cases hk : k = k'
  · subst hk
    cases hm : m[k]? with
    | none => simp
    | some old =>
      by_cases hlt : rank v < rank old
      · simp [hlt]
      · simp [hlt, hm]
  · cases hm : m[k]? with
    | none => simp [ExtTreeMap.getElem?_insert, hk]
    | some old =>
      by_cases hlt : rank v < rank old
      · simp [hlt, ExtTreeMap.getElem?_insert, hk]
      · simp [hlt, hk]

def IsBest (rank : ν → β) (cs : List (κ × ν)) (k : κ) (v : ν) : Prop :=
  (k, v) ∈ cs ∧ ∀ w, (k, w) ∈ cs → rank v ≤ rank w

variable {cs : List (κ × ν)} {k : κ}

theorem keepMin_spec {m : ExtTreeMap κ ν} (hsome : ∀ k v, m[k]? = some v → IsBest rank cs k v)
    (hnone : ∀ k, m[k]? = none → ∀ v, (k, v) ∉ cs) (c : κ × ν) :
    (∀ k v, (keepMin rank m c.1 c.2)[k]? = some v → IsBest rank (cs ++ [c]) k v) ∧
      ∀ k, (keepMin rank m c.1 c.2)[k]? = none → ∀ v, (k, v) ∉ cs ++ [c] := by
  obtain ⟨k₀, v₀⟩ := c
  refine ⟨fun k v hv => ?_, fun k hk v hmem => ?_⟩
  · rw [getElem?_keepMin] at hv
    by_cases hkk : k₀ = k
    · subst hkk
      simp only [if_true] at hv
      cases hm : m[k₀]? with
      | none =>
        have hv' : v₀ = v := by simpa [hm] using hv
        subst hv'
        refine ⟨by simp, fun w hw => ?_⟩
        rcases mem_append.mp hw with hin | hlast
        · exact absurd hin (hnone k₀ hm w)
        · rw [show w = v₀ by simpa using hlast]
      | some old =>
        obtain ⟨hold, hmin⟩ := hsome k₀ old hm
        simp only [hm] at hv
        split at hv
        · -- the newcomer is strictly better than the old best
          rename_i hlt
          have hv' : v₀ = v := by simpa using hv
          subst hv'
          refine ⟨by simp, fun w hw => ?_⟩
          rcases mem_append.mp hw with hin | hlast
          · exact hlt.le.trans (hmin w hin)
          · rw [show w = v₀ by simpa using hlast]
        · -- the old best stays
          rename_i hlt
          have hv' : old = v := by simpa using hv
          subst hv'
          refine ⟨mem_append_left _ hold, fun w hw => ?_⟩
          rcases mem_append.mp hw with hin | hlast
          · exact hmin w hin
          · rw [show w = v₀ by simpa using hlast]
            exact le_of_not_gt hlt
    · rw [if_neg hkk] at hv
      obtain ⟨hin, hmin⟩ := hsome k v hv
      refine ⟨mem_append_left _ hin, fun w hw => ?_⟩
      rcases mem_append.mp hw with hin' | hlast
      · exact hmin w hin'
      · exact absurd (by simpa using hlast : k = k₀ ∧ w = v₀).1.symm hkk
  · rw [getElem?_keepMin] at hk
    by_cases hkk : k₀ = k
    · subst hkk
      cases hm : m[k₀]? with
      | none => simp [hm] at hk
      | some old =>
        simp only [if_true, hm] at hk
        split at hk <;> simp at hk
    · rw [if_neg hkk] at hk
      rcases mem_append.mp hmem with hin | hlast
      · exact hnone k hk v hin
      · exact hkk (by simpa using hlast : k = k₀ ∧ v = v₀).1.symm

theorem foldKeepMin_spec_aux (rank : ν → β) (cs₀ cs : List (κ × ν)) (m : ExtTreeMap κ ν)
    (hsome : ∀ k v, m[k]? = some v → IsBest rank cs₀ k v)
    (hnone : ∀ k, m[k]? = none → ∀ v, (k, v) ∉ cs₀) :
    (∀ k v, (foldKeepMin rank m cs)[k]? = some v → IsBest rank (cs₀ ++ cs) k v) ∧
      ∀ k, (foldKeepMin rank m cs)[k]? = none → ∀ v, (k, v) ∉ cs₀ ++ cs := by
  induction cs generalizing cs₀ m with
  | nil =>
    rw [append_nil]
    exact ⟨hsome, hnone⟩
  | cons c cs ih =>
    obtain ⟨hsome', hnone'⟩ := keepMin_spec hsome hnone c
    have h := ih (cs₀ ++ [c]) (keepMin rank m c.1 c.2) hsome' hnone'
    simpa [foldKeepMin] using h

/-- **The finished table holds a best candidate at each key.** -/
theorem foldKeepMin_spec {v : ν} (h : (foldKeepMin rank ∅ cs)[k]? = some v) :
    IsBest rank cs k v := by
  have := (foldKeepMin_spec_aux rank [] cs ∅ (by simp) (by simp)).1 k v h
  simpa using this

/-- **A key is present iff it has a candidate.** -/
theorem getElem?_foldKeepMin_isSome (rank : ν → β) :
    (∃ v, (foldKeepMin rank ∅ cs)[k]? = some v) ↔ ∃ v, (k, v) ∈ cs := by
  constructor
  · rintro ⟨v, hv⟩
    exact ⟨v, (foldKeepMin_spec hv).1⟩
  · rintro ⟨v, hv⟩
    by_contra hno
    have hnone : (foldKeepMin rank ∅ cs)[k]? = none := by
      cases hm : (foldKeepMin rank ∅ cs)[k]? with
      | none => rfl
      | some w => exact absurd ⟨w, hm⟩ hno
    have := (foldKeepMin_spec_aux rank [] cs ∅ (by simp) (by simp)).2 k hnone v
    simp [hv] at this

/-- An entry of the finished table is *the* best candidate, where ranks tell candidates of
one key apart. -/
theorem getElem?_foldKeepMin {v : ν}
    (hinj : ∀ v w, (k, v) ∈ cs → (k, w) ∈ cs → rank v = rank w → v = w) :
    (foldKeepMin rank ∅ cs)[k]? = some v ↔ IsBest rank cs k v := by
  refine ⟨fun h => foldKeepMin_spec h, fun hbest => ?_⟩
  obtain ⟨w, hw⟩ := (getElem?_foldKeepMin_isSome rank).mpr ⟨v, hbest.1⟩
  obtain ⟨hmem, hmin⟩ := foldKeepMin_spec hw
  have hrank : rank w = rank v := le_antisymm (hmin v hbest.1) (hbest.2 w hmem)
  rw [hw, hinj w v hmem hbest.1 hrank]

end Dweb
