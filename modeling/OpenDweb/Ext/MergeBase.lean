import OpenDweb.Ext.CommitGraph
import OpenDweb.Lib.BfsOrder

/-!
# OpenDweb — the merge base and the lowest common ancestors

The search of `mergeBase` takes the first common ancestor it visits. It visits by the length of
the way from the first commit, which is not the order of descent: an older common ancestor can
be fewer steps away than a younger one.

* **`LowestCommon`** — a common ancestor from which no other one descends.
* **`NearestIsLowest`** — the first way to a lowest common ancestor comes before every way to
  another common ancestor.
* **`mergeBase_lowest_iff`** — the base is a lowest common ancestor exactly there.
-/

namespace Dweb

open Commit

variable {Oid : Type}

def CommonAncestor (a b c : Commit Oid) : Prop := c.Ancestor a ∧ c.Ancestor b

def LowestCommon (a b c : Commit Oid) : Prop :=
  CommonAncestor a b c ∧ ∀ d, CommonAncestor a b d → c.Ancestor d → c = d

/-- Among the ways from `a`, shorter ones first and parents in their order, one to a lowest common
ancestor is before all that lead to a common ancestor that is not lowest. -/
def NearestIsLowest (a b : Commit Oid) : Prop :=
  ∃ p l, follow parents a p = some l ∧ LowestCommon a b l ∧
    ∀ q c, follow parents a q = some c → CommonAncestor a b c → ¬LowestCommon a b c →
      pathRank p < pathRank q

variable [DecidableEq Oid] {a b base : Commit Oid}

theorem mergeBase_first (h : mergeBase a b = some base) :
    ∃ p, follow parents a p = some base ∧
      ∀ q c, follow parents a q = some c → CommonAncestor a b c → pathRank p ≤ pathRank q := by
  obtain ⟨p, hp, hfirst⟩ := find_bfs (P := fun c => c ∈ b.ancestors) (bfs_ancestors a) h
  refine ⟨p, hp, fun q c hq hc => hfirst q c hq ?_⟩
  exact mem_ancestors_iff.mpr hc.2

theorem lowest_mergeBase_iff (h : mergeBase a b = some base) :
    LowestCommon a b base ↔ NearestIsLowest a b := by
  obtain ⟨p, hp, hfirst⟩ := mergeBase_first h
  constructor
  · intro hlow
    refine ⟨p, base, hp, hlow, fun q c hq hc hnot => ?_⟩
    refine lt_of_le_of_ne (hfirst q c hq hc) fun heq => hnot ?_
    -- the same way leads to one commit
    obtain rfl := pathRank_injective heq
    rw [hp] at hq
    cases hq
    exact hlow
  · rintro ⟨q, l, hq, hl, hbefore⟩
    by_contra hnot
    have hlt := hbefore p base hp (mergeBase_ancestor h) hnot
    exact absurd (hfirst q l hq hl.1) (not_le_of_gt hlt)

/-- A merge base is null exactly without a common ancestor, a lowest common ancestor otherwise,
and one of the two commits where that is an ancestor of the other: if and only if there is no
common ancestor, or one of the lowest is nearest. -/
theorem mergeBase_lowest_iff (a b : Commit Oid) :
    ((mergeBase a b = none ↔ ∀ c, ¬CommonAncestor a b c) ∧
      (∀ base, mergeBase a b = some base → LowestCommon a b base) ∧
      (a.Ancestor b → mergeBase a b = some a) ∧ (b.Ancestor a → mergeBase a b = some b)) ↔
    ((∀ c, ¬CommonAncestor a b c) ∨ NearestIsLowest a b) := by
  constructor
  · rintro ⟨hnone, hlow, -, -⟩
    cases hbase : mergeBase a b with
    | none => exact .inl (hnone.mp hbase)
    | some base => exact .inr ((lowest_mergeBase_iff hbase).mp (hlow base hbase))
  · intro hcond
    have hlow : ∀ base, mergeBase a b = some base → LowestCommon a b base := by
      intro base hbase
      rcases hcond with hno | hnear
      · exact absurd (mergeBase_ancestor hbase) (hno base)
      · exact (lowest_mergeBase_iff hbase).mpr hnear
    -- a lowest common ancestor of which a common one descends is that one
    have hself : ∀ c, CommonAncestor a b c →
        (∀ base, CommonAncestor a b base → base.Ancestor c) → mergeBase a b = some c := by
      intro c hc hall
      cases hbase : mergeBase a b with
      | none => exact absurd hc (mergeBase_eq_none_iff.mp hbase c)
      | some base =>
        have hbaseLow := hlow base hbase
        rw [hbaseLow.2 c hc (hall base hbaseLow.1)]
    exact ⟨mergeBase_eq_none_iff, hlow,
      fun hab => hself a ⟨.refl a, hab⟩ fun base hbase => hbase.1,
      fun hba => hself b ⟨hba, .refl b⟩ fun base hbase => hbase.2⟩

namespace LongBranch

def root : Commit ℕ := .mk [] [] 0
def side : Commit ℕ := .mk [root] [] 1
def shared : Commit ℕ := .mk [root] [] 2
def middle : Commit ℕ := .mk [shared] [] 3
def tip : Commit ℕ := .mk [middle] [] 4
def ours : Commit ℕ := .mk [side, tip] [] 5
def theirs : Commit ℕ := .mk [shared] [] 6

theorem older_base : mergeBase ours theirs = some root ∧ ¬LowestCommon ours theirs root := by
  refine ⟨by decide +kernel, fun hlow => ?_⟩
  have hshared : CommonAncestor ours theirs shared :=
    ⟨mem_ancestors_iff.mp (by decide +kernel), mem_ancestors_iff.mp (by decide +kernel)⟩
  have heq := hlow.2 shared hshared (.of_parent (by decide))
  revert heq
  decide

end LongBranch

end Dweb
