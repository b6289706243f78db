import OpenDweb.Ext.TreeMerge
import OpenDweb.Lib.Bfs

/-!
# OpenDweb — commits and their merge bases

The commits of `opendweb-ext-sync/src/objects.mjs`. A commit is named by the hash of what it says,
so here it is what it says: its parents, its files, and the rest of it as a number.

* **`Commit.ancestors`** — the breadth-first search of `mergeBase`; it ends, and finds the commits
  from which a commit descends.
* **`mergeBase`** — the first ancestor of one that is an ancestor of the other.
-/

namespace Dweb

open List

/-- A commit. Its `stamp` stands for its author, its time and its message. -/
inductive Commit (Oid : Type) where
  | mk (parents : List (Commit Oid)) (files : List (TreePath × BlobEntry Oid)) (stamp : Nat)

namespace Commit

variable {Oid : Type}

mutual

def decEq [DecidableEq Oid] : (a b : Commit Oid) → Decidable (a = b)
  | mk ps files stamp, mk qs files' stamp' =>
    match decEqList ps qs with
    | isTrue hps =>
      if h : files = files' ∧ stamp = stamp' then isTrue (by rw [hps, h.1, h.2])
      else isFalse fun heq => h (by cases heq; exact ⟨rfl, rfl⟩)
    | isFalse hps => isFalse fun heq => hps (by cases heq; rfl)

def decEqList [DecidableEq Oid] : (ps qs : List (Commit Oid)) → Decidable (ps = qs)
  | [], [] => isTrue rfl
  | [], _ :: _ => isFalse nofun
  | _ :: _, [] => isFalse nofun
  | p :: ps, q :: qs =>
    match decEq p q, decEqList ps qs with
    | isTrue h, isTrue hs => isTrue (by rw [h, hs])
    | isFalse h, _ => isFalse fun heq => h (by cases heq; rfl)
    | _, isFalse hs => isFalse fun heq => hs (by cases heq; rfl)

end

instance [DecidableEq Oid] : DecidableEq (Commit Oid) := decEq

def parents : Commit Oid → List (Commit Oid)
  | mk parents _ _ => parents

def files : Commit Oid → List (TreePath × BlobEntry Oid)
  | mk _ files _ => files

/-- `readFlatTree` of the tree of the commit. -/
def tree (c : Commit Oid) : FlatTree Oid := writeTreeFromFlat c.files

/-- `c` descends from `a`, or is `a`. -/
def Ancestor (a c : Commit Oid) : Prop := Reaches parents c a

@[refl]
theorem Ancestor.refl (c : Commit Oid) : Ancestor c c := Reaches.refl c

variable {a c : Commit Oid}

theorem Ancestor.trans {b : Commit Oid} (hab : Ancestor a b) (hbc : Ancestor b c) : Ancestor a c :=
  Reaches.trans hbc hab

theorem Ancestor.of_parent (h : a ∈ c.parents) : Ancestor a c :=
  Reaches.of_mem h

mutual

def closure : Commit Oid → List (Commit Oid)
  | mk ps files stamp => mk ps files stamp :: closureList ps

def closureList : List (Commit Oid) → List (Commit Oid)
  | [] => []
  | p :: ps => p.closure ++ closureList ps

end

theorem mem_closure_self (c : Commit Oid) : c ∈ c.closure := by
  cases c
  simp [closure]

theorem mem_closureList {p : Commit Oid} {ps : List (Commit Oid)} (h : p ∈ ps) :
    p ∈ closureList ps := by
  induction ps with
  | nil => cases h
  | cons q ps ih =>
    rw [closureList]
    rcases mem_cons.mp h with rfl | h
    · exact mem_append_left _ (mem_closure_self p)
    · exact mem_append_right _ (ih h)

mutual

theorem parents_mem_closure : (c : Commit Oid) → ∀ a ∈ c.closure, ∀ b ∈ a.parents, b ∈ c.closure
  | mk ps files stamp => by
    intro a ha b hb
    rw [closure] at ha ⊢
    rcases mem_cons.mp ha with rfl | ha
    · exact mem_cons_of_mem _ (mem_closureList hb)
    · exact mem_cons_of_mem _ (parents_mem_closureList ps a ha b hb)

theorem parents_mem_closureList : (ps : List (Commit Oid)) →
    ∀ a ∈ closureList ps, ∀ b ∈ a.parents, b ∈ closureList ps
  | [] => by simp [closureList]
  | p :: ps => by
    intro a ha b hb
    rw [closureList] at ha ⊢
    rcases mem_append.mp ha with ha | ha
    · exact mem_append_left _ (parents_mem_closure p a ha b hb)
    · exact mem_append_right _ (parents_mem_closureList ps a ha b hb)

end

variable [DecidableEq Oid]

def ancestors (c : Commit Oid) : List (Commit Oid) :=
  (bfs parents (1 + bfsLeft parents [] c.closure) [c] []).getD []

theorem bfs_ancestors (c : Commit Oid) :
    bfs parents (1 + bfsLeft parents [] c.closure) [c] [] = some c.ancestors := by
  have hsome : (bfs parents (1 + bfsLeft parents [] c.closure) [c] []).isSome :=
    bfs_isSome (l := c.closure) (by simp [mem_closure_self]) (parents_mem_closure c)
      (by simp)
  obtain ⟨out, hout⟩ := Option.isSome_iff_exists.mp hsome
  rw [ancestors, hout]
  rfl

theorem mem_ancestors_iff : a ∈ c.ancestors ↔ Ancestor a c :=
  mem_bfs_iff (bfs_ancestors c)

end Commit

variable {Oid : Type} [DecidableEq Oid]

def mergeBase (a b : Commit Oid) : Option (Commit Oid) :=
  a.ancestors.find? (· ∈ b.ancestors)

theorem mergeBase_ancestor {a b base : Commit Oid} (h : mergeBase a b = some base) :
    base.Ancestor a ∧ base.Ancestor b := by
  have ha : base ∈ a.ancestors := mem_of_find?_eq_some h
  have hb : base ∈ b.ancestors := by simpa using find?_some h
  exact ⟨Commit.mem_ancestors_iff.mp ha, Commit.mem_ancestors_iff.mp hb⟩

theorem mergeBase_eq_none_iff {a b : Commit Oid} :
    mergeBase a b = none ↔ ∀ c : Commit Oid, ¬(c.Ancestor a ∧ c.Ancestor b) := by
  simp only [mergeBase, find?_eq_none, decide_eq_true_eq, Commit.mem_ancestors_iff, not_and]

end Dweb
