import OpenDweb.Ext.ObjectStore
import OpenDweb.Lib.Hex

/-!
# OpenDweb — git objects as bytes

How `walkClosure` of `opendweb-ext-sync/src/objects.mjs` reads commits and trees, and how the
format says that they are read.

* **`walkRefs`** — the names that the walk finds: lines of a commit, wherever they stand, and the
  entries of a tree, up to the first that is cut short.
* **`demands`** — what a well-formed object names, and as what; there is nothing for one that is
  not well formed.
* **`mem_walkRefs_of_demands`** — the walk misses nothing of what is demanded.
* **`Complete`**, **`complete_of_walk`** — a closure that is there and of the right kinds; the walk
  alone says that it is there.
-/

namespace Dweb

open List Option Bool

/-! ## Lines -/

/-- The lines of a text, at the characters `p`. -/
def linesAt (p : Char → Bool) : List Char → List (List Char)
  | [] => [[]]
  | c :: cs =>
    if p c then [] :: linesAt p cs
    else
      match linesAt p cs with
      | [] => [[c]]
      | line :: lines => (c :: line) :: lines

/-- A line without any of the terminators `q` is a line at `q` too: the first at the head, the
others behind it. -/
theorem linesAt_sub {p q : Char → Bool} (hpq : ∀ c, p c = true → q c = true) (cs : List Char) :
    ∃ h t h' t', linesAt p cs = h :: t ∧ linesAt q cs = h' :: t' ∧
      (h.all (!q ·) = true → h = h') ∧ ∀ line ∈ t, line.all (!q ·) = true → line ∈ t' := by
  induction cs with
  | nil => exact ⟨[], [], [], [], rfl, rfl, fun _ => rfl, by simp⟩
  | cons c cs ih =>
    obtain ⟨h, t, h', t', hp, hq, hhead, htail⟩ := ih
    by_cases hpc : p c = true
    · refine ⟨[], h :: t, [], h' :: t', by simp [linesAt, hpc, hp],
        by simp [linesAt, hpq c hpc, hq], fun _ => rfl, fun line hline hclean => ?_⟩
      rcases mem_cons.mp hline with rfl | hline
      · rw [hhead hclean]
        exact mem_cons_self
      · exact mem_cons_of_mem _ (htail line hline hclean)
    · by_cases hqc : q c = true
      · refine ⟨c :: h, t, [], h' :: t', by simp [linesAt, hpc, hp], by simp [linesAt, hqc, hq],
          fun hclean => ?_,
          fun line hline hclean => mem_cons_of_mem _ (htail line hline hclean)⟩
        simp [hqc] at hclean
      · refine ⟨c :: h, t, c :: h', t', by simp [linesAt, hpc, hp], by simp [linesAt, hqc, hq],
          fun hclean => ?_, htail⟩
        simp only [all_cons, and_eq_true] at hclean
        rw [hhead hclean.2]

/-! ## Names -/

def isOid (cs : List Char) : Bool :=
  cs.length = 40 && cs.all fun c => ('0' ≤ c && c ≤ '9') || ('a' ≤ c && c ≤ 'f')

/-- The name on a line `tag <oid>`. -/
def oidLine (tag : String) (line : List Char) : Option String :=
  let start := (tag ++ " ").toList
  if start.isPrefixOf line && isOid (line.drop start.length) then
    some (String.ofList (line.drop start.length))
  else none

def isTerminator (c : Char) : Bool :=
  c = '\n' || c = '\r' || c = '\u2028' || c = '\u2029'

theorem oidLine_clean {tag oid : String} {line : List Char} (h : oidLine tag line = some oid)
    (htag : tag.toList.all (!isTerminator ·) = true) :
    line.all (!isTerminator ·) = true := by
  simp only [oidLine, and_eq_true, isPrefixOf_iff_prefix] at h
  split at h
  · next hline =>
    obtain ⟨⟨rest, hrest⟩, hoid⟩ := hline
    subst hrest
    rw [drop_left] at hoid
    have hrest : rest.all (!isTerminator ·) = true := by
      simp only [isOid, and_eq_true, List.all_eq_true] at hoid ⊢
      intro c hc
      have := hoid.2 c hc
      simp only [isTerminator]
      by_contra hterm
      simp only [not_eq_true', not_eq_false, or_eq_true, decide_eq_true_eq] at hterm
      rcases hterm with ((rfl | rfl) | rfl) | rfl <;> revert this <;> decide
    rw [all_append, hrest, Bool.and_true, String.toList_append, all_append, htag]
    rfl
  · cases h

/-! ## Objects -/

structure GitObject where
  kind : ObjectKind
  bytes : Bytes
deriving DecidableEq

def spanNul (bs : Bytes) : Bytes × Option Bytes :=
  (bs.takeWhile (· ≠ 0), (bs.dropWhile (· ≠ 0)).tail?)

/-- The entries of a tree, as the walk reads them: 20 bytes behind every NUL, or what there is. -/
def walkTree : Nat → Bytes → List String
  | 0, _ => []
  | fuel + 1, bs =>
    match (spanNul bs).2 with
    | none => []
    | some rest => hexStr (rest.take 20) :: walkTree fuel (rest.drop 20)

def walkCommit (bs : Bytes) : List String :=
  let lines := linesAt isTerminator (fromUtf8Lossy bs)
  (lines.findSome? (oidLine "tree")).toList ++ lines.filterMap (oidLine "parent")

/-- What `walkClosure` goes on to. -/
def walkRefs (o : GitObject) : List String :=
  match o.kind with
  | .commit => walkCommit o.bytes
  | .tree => walkTree o.bytes.length o.bytes
  | .blob => []

/-! ## What the format says -/

def modeKind (mode : Bytes) : Option ObjectKind :=
  match String.ofList (fromUtf8Lossy mode) with
  | "40000" | "040000" => some .tree
  | "100644" | "100664" | "100755" | "120000" => some .blob
  | "160000" => some .commit
  | _ => none

/-- Entries `<mode> <name>` NUL and 20 bytes, to the end. -/
def treeEntries : Nat → Bytes → Option (List (String × ObjectKind))
  | _, [] => some []
  | 0, _ :: _ => none
  | fuel + 1, bs =>
    match (spanNul bs).2 with
    | none => none
    | some rest =>
      if rest.length < 20 then none
      else do
        let kind ← modeKind ((spanNul bs).1.takeWhile (· ≠ 0x20))
        let entries ← treeEntries fuel (rest.drop 20)
        return (hexStr (rest.take 20), kind) :: entries

/-- The lines of the parents: those that follow the tree. -/
def parentLines : List (List Char) → Option (List String)
  | [] => some []
  | line :: lines =>
    if "parent ".toList.isPrefixOf line then do
      let oid ← oidLine "parent" line
      let oids ← parentLines lines
      return oid :: oids
    else some []

/-- A line of the tree, and then those of the parents. -/
def commitNames (bs : Bytes) : Option (List (String × ObjectKind)) :=
  match linesAt (· = '\n') (fromUtf8Lossy bs) with
  | [] => none
  | line :: lines => do
    let tree ← oidLine "tree" line
    let parents ← parentLines lines
    return (tree, .tree) :: parents.map (·, .commit)

/-- What an object names, and as what, if it is well formed. -/
def demands (o : GitObject) : Option (List (String × ObjectKind)) :=
  match o.kind with
  | .commit => commitNames o.bytes
  | .tree => treeEntries o.bytes.length o.bytes
  | .blob => some []

theorem mem_walkTree {fuel : Nat} {bs : Bytes} {entries : List (String × ObjectKind)}
    {d : String × ObjectKind} (h : treeEntries fuel bs = some entries) (hd : d ∈ entries) :
    d.1 ∈ walkTree fuel bs := by
  induction fuel generalizing bs entries with
  | zero =>
    cases bs with
    | nil =>
      cases h
      cases hd
    | cons b bs => cases h
  | succ fuel ih =>
    cases bs with
    | nil =>
      cases h
      cases hd
    | cons b bs =>
      simp only [treeEntries] at h
      simp only [walkTree]
      split at h
      · cases h
      · next rest hrest =>
        split at h
        · cases h
        · simp only [bind_eq_bind, bind_eq_some_iff, Option.pure_def,
            some.injEq] at h
          obtain ⟨kind, -, entries', hentries, rfl⟩ := h
          rcases mem_cons.mp hd with rfl | hd
          · exact mem_cons_self
          · exact mem_cons_of_mem _ (ih hentries hd)

theorem mem_parentLines {lines : List (List Char)} {oids : List String} {oid : String}
    (h : parentLines lines = some oids) (hoid : oid ∈ oids) :
    ∃ line ∈ lines, oidLine "parent" line = some oid := by
  induction lines generalizing oids with
  | nil =>
    cases h
    cases hoid
  | cons line lines ih =>
    simp only [parentLines] at h
    split at h
    · simp only [bind_eq_bind, bind_eq_some_iff, Option.pure_def,
        some.injEq] at h
      obtain ⟨o, ho, rest, hrest, rfl⟩ := h
      rcases mem_cons.mp hoid with rfl | hoid
      · exact ⟨line, mem_cons_self, ho⟩
      · obtain ⟨line', hline', ho'⟩ := ih hrest hoid
        exact ⟨line', mem_cons_of_mem _ hline', ho'⟩
    · cases h
      cases hoid

/-- **The walk misses nothing.** -/
theorem mem_walkRefs_of_demands {o : GitObject} {names : List (String × ObjectKind)}
    {d : String × ObjectKind} (h : demands o = some names) (hd : d ∈ names) :
    d.1 ∈ walkRefs o := by
  obtain ⟨kind, bytes⟩ := o
  cases kind with
  | blob =>
    cases h
    cases hd
  | tree => exact mem_walkTree h hd
  | commit =>
    obtain ⟨line, lines, line', lines', hp, hq, hhead, htail⟩ :=
      linesAt_sub (p := (· = '\n')) (q := isTerminator) (by simp [isTerminator])
        (fromUtf8Lossy bytes)
    simp only [demands, commitNames, hp, bind_eq_bind, bind_eq_some_iff,
      Option.pure_def, some.injEq] at h
    obtain ⟨tree, htree, parents, hparents, rfl⟩ := h
    simp only [walkRefs, walkCommit, hq]
    rcases mem_cons.mp hd with rfl | hd
    · -- the first line is the first that the walk takes
      have hsame : line = line' := hhead (oidLine_clean htree (by decide))
      refine mem_append_left _ ?_
      rw [findSome?_cons, ← hsame, htree]
      exact mem_cons_self
    · obtain ⟨p, hparent, rfl⟩ := List.mem_map.mp hd
      obtain ⟨l, hl, hoid⟩ := mem_parentLines hparents hparent
      have hmem : l ∈ lines' := htail l hl (oidLine_clean hoid (by decide))
      exact mem_append_right _
        (mem_filterMap.mpr ⟨l, mem_cons_of_mem _ hmem, hoid⟩)

/-! ## Closures -/

/-- What of an object is found by the walk, among the objects of `view`. -/
def walkNext (view : String → Option GitObject) (oid : String) : List String :=
  match view oid with
  | none => []
  | some o => walkRefs o

/-- `walkClosure`: what is missing, or all that was seen. The names of the objects are `oids`. -/
def walkClosure (view : String → Option GitObject) (oids : List String) (start : String) :
    Except (List String) (List String) :=
  let next := walkNext view
  match bfs next (1 + bfsLeft next [] (ObjectGraph.around next oids start)) [start] [] with
  | none => .error []
  | some visited =>
    let missing := visited.filter fun oid => (view oid).isNone
    if missing = [] then .ok visited else .error missing

variable {view : String → Option GitObject} {oids : List String} {start target : String}

/-- **The walk succeeds** where all that it finds is there. -/
theorem walkClosure_isOk_iff (hoids : ∀ oid, (view oid).isSome → oid ∈ oids) :
    (walkClosure view oids start).isOk ↔
      ∀ oid, Reaches (walkNext view) start oid → (view oid).isSome := by
  have hnext : ∀ oid, oid ∉ oids → walkNext view oid = [] := by
    intro oid hoid
    have hnone : view oid = none := by
      rw [← not_isSome_iff_eq_none]
      exact fun h => hoid (hoids oid h)
    simp [walkNext, hnone]
  obtain ⟨visited, hvisited⟩ := ObjectGraph.bfs_around hnext start
  simp only [walkClosure, hvisited]
  constructor
  · intro h oid hreach
    split at h
    · next hnil =>
      have hoid := filter_eq_nil_iff.mp hnil oid ((mem_bfs_iff hvisited).mpr hreach)
      simpa [isSome_iff_ne_none] using hoid
    · cases h
  · intro h
    have hnil : visited.filter (fun oid => (view oid).isNone) = [] := by
      rw [filter_eq_nil_iff]
      intro oid hoid
      have := h oid ((mem_bfs_iff hvisited).mp hoid)
      simpa [isSome_iff_ne_none] using this
    rw [if_pos hnil]
    rfl

def Names (view : String → Option GitObject) (x y : String × ObjectKind) : Prop :=
  ∃ o names, view x.1 = some o ∧ demands o = some names ∧ y ∈ names

def Demanded (view : String → Option GitObject) (target : String) (y : String × ObjectKind) :
    Prop :=
  Relation.ReflTransGen (Names view) (target, .commit) y

/-- A commit with all of its closure: all that is demanded is there, well formed and of its kind. -/
def Complete (view : String → Option GitObject) (target : String) : Prop :=
  ∀ y, Demanded view target y → ∃ o, view y.1 = some o ∧ o.kind = y.2 ∧ (demands o).isSome

def WellTyped (view : String → Option GitObject) (target : String) : Prop :=
  ∀ y, Demanded view target y → ∀ o, view y.1 = some o → o.kind = y.2 ∧ (demands o).isSome

theorem Complete.wellTyped (h : Complete view target) : WellTyped view target := by
  intro y hy o ho
  obtain ⟨o', ho', hkind⟩ := h y hy
  cases ho.symm.trans ho'
  exact hkind

theorem reaches_of_demanded {y : String × ObjectKind} (h : Demanded view target y) :
    Reaches (walkNext view) target y.1 := by
  induction h with
  | refl => exact .refl target
  | tail _ hnames ih =>
    obtain ⟨o, names, ho, hdemands, hmem⟩ := hnames
    refine ih.trans (Reaches.of_mem ?_)
    rw [walkNext, ho]
    exact mem_walkRefs_of_demands hdemands hmem

/-- **What the walk leaves open** is whether the objects are what they are demanded as. -/
theorem complete_of_walk (hthere : ∀ oid, Reaches (walkNext view) target oid → (view oid).isSome)
    (hwell : WellTyped view target) : Complete view target := by
  intro y hy
  obtain ⟨o, ho⟩ := isSome_iff_exists.mp (hthere y.1 (reaches_of_demanded hy))
  exact ⟨o, ho, hwell y hy o ho⟩

theorem Complete.congr {view' : String → Option GitObject} (h : Complete view target)
    (hsame : ∀ y, Demanded view target y → Demanded view' target y → view' y.1 = view y.1) :
    Complete view' target ∧ ∀ y, Demanded view' target y → Demanded view target y := by
  have hback : ∀ y, Demanded view' target y → Demanded view target y := by
    intro y hy
    induction hy with
    | refl => exact .refl
    | tail hx hnames ih =>
      obtain ⟨o, names, ho, hdemands, hmem⟩ := hnames
      exact ih.tail ⟨o, names, (hsame _ ih hx).symm.trans ho, hdemands, hmem⟩
  refine ⟨fun y hy => ?_, hback⟩
  rw [hsame y (hback y hy) hy]
  exact h y (hback y hy)

end Dweb
