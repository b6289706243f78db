import OpenDweb.Lib.Lookup

/-!
# OpenDweb — the merge of three trees

The flat trees of `opendweb-ext-sync/src/objects.mjs` and `mergeTrees` of `merge.mjs`. A path is
the list of its segments. The library that merges texts, and the blobs that it is given, are a
parameter.

* **`FlatTree`** — what `readFlatTree` returns: the directories above an entry are entries too.
* **`writeTreeFromFlat`** — the tree of a list of files; where a file is above another, the
  directory wins.
* **`mergePath`**, **`mergeTrees`** — one path, and all of them.
* **`mergeTrees_edit`** — what one side has changed since the base is in the merged tree, or a
  conflict names its path.
-/

namespace Dweb

open List Option

/-! ## Flat trees -/

abbrev TreePath := List String

@[ext]
structure BlobEntry (Oid : Type) where
  oid : Oid
  mode : String
deriving DecidableEq

inductive FlatEntry (Oid : Type) where
  | blob (entry : BlobEntry Oid)
  | tree
deriving DecidableEq

namespace FlatEntry

variable {Oid : Type}

def isTree : FlatEntry Oid → Bool
  | blob _ => false
  | tree => true

/-- `blobify`. -/
def blob? : FlatEntry Oid → Option (BlobEntry Oid)
  | blob entry => some entry
  | tree => none

end FlatEntry

structure FlatTree (Oid : Type) where
  get : TreePath → Option (FlatEntry Oid)
  paths : List TreePath
  mem_paths : ∀ p, p ∈ paths ↔ (get p).isSome
  root : get [] = none
  closed : ∀ p q, p ≠ [] → q ≠ [] → (get (p ++ q)).isSome → get p = some .tree

namespace FlatTree

variable {Oid : Type} {t : FlatTree Oid} {p q : TreePath}

def file (t : FlatTree Oid) (p : TreePath) : Option (BlobEntry Oid) :=
  (t.get p).bind FlatEntry.blob?

theorem get_of_file {e : BlobEntry Oid} (h : t.file p = some e) : t.get p = some (.blob e) := by
  obtain ⟨entry, hget, hblob⟩ := bind_eq_some_iff.mp h
  cases entry with
  | blob e' =>
    cases hblob
    exact hget
  | tree => cases hblob

def empty : FlatTree Oid := ⟨fun _ => none, [], by simp, rfl, by simp⟩

instance : Inhabited (FlatTree Oid) := ⟨empty⟩

end FlatTree

/-! ## From files to a tree -/

section

variable {Oid : Type} {files : List (TreePath × BlobEntry Oid)} {p q : TreePath}

def hasBelow (files : List (TreePath × BlobEntry Oid)) (p : TreePath) : Bool :=
  files.any fun e => p.isPrefixOf e.1 && p ≠ e.1

theorem hasBelow_iff : hasBelow files p = true ↔ ∃ q e, q ≠ [] ∧ (p ++ q, e) ∈ files := by
  simp only [hasBelow, List.any_eq_true, Bool.and_eq_true, isPrefixOf_iff_prefix,
    decide_eq_true_eq]
  constructor
  · rintro ⟨⟨r, e⟩, hmem, ⟨q, hq⟩, hne⟩
    simp only at hq hne
    refine ⟨q, e, ?_, hq ▸ hmem⟩
    rintro rfl
    rw [append_nil] at hq
    exact hne hq
  · rintro ⟨q, e, hne, hmem⟩
    exact ⟨(p ++ q, e), hmem, prefix_append p q, by simpa using hne⟩

/-- `writeTreeFromFlat`, and then `readFlatTree`. -/
def writeTreeFromFlat (files : List (TreePath × BlobEntry Oid)) : FlatTree Oid where
  get p :=
    if p = [] then none
    else if hasBelow files p then some .tree
    else (files.lookup p).map .blob
  paths := (files.flatMap fun e => e.1.inits).filter (· ≠ [])
  mem_paths p := by
    simp only [mem_filter, mem_flatMap, mem_inits, ne_eq, decide_eq_true_eq]
    by_cases hp : p = []
    · simp [hp]
    by_cases hbelow : hasBelow files p = true
    · obtain ⟨q, e, -, hmem⟩ := hasBelow_iff.mp hbelow
      simp only [hp, hbelow, if_true, if_false, isSome_some, iff_true, not_false_iff,
        and_true]
      exact ⟨(p ++ q, e), hmem, prefix_append p q⟩
    · simp only [hp, hbelow, if_false, isSome_map, isSome_lookup_iff, not_false_iff,
        and_true, Bool.false_eq_true]
      constructor
      · rintro ⟨⟨r, e⟩, hmem, q, hq⟩
        simp only at hq
        subst hq
        -- nothing is below, so it is the file itself
        have hq : q = [] := by
          by_contra hne
          exact hbelow (hasBelow_iff.mpr ⟨q, e, hne, hmem⟩)
        subst hq
        rw [append_nil] at hmem
        exact ⟨e, hmem⟩
      · rintro ⟨e, hmem⟩
        exact ⟨(p, e), hmem, prefix_rfl⟩
  root := by simp
  closed p q hp hq hsome := by
    have hpq : p ++ q ≠ [] := by simp [hp]
    rw [if_neg hpq] at hsome
    have hbelow : hasBelow files p = true := by
      split at hsome
      · next h =>
        obtain ⟨r, e, -, hmem⟩ := hasBelow_iff.mp h
        exact hasBelow_iff.mpr ⟨q ++ r, e, by simp [hq], by rw [← append_assoc]; exact hmem⟩
      · rw [isSome_map, isSome_lookup_iff] at hsome
        obtain ⟨e, hmem⟩ := hsome
        exact hasBelow_iff.mpr ⟨q, e, hq, hmem⟩
    rw [if_neg hp, if_pos hbelow]

theorem file_writeTreeFromFlat (hp : p ≠ []) (hbelow : ∀ q e, q ≠ [] → (p ++ q, e) ∉ files) :
    (writeTreeFromFlat files).file p = files.lookup p := by
  have hnot : ¬hasBelow files p = true := by
    intro h
    obtain ⟨q, e, hne, hmem⟩ := hasBelow_iff.mp h
    exact hbelow q e hne hmem
  simp only [FlatTree.file, writeTreeFromFlat, if_neg hp, if_neg hnot]
  cases files.lookup p with
  | none => rfl
  | some e => rfl

end

/-! ## One path -/

structure MergeHunk where
  a : List String
  o : List String
  b : List String
  aIndex : Nat
  oIndex : Nat
  bIndex : Nat
deriving DecidableEq

inductive TextMerge (Oid : Type) where
  | clean (oid : Oid)
  | hunks (hunks : List MergeHunk)
deriving DecidableEq

inductive ConflictKind where
  | text | binary | utf8 | size | deleteModify | type | mode | addAdd
deriving DecidableEq

/-- The blobs, and what `diff3Merge` makes of their texts. -/
structure BlobStore (Oid : Type) where
  /-- `tryTextMerge`, and the `writeObject` of a clean result. -/
  tryTextMerge : (ours : Oid) → (base : Option Oid) → (theirs : Oid) → Option (TextMerge Oid)
  classifyNonText : Oid → ConflictKind

structure MergeConflict (Oid : Type) where
  hunkLevel : Bool
  kind : ConflictKind
  base : Option (BlobEntry Oid)
  ours : Option (BlobEntry Oid)
  theirs : Option (BlobEntry Oid)
  hunks : List MergeHunk
deriving DecidableEq

inductive MergeNote where
  | plain | autoMerged | propagatedMode
deriving DecidableEq

inductive PathMerge (Oid : Type) where
  | absent
  | entry (entry : BlobEntry Oid) (note : MergeNote)
  | conflict (conflict : MergeConflict Oid)
deriving DecidableEq

namespace PathMerge

variable {Oid : Type}

def merged? : PathMerge Oid → Option (BlobEntry Oid)
  | entry e _ => some e
  | _ => none

def conflict? : PathMerge Oid → Option (MergeConflict Oid)
  | conflict c => some c
  | _ => none

end PathMerge

section

variable {Oid : Type} [DecidableEq Oid]

def pickMode (o t : BlobEntry Oid) : String :=
  if o.mode = "100755" ∨ t.mode = "100755" then "100755" else "100644"

def typesDiffer (es : List (FlatEntry Oid)) : Bool :=
  es.any FlatEntry.isTree && es.any fun e => !e.isTree

/-- The two sides, where both have the file and have changed it, or added it. -/
def mergeTexts (S : BlobStore Oid) (b : Option (BlobEntry Oid)) (o t : BlobEntry Oid)
    (kind : ConflictKind) (mode : String) : PathMerge Oid :=
  match S.tryTextMerge o.oid (b.map BlobEntry.oid) t.oid with
  | none => .conflict ⟨false, kind, b, some o, some t, []⟩
  | some (.clean oid) => .entry ⟨oid, mode⟩ .autoMerged
  | some (.hunks hunks) => .conflict ⟨true, .text, b, some o, some t, hunks⟩

/-- A path that is a file in the base, and on both sides. -/
def mergeChanged (S : BlobStore Oid) (b o t : BlobEntry Oid) : PathMerge Oid :=
  let oContentChanged := o.oid ≠ b.oid
  let tContentChanged := t.oid ≠ b.oid
  let oModeChanged := o.mode ≠ b.mode
  let tModeChanged := t.mode ≠ b.mode
  if o = t then .entry o .plain
  else if o = b then
    .entry t (if tModeChanged ∧ ¬tContentChanged then .propagatedMode else .plain)
  else if t = b then
    .entry o (if oModeChanged ∧ ¬oContentChanged then .propagatedMode else .plain)
  else if (oModeChanged ∧ tContentChanged) ∨ (tModeChanged ∧ oContentChanged) ∨
      (oModeChanged ∧ tModeChanged ∧ o.mode ≠ t.mode) then
    .conflict ⟨false, .mode, some b, some o, some t, []⟩
  else if ¬oContentChanged then .entry ⟨t.oid, o.mode⟩ .plain
  else if ¬tContentChanged then .entry ⟨o.oid, t.mode⟩ .plain
  else mergeTexts S (some b) o t (S.classifyNonText o.oid) o.mode

/-- The body of the loop of `mergeTrees`. -/
def mergePath (S : BlobStore Oid) (b o t : Option (FlatEntry Oid)) : PathMerge Oid :=
  let files := (b.bind FlatEntry.blob?, o.bind FlatEntry.blob?, t.bind FlatEntry.blob?)
  if typesDiffer (b.toList ++ o.toList ++ t.toList) then
    .conflict ⟨false, .type, files.1, files.2.1, files.2.2, []⟩
  else
    match files with
    | (_, none, none) => .absent
    | (none, some o, some t) =>
      if o = t then .entry o .plain
      else if o.oid = t.oid then .entry ⟨o.oid, pickMode o t⟩ .plain
      else mergeTexts S none o t .addAdd (if o.mode = t.mode then o.mode else "100644")
    | (none, some keep, none) => .entry keep .plain
    | (none, none, some keep) => .entry keep .plain
    | (some b, some o, some t) => mergeChanged S b o t
    | (some b, none, some t) =>
      if t = b then .absent else .conflict ⟨false, .deleteModify, some b, none, some t, []⟩
    | (some b, some o, none) =>
      if o = b then .absent else .conflict ⟨false, .deleteModify, some b, some o, none, []⟩

/-- What a side had is there, or is merged with what the other side had. -/
def EditKept (S : BlobStore Oid) (base ours theirs merged : Option (BlobEntry Oid)) : Prop :=
  merged = ours ∨
    ∃ o t m, ours = some o ∧ theirs = some t ∧ merged = some m ∧
      (m.oid = o.oid ∨
        S.tryTextMerge o.oid (base.map BlobEntry.oid) t.oid = some (.clean m.oid)) ∧
      (m.mode = o.mode ∨ o.mode ≠ t.mode)

variable {S : BlobStore Oid}

omit [DecidableEq Oid] in
theorem mergeTexts_kept {b : Option (BlobEntry Oid)} {o t : BlobEntry Oid} {kind : ConflictKind}
    {mode : String} (hmode : mode = o.mode ∨ o.mode ≠ t.mode) :
    (mergeTexts S b o t kind mode).conflict?.isSome ∨
      EditKept S b (some o) (some t) (mergeTexts S b o t kind mode).merged? := by
  unfold mergeTexts
  split
  · exact .inl rfl
  · next oid hclean => exact .inr (.inr ⟨o, t, ⟨oid, mode⟩, rfl, rfl, rfl, .inr hclean, hmode⟩)
  · exact .inl rfl

/-- **Where both sides have changed a file differently**, the modes decide: with both as in the
base the texts are merged, and else there is a conflict. -/
theorem mergeChanged_both {b o t : BlobEntry Oid} (hot : o ≠ t) (hob : o ≠ b) (htb : t ≠ b) :
    mergeChanged S b o t =
      if o.mode = b.mode ∧ t.mode = b.mode then
        mergeTexts S (some b) o t (S.classifyNonText o.oid) o.mode
      else .conflict ⟨false, .mode, some b, some o, some t, []⟩ := by
  -- a side with the mode of the base has changed the content
  have ho : o.mode = b.mode → o.oid ≠ b.oid := fun hmode hoid => hob (BlobEntry.ext hoid hmode)
  have ht : t.mode = b.mode → t.oid ≠ b.oid := fun hmode hoid => htb (BlobEntry.ext hoid hmode)
  simp only [mergeChanged, if_neg hot, if_neg hob, if_neg htb]
  by_cases hmodes : o.mode = b.mode ∧ t.mode = b.mode
  · obtain ⟨homode, htmode⟩ := hmodes
    rw [if_neg (by simp [homode, htmode]), if_neg (not_not.mpr (ho homode)),
      if_neg (not_not.mpr (ht htmode)), if_pos ⟨homode, htmode⟩]
  · rw [if_neg hmodes, if_pos]
    by_contra hrace
    rw [not_or, not_or, not_and, not_and, not_and, not_and] at hrace
    obtain ⟨hleft, hright, hboth⟩ := hrace
    by_cases homode : o.mode = b.mode
    · have htmode : t.mode ≠ b.mode := fun htmode => hmodes ⟨homode, htmode⟩
      exact hright htmode (ho homode)
    · have htoid : t.oid = b.oid := not_not.mp (hleft homode)
      have htmode : t.mode ≠ b.mode := fun htmode => ht htmode htoid
      have hoid : o.oid = b.oid := not_not.mp (hright htmode)
      have hmode : o.mode = t.mode := not_not.mp (hboth homode htmode)
      exact hot (BlobEntry.ext (hoid.trans htoid.symm) hmode)

theorem mergeChanged_kept {b o t : BlobEntry Oid} (hedit : o ≠ b) :
    (mergeChanged S b o t).conflict?.isSome ∨
      EditKept S (some b) (some o) (some t) (mergeChanged S b o t).merged? := by
  by_cases hot : o = t
  · rw [mergeChanged, if_pos hot]
    exact .inr (.inl rfl)
  by_cases htb : t = b
  · rw [mergeChanged, if_neg hot, if_neg hedit, if_pos htb]
    exact .inr (.inl rfl)
  rw [mergeChanged_both hot hedit htb]
  split
  · exact mergeTexts_kept (.inl rfl)
  · exact .inl rfl

/-- **One path**: what ours has changed is kept, or the path is in conflict. -/
theorem mergePath_kept {b o t : Option (FlatEntry Oid)}
    (hedit : o.bind FlatEntry.blob? ≠ b.bind FlatEntry.blob?) :
    (mergePath S b o t).conflict?.isSome ∨
      EditKept S (b.bind FlatEntry.blob?) (o.bind FlatEntry.blob?) (t.bind FlatEntry.blob?)
        (mergePath S b o t).merged? := by
  simp only [mergePath]
  split
  · exact .inl rfl
  generalize b.bind FlatEntry.blob? = b at hedit ⊢
  generalize o.bind FlatEntry.blob? = o at hedit ⊢
  generalize t.bind FlatEntry.blob? = t
  match b, o, t with
  | _, none, none => exact .inr (.inl rfl)
  | none, some o, some t =>
    simp only
    split
    · exact .inr (.inl rfl)
    split
    · next hne hoid =>
      exact .inr (.inr ⟨o, t, _, rfl, rfl, rfl, .inl rfl,
        .inr fun hmode => hne (BlobEntry.ext hoid hmode)⟩)
    · refine mergeTexts_kept ?_
      split
      · exact .inl rfl
      · next hmode => exact .inr hmode
  | none, some o, none => exact .inr (.inl rfl)
  | none, none, some t => exact absurd rfl hedit
  | some b, some o, some t => exact mergeChanged_kept fun h => hedit (h ▸ rfl)
  | some b, none, some t =>
    simp only
    split
    · exact .inr (.inl rfl)
    · exact .inl rfl
  | some b, some o, none =>
    simp only
    split
    · next heq => exact absurd (heq ▸ rfl) hedit
    · exact .inl rfl

end

/-! ## All paths -/

structure MergeOutcome (Oid : Type) where
  mergedEntries : List (TreePath × BlobEntry Oid)
  conflicts : List (TreePath × MergeConflict Oid)
  autoMerged : List TreePath
  propagatedMode : List TreePath

section

variable {Oid : Type} [DecidableEq Oid]

def mergeTrees (S : BlobStore Oid) (baseTree oursTree theirsTree : FlatTree Oid) :
    MergeOutcome Oid :=
  let paths := (baseTree.paths ++ oursTree.paths ++ theirsTree.paths).dedup
  let merge p := mergePath S (baseTree.get p) (oursTree.get p) (theirsTree.get p)
  let noted (note : MergeNote) := paths.filter fun p =>
    match merge p with
    | .entry _ note' => note' = note
    | _ => false
  { mergedEntries := paths.filterMap fun p => (merge p).merged?.map (p, ·)
    conflicts := paths.filterMap fun p => (merge p).conflict?.map (p, ·)
    autoMerged := noted .autoMerged
    propagatedMode := noted .propagatedMode }

variable {S : BlobStore Oid} {b o t : FlatTree Oid} {p : TreePath}

theorem mem_paths_of_mergePath (h : mergePath S (b.get p) (o.get p) (t.get p) ≠ .absent) :
    p ∈ (b.paths ++ o.paths ++ t.paths).dedup := by
  simp only [mem_dedup, mem_append, FlatTree.mem_paths]
  by_contra hnone
  simp only [not_or, isSome_iff_ne_none, not_not] at hnone
  rw [hnone.1.1, hnone.1.2, hnone.2] at h
  exact h rfl

theorem mem_mergedEntries {e : BlobEntry Oid} :
    (p, e) ∈ (mergeTrees S b o t).mergedEntries ↔
      (mergePath S (b.get p) (o.get p) (t.get p)).merged? = some e := by
  simp only [mergeTrees, mem_filterMap, map_eq_some_iff, Prod.mk.injEq]
  constructor
  · rintro ⟨q, -, e', he, rfl, rfl⟩
    exact he
  · intro he
    refine ⟨p, ?_, e, he, rfl, rfl⟩
    exact mem_paths_of_mergePath (S := S) fun habsent => by simp [habsent, PathMerge.merged?] at he

theorem mem_conflicts {c : MergeConflict Oid} :
    (p, c) ∈ (mergeTrees S b o t).conflicts ↔
      (mergePath S (b.get p) (o.get p) (t.get p)).conflict? = some c := by
  simp only [mergeTrees, mem_filterMap, map_eq_some_iff, Prod.mk.injEq]
  constructor
  · rintro ⟨q, -, e', he, rfl, rfl⟩
    exact he
  · intro he
    refine ⟨p, ?_, c, he, rfl, rfl⟩
    exact mem_paths_of_mergePath (S := S) fun habsent => by simp [habsent, PathMerge.conflict?] at he

theorem lookup_mergedEntries :
    (mergeTrees S b o t).mergedEntries.lookup p =
      (mergePath S (b.get p) (o.get p) (t.get p)).merged? := by
  refine Option.ext fun e => ?_
  rw [lookup_eq_some_iff, mem_mergedEntries]
  intro p e e' he he'
  rw [mem_mergedEntries] at he he'
  exact some.inj (he.symm.trans he')

/-- The files are those of the outcome, but for the paths in conflict. -/
structure FilesOf (out : MergeOutcome Oid) (files : List (TreePath × BlobEntry Oid)) : Prop where
  lookup : ∀ p, (∀ c, (p, c) ∉ out.conflicts) → files.lookup p = out.mergedEntries.lookup p
  mem : ∀ p e, (p, e) ∈ files → (p, e) ∈ out.mergedEntries ∨ ∃ c, (p, c) ∈ out.conflicts

omit [DecidableEq Oid] in
theorem FilesOf.mergedEntries (out : MergeOutcome Oid) : FilesOf out out.mergedEntries :=
  ⟨fun _ _ => rfl, fun _ _ h => .inl h⟩

theorem mergePath_absent {b : Option (FlatEntry Oid)} : mergePath S b none none = .absent := by
  cases b with
  | none => rfl
  | some e =>
    cases e with
    | blob e => rfl
    | tree => rfl

omit [DecidableEq Oid] in
theorem typesDiffer_of_tree {b o t : Option (FlatEntry Oid)}
    (htree : o = some .tree ∨ t = some .tree)
    (hedit : o.bind FlatEntry.blob? ≠ b.bind FlatEntry.blob?) :
    typesDiffer (b.toList ++ o.toList ++ t.toList) = true := by
  rcases htree with rfl | rfl
  · match b, hedit with
    | none, hedit => exact absurd rfl hedit
    | some (.blob e), _ => simp [typesDiffer, FlatEntry.isTree]
    | some .tree, hedit => exact absurd rfl hedit
  · match b, o, hedit with
    | some (.blob e), _, _ => simp [typesDiffer, FlatEntry.isTree]
    | none, some (.blob e), _ => simp [typesDiffer, FlatEntry.isTree]
    | some .tree, some (.blob e), _ => simp [typesDiffer, FlatEntry.isTree]
    | none, none, hedit => exact absurd rfl hedit
    | none, some .tree, hedit => exact absurd rfl hedit
    | some .tree, none, hedit => exact absurd rfl hedit
    | some .tree, some .tree, hedit => exact absurd rfl hedit

/-- **What ours has changed since the base** is kept in the tree of the merged files, or a conflict
names its path. -/
theorem mergeTrees_edit {files : List (TreePath × BlobEntry Oid)}
    (hfiles : FilesOf (mergeTrees S b o t) files) (hedit : o.file p ≠ b.file p)
    (hp : ∀ c, (p, c) ∉ (mergeTrees S b o t).conflicts) :
    EditKept S (b.file p) (o.file p) (t.file p) ((writeTreeFromFlat files).file p) := by
  have hnone : (mergePath S (b.get p) (o.get p) (t.get p)).conflict? = none := by
    rw [eq_none_iff_forall_ne_some]
    exact fun c hc => hp c (mem_conflicts.mpr hc)
  have hne : p ≠ [] := by
    rintro rfl
    exact hedit (by simp [FlatTree.file, FlatTree.root])
  have hbelow : ∀ q e, q ≠ [] → (p ++ q, e) ∉ files := by
    intro q e hq hmem
    have hsome : mergePath S (b.get (p ++ q)) (o.get (p ++ q)) (t.get (p ++ q)) ≠ .absent := by
      intro habsent
      rcases hfiles.mem _ _ hmem with h | ⟨c, h⟩
      · rw [mem_mergedEntries, habsent] at h
        cases h
      · rw [mem_conflicts, habsent] at h
        cases h
    -- one of the sides has it, and so a directory at `p`
    have htree : o.get p = some .tree ∨ t.get p = some .tree := by
      by_cases ho : (o.get (p ++ q)).isSome
      · exact .inl (o.closed p q hne hq ho)
      by_cases ht : (t.get (p ++ q)).isSome
      · exact .inr (t.closed p q hne hq ht)
      rw [not_isSome_iff_eq_none] at ho ht
      rw [ho, ht] at hsome
      exact absurd mergePath_absent hsome
    rw [mergePath, if_pos (typesDiffer_of_tree htree hedit)] at hnone
    cases hnone
  rw [file_writeTreeFromFlat hne hbelow, hfiles.lookup p hp, lookup_mergedEntries]
  rcases mergePath_kept (S := S) (t := t.get p) hedit with hconflict | hkept
  · rw [hnone] at hconflict
    cases hconflict
  · exact hkept

end

end Dweb
