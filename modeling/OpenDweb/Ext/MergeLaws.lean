import OpenDweb.Ext.TreeMerge
import OpenDweb.Lib.Text

/-!
# OpenDweb — laws of the three-way merge

What two devices rely on that merge the same three trees, one of them with the sides exchanged.

* **`MergeTools`** — the object store and `diff3Merge`, and what `tryTextMerge` and
  `classifyNonText` do with them.
* **`mergePath_swap`** — one path, with the sides exchanged.
* **`mergePath_absent_iff`** — when a file is in neither the merge nor a conflict.
* **`mergeTrees_laws`** — the merge of three trees. A file that has become a directory is always a
  conflict; the identities hold exactly where there is none.
-/

namespace Dweb

open List Option

/-! ## Texts -/

def TEXT_MERGE_MAX_BYTES : Nat := 16 * 1024 * 1024

/-- One region of what `diff3Merge` returns. -/
inductive MergeRegion where
  | ok (lines : List String)
  | conflict (hunk : MergeHunk)

/-- The object store, and the library that merges texts. -/
structure MergeTools (Oid : Type) where
  readObject : Oid → Bytes
  writeObject : Bytes → Oid
  diff3Merge : (ours base theirs : String) → List MergeRegion

def MergeHunk.swap (h : MergeHunk) : MergeHunk :=
  { a := h.b, o := h.o, b := h.a, aIndex := h.bIndex, oIndex := h.oIndex, bIndex := h.aIndex }

def MergeRegion.swap : MergeRegion → MergeRegion
  | ok lines => ok lines
  | conflict hunk => conflict hunk.swap

namespace MergeRegion

def lines : MergeRegion → List String
  | ok lines => lines
  | conflict _ => []

def hunk? : MergeRegion → Option MergeHunk
  | ok _ => none
  | conflict hunk => some hunk

end MergeRegion

namespace MergeTools

variable {Oid : Type} (T : MergeTools Oid)

def Symmetric : Prop :=
  ∀ ours base theirs,
    T.diff3Merge theirs base ours = (T.diff3Merge ours base theirs).map MergeRegion.swap

/-- `diff3TextMerge`, with the `writeObject` of a clean text. -/
def diff3TextMerge (oursText baseText theirsText : String) : TextMerge Oid :=
  let regions := T.diff3Merge oursText baseText theirsText
  let hunks := regions.filterMap MergeRegion.hunk?
  if hunks = [] then
    let text := "\n".intercalate (regions.flatMap MergeRegion.lines)
    .clean (T.writeObject (utf8Bytes text))
  else .hunks hunks

/-- `tryTextMerge`; without a base the texts are merged over the empty one. -/
def tryTextMerge (oursOid : Oid) (baseOid : Option Oid) (theirsOid : Oid) :
    Option (TextMerge Oid) :=
  let oB := T.readObject oursOid
  let bB := (baseOid.map T.readObject).getD []
  let tB := T.readObject theirsOid
  if TEXT_MERGE_MAX_BYTES < oB.length ∨ TEXT_MERGE_MAX_BYTES < bB.length
      ∨ TEXT_MERGE_MAX_BYTES < tB.length then none
  else
    match textDecode oB, textDecode bB, textDecode tB with
    | some oT, some bT, some tT => some (T.diff3TextMerge oT bT tT)
    | _, _, _ => none

def classifyNonText (oid : Oid) : ConflictKind :=
  let bytes := T.readObject oid
  if TEXT_MERGE_MAX_BYTES < bytes.length then .size
  else if textDecode bytes = none then .utf8
  else .binary

/-- What `mergeTrees` is given. -/
def blobStore : BlobStore Oid where
  tryTextMerge := T.tryTextMerge
  classifyNonText := T.classifyNonText

end MergeTools

/-! ## Exchanged sides -/

def ConflictKind.nonText : ConflictKind → Bool
  | binary | utf8 | size => true
  | _ => false

def TextMerge.swap {Oid : Type} : TextMerge Oid → TextMerge Oid
  | clean oid => clean oid
  | hunks hs => hunks (hs.map MergeHunk.swap)

/-- The conflict of exchanged sides. Why two contents are no texts is read off one of them. -/
structure MergeConflict.Mirrors {Oid : Type} (c c' : MergeConflict Oid) : Prop where
  hunkLevel : c'.hunkLevel = c.hunkLevel
  base : c'.base = c.base
  ours : c'.ours = c.theirs
  theirs : c'.theirs = c.ours
  hunks : c'.hunks = c.hunks.map MergeHunk.swap
  kind : c'.kind = c.kind ∨ (c.kind.nonText = true ∧ c'.kind.nonText = true)

inductive PathMerge.Mirrors {Oid : Type} : PathMerge Oid → PathMerge Oid → Prop where
  | absent : Mirrors .absent .absent
  | entry (e : BlobEntry Oid) (note : MergeNote) : Mirrors (.entry e note) (.entry e note)
  | conflict {c c' : MergeConflict Oid} (h : c.Mirrors c') : Mirrors (.conflict c) (.conflict c')

/-- Texts merge alike from both sides, and what is none is told by its kind. -/
structure BlobStore.Balanced {Oid : Type} (S : BlobStore Oid) : Prop where
  merge : ∀ o b t, S.tryTextMerge t b o = (S.tryTextMerge o b t).map TextMerge.swap
  kind : ∀ oid, (S.classifyNonText oid).nonText = true

namespace MergeTools

variable {Oid : Type} {T : MergeTools Oid}

theorem classifyNonText_nonText (oid : Oid) : (T.classifyNonText oid).nonText = true := by
  unfold classifyNonText
  dsimp only
  split
  · rfl
  · split
    · rfl
    · rfl

theorem diff3TextMerge_swap (h : T.Symmetric) (o b t : String) :
    T.diff3TextMerge t b o = (T.diff3TextMerge o b t).swap := by
  have hhunks : ∀ rs : List MergeRegion, (rs.map MergeRegion.swap).filterMap MergeRegion.hunk?
      = (rs.filterMap MergeRegion.hunk?).map MergeHunk.swap := by
    intro rs
    induction rs with
    | nil => rfl
    | cons r rs ih =>
      cases r with
      | ok lines => exact ih
      | conflict hunk => exact congrArg (hunk.swap :: ·) ih
  have hlines : ∀ rs : List MergeRegion, (rs.map MergeRegion.swap).flatMap MergeRegion.lines
      = rs.flatMap MergeRegion.lines := by
    intro rs
    induction rs with
    | nil => rfl
    | cons r rs ih =>
      cases r with
      | ok lines => exact congrArg (lines ++ ·) ih
      | conflict hunk => exact ih
  unfold diff3TextMerge
  rw [h o b t]
  simp only [hhunks, hlines, map_eq_nil_iff]
  by_cases hnone : (T.diff3Merge o b t).filterMap MergeRegion.hunk? = []
  · rw [if_pos hnone, if_pos hnone]
    rfl
  · rw [if_neg hnone, if_neg hnone]
    rfl

/-- **A symmetric library makes a balanced store.** -/
theorem Symmetric.balanced (h : T.Symmetric) : T.blobStore.Balanced where
  kind := classifyNonText_nonText
  merge o b t := by
    show T.tryTextMerge t b o = (T.tryTextMerge o b t).map TextMerge.swap
    unfold tryTextMerge
    dsimp only
    generalize T.readObject o = oB
    generalize T.readObject t = tB
    generalize (b.map T.readObject).getD [] = bB
    by_cases hsize : TEXT_MERGE_MAX_BYTES < oB.length ∨ TEXT_MERGE_MAX_BYTES < bB.length
        ∨ TEXT_MERGE_MAX_BYTES < tB.length
    · rw [if_pos hsize, if_pos (by omega)]
      rfl
    · rw [if_neg hsize, if_neg (by omega)]
      cases textDecode oB with
      | none =>
        cases textDecode tB with
        | none => rfl
        | some tT => cases textDecode bB with
          | none => rfl
          | some bT => rfl
      | some oT =>
        cases textDecode tB with
        | none => cases textDecode bB with
          | none => rfl
          | some bT => rfl
        | some tT =>
          cases textDecode bB with
          | none => rfl
          | some bT => exact congrArg some (diff3TextMerge_swap h oT bT tT)

end MergeTools

/-! ## One path -/

section

variable {Oid : Type} [DecidableEq Oid] {S : BlobStore Oid}

omit [DecidableEq Oid] in
theorem mergeTexts_swap (hS : S.Balanced) {b : Option (BlobEntry Oid)} {o t : BlobEntry Oid}
    {kind kind' : ConflictKind} {mode : String}
    (hkind : kind' = kind ∨ (kind.nonText = true ∧ kind'.nonText = true)) :
    (mergeTexts S b o t kind mode).Mirrors (mergeTexts S b t o kind' mode) := by
  unfold mergeTexts
  rw [hS.merge o.oid (b.map BlobEntry.oid) t.oid]
  cases S.tryTextMerge o.oid (b.map BlobEntry.oid) t.oid with
  | none => exact .conflict ⟨rfl, rfl, rfl, rfl, rfl, hkind⟩
  | some merge =>
    cases merge with
    | clean oid => exact .entry _ _
    | hunks hs => exact .conflict ⟨rfl, rfl, rfl, rfl, rfl, .inl rfl⟩

theorem mergeChanged_swap (hS : S.Balanced) (b o t : BlobEntry Oid) :
    (mergeChanged S b o t).Mirrors (mergeChanged S b t o) := by
  by_cases hot : o = t
  · subst hot
    rw [mergeChanged, if_pos rfl]
    exact .entry _ _
  by_cases hob : o = b
  · subst hob
    simp only [mergeChanged, if_neg hot, if_neg (Ne.symm hot), if_true]
    exact .entry _ _
  by_cases htb : t = b
  · subst htb
    simp only [mergeChanged, if_neg hot, if_neg (Ne.symm hot), if_true]
    exact .entry _ _
  rw [mergeChanged_both hot hob htb, mergeChanged_both (Ne.symm hot) htb hob]
  by_cases hmodes : o.mode = b.mode ∧ t.mode = b.mode
  · rw [if_pos hmodes, if_pos hmodes.symm, hmodes.1, hmodes.2]
    exact mergeTexts_swap hS (.inr ⟨hS.kind o.oid, hS.kind t.oid⟩)
  · rw [if_neg hmodes, if_neg fun h => hmodes h.symm]
    exact .conflict ⟨rfl, rfl, rfl, rfl, rfl, .inl rfl⟩

omit [DecidableEq Oid] in
theorem pickMode_comm (o t : BlobEntry Oid) : pickMode o t = pickMode t o := by
  unfold pickMode
  simp only [or_comm]

omit [DecidableEq Oid] in
theorem typesDiffer_swap (b o t : Option (FlatEntry Oid)) :
    typesDiffer (b.toList ++ t.toList ++ o.toList)
      = typesDiffer (b.toList ++ o.toList ++ t.toList) := by
  simp only [typesDiffer, any_append, Bool.or_assoc]
  rw [Bool.or_comm (t.toList.any _), Bool.or_comm (t.toList.any _)]

/-- **The sides of a path, exchanged.** -/
theorem mergePath_swap (hS : S.Balanced) (b o t : Option (FlatEntry Oid)) :
    (mergePath S b o t).Mirrors (mergePath S b t o) := by
  simp only [mergePath, typesDiffer_swap b o t]
  by_cases htypes : typesDiffer (b.toList ++ o.toList ++ t.toList) = true
  · rw [if_pos htypes, if_pos htypes]
    exact .conflict ⟨rfl, rfl, rfl, rfl, rfl, .inl rfl⟩
  rw [if_neg htypes, if_neg htypes]
  generalize b.bind FlatEntry.blob? = b
  generalize o.bind FlatEntry.blob? = o
  generalize t.bind FlatEntry.blob? = t
  rcases o with - | o <;> rcases t with - | t
  · rcases b with - | b <;> exact .absent
  · rcases b with - | b
    · exact .entry _ _
    simp only
    by_cases htb : t = b
    · rw [if_pos htb, if_pos htb]
      exact .absent
    · rw [if_neg htb, if_neg htb]
      exact .conflict ⟨rfl, rfl, rfl, rfl, rfl, .inl rfl⟩
  · rcases b with - | b
    · exact .entry _ _
    simp only
    by_cases hob : o = b
    · rw [if_pos hob, if_pos hob]
      exact .absent
    · rw [if_neg hob, if_neg hob]
      exact .conflict ⟨rfl, rfl, rfl, rfl, rfl, .inl rfl⟩
  · rcases b with - | b
    swap
    · exact mergeChanged_swap hS b o t
    simp only
    by_cases hot : o = t
    · rw [if_pos hot, if_pos hot.symm, hot]
      exact .entry _ _
    rw [if_neg hot, if_neg (Ne.symm hot)]
    by_cases hoid : o.oid = t.oid
    · rw [if_pos hoid, if_pos hoid.symm, hoid, pickMode_comm]
      exact .entry _ _
    rw [if_neg hoid, if_neg (Ne.symm hoid)]
    have hmode : (if t.mode = o.mode then t.mode else "100644")
        = if o.mode = t.mode then o.mode else "100644" := by
      by_cases hmode : o.mode = t.mode
      · rw [if_pos hmode, if_pos hmode.symm, hmode]
      · rw [if_neg hmode, if_neg (Ne.symm hmode)]
    rw [hmode]
    exact mergeTexts_swap hS (.inl rfl)

/-! ### One side unchanged -/

variable {b o t : Option (FlatEntry Oid)}

theorem mergePath_of_ours_eq (htypes : typesDiffer (b.toList ++ o.toList ++ t.toList) = false)
    (h : o.bind FlatEntry.blob? = b.bind FlatEntry.blob?) :
    (mergePath S b o t).merged? = t.bind FlatEntry.blob? ∧
      (mergePath S b o t).conflict? = none := by
  simp only [mergePath, htypes, h]
  generalize b.bind FlatEntry.blob? = b
  generalize t.bind FlatEntry.blob? = t
  rcases b with - | b <;> rcases t with - | t
  · exact ⟨rfl, rfl⟩
  · exact ⟨rfl, rfl⟩
  · simp only [if_true]
    exact ⟨rfl, rfl⟩
  · simp only [mergeChanged, if_true]
    by_cases hbt : b = t
    · rw [if_pos hbt, hbt]
      exact ⟨rfl, rfl⟩
    · rw [if_neg hbt]
      exact ⟨rfl, rfl⟩

theorem mergePath_of_theirs_eq (htypes : typesDiffer (b.toList ++ o.toList ++ t.toList) = false)
    (h : t.bind FlatEntry.blob? = b.bind FlatEntry.blob?) :
    (mergePath S b o t).merged? = o.bind FlatEntry.blob? ∧
      (mergePath S b o t).conflict? = none := by
  simp only [mergePath, htypes, h]
  generalize b.bind FlatEntry.blob? = b
  generalize o.bind FlatEntry.blob? = o
  rcases b with - | b <;> rcases o with - | o
  · exact ⟨rfl, rfl⟩
  · exact ⟨rfl, rfl⟩
  · simp only [if_true]
    exact ⟨rfl, rfl⟩
  · simp only [mergeChanged, if_true]
    by_cases hob : o = b
    · rw [if_pos hob]
      exact ⟨rfl, rfl⟩
    · rw [if_neg hob, if_neg hob]
      exact ⟨rfl, rfl⟩

theorem mergePath_of_eq (htypes : typesDiffer (b.toList ++ o.toList ++ t.toList) = false)
    (h : o.bind FlatEntry.blob? = t.bind FlatEntry.blob?) :
    (mergePath S b o t).merged? = t.bind FlatEntry.blob? ∧
      (mergePath S b o t).conflict? = none := by
  simp only [mergePath, htypes, h]
  generalize b.bind FlatEntry.blob? = b
  generalize t.bind FlatEntry.blob? = t
  rcases b with - | b <;> rcases t with - | t
  · exact ⟨rfl, rfl⟩
  · simp only [if_true]
    exact ⟨rfl, rfl⟩
  · exact ⟨rfl, rfl⟩
  · simp only [mergeChanged, if_true]
    exact ⟨rfl, rfl⟩

/-! ### Absent files -/

omit [DecidableEq Oid] in
theorem mergeTexts_ne_absent {b : Option (BlobEntry Oid)} {o t : BlobEntry Oid}
    {kind : ConflictKind} {mode : String} : mergeTexts S b o t kind mode ≠ .absent := by
  unfold mergeTexts
  split
  · exact nofun
  · exact nofun
  · exact nofun

theorem mergeChanged_ne_absent {b o t : BlobEntry Oid} : mergeChanged S b o t ≠ .absent := by
  by_cases hot : o = t
  · rw [mergeChanged, if_pos hot]
    simp
  by_cases hob : o = b
  · simp only [mergeChanged, if_neg hot, if_pos hob]
    simp
  by_cases htb : t = b
  · simp only [mergeChanged, if_neg hot, if_neg hob, if_pos htb]
    simp
  rw [mergeChanged_both hot hob htb]
  split
  · exact mergeTexts_ne_absent
  · simp

omit [DecidableEq Oid] in
theorem eq_map_blob {u : Option (FlatEntry Oid)} (h : u ≠ some .tree) :
    u = (u.bind FlatEntry.blob?).map .blob := by
  match u with
  | none => rfl
  | some (.blob e) => rfl
  | some .tree => exact absurd rfl h

omit [DecidableEq Oid] in
theorem typesDiffer_iff {es : List (FlatEntry Oid)} :
    typesDiffer es = true ↔ .tree ∈ es ∧ ∃ e, .blob e ∈ es := by
  simp only [typesDiffer, Bool.and_eq_true, List.any_eq_true]
  constructor
  · rintro ⟨⟨u, hu, htree⟩, v, hv, hblob⟩
    cases u with
    | blob e => cases htree
    | tree =>
      cases v with
      | blob e => exact ⟨hu, e, hv⟩
      | tree => cases hblob
  · rintro ⟨htree, e, he⟩
    exact ⟨⟨_, htree, rfl⟩, _, he, rfl⟩

/-- The file was deleted on one side, and is as in the base on the other, or deleted there too. -/
def FileGone (b o t : Option (FlatEntry Oid)) : Prop :=
  (∃ e, b = some (.blob e)) ∧ ((o = none ∧ (t = none ∨ t = b)) ∨ (t = none ∧ o = b))

omit [DecidableEq Oid] in
theorem FileGone.typesDiffer (h : FileGone b o t) :
    typesDiffer (b.toList ++ o.toList ++ t.toList) = false := by
  obtain ⟨⟨e, rfl⟩, ⟨rfl, rfl | rfl⟩ | ⟨rfl, rfl⟩⟩ := h
  · rfl
  · rfl
  · rfl

/-- **When a file is in neither the merge nor a conflict.** -/
theorem mergePath_absent_iff (hfile : ∃ e, .blob e ∈ b.toList ++ o.toList ++ t.toList) :
    mergePath S b o t = .absent ↔ FileGone b o t := by
  by_cases htypes : typesDiffer (b.toList ++ o.toList ++ t.toList) = true
  · constructor
    · intro habsent
      rw [mergePath, if_pos htypes] at habsent
      cases habsent
    · intro hgone
      rw [hgone.typesDiffer] at htypes
      cases htypes
  -- no directory is there, so the entries are files
  have hnone : .tree ∉ b.toList ++ o.toList ++ t.toList := fun htree =>
    htypes (typesDiffer_iff.mpr ⟨htree, hfile⟩)
  simp only [mem_append, mem_toList, not_or] at hnone hfile
  obtain ⟨⟨hb, ho⟩, ht⟩ := hnone
  simp only [mergePath, if_neg htypes]
  rw [eq_map_blob hb, eq_map_blob ho, eq_map_blob ht] at hfile ⊢
  generalize b.bind FlatEntry.blob? = b at hfile ⊢
  generalize o.bind FlatEntry.blob? = o at hfile ⊢
  generalize t.bind FlatEntry.blob? = t at hfile ⊢
  rcases b with - | b <;> rcases o with - | o <;> rcases t with - | t
  · simp at hfile
  · simp [FileGone, FlatEntry.blob?]
  · simp [FileGone, FlatEntry.blob?]
  · refine iff_of_false ?_ (by simp [FileGone])
    simp only [map_some, map_none, bind_some, bind_none,
      FlatEntry.blob?]
    by_cases hot : o = t
    · rw [if_pos hot]
      simp
    by_cases hoid : o.oid = t.oid
    · rw [if_neg hot, if_pos hoid]
      simp
    · rw [if_neg hot, if_neg hoid]
      exact mergeTexts_ne_absent
  · simp [FileGone]
  · simp [FileGone, FlatEntry.blob?]
  · simp [FileGone, FlatEntry.blob?]
  · exact iff_of_false mergeChanged_ne_absent (by simp [FileGone])

end

/-! ## All paths -/

section

variable {Oid : Type}

/-- The path is a file in one of the trees and a directory in the other. -/
def FlatTree.Clash (x y : FlatTree Oid) (p : TreePath) : Prop :=
  typesDiffer ((x.get p).toList ++ (y.get p).toList) = true

/-- The outcome is the tree `x`, if no path is a file in `x` and a directory in `y`, or the other
way round; such a path is in conflict for its type, and no other path is in conflict. -/
structure MergesTo (out : MergeOutcome Oid) (x y : FlatTree Oid) : Prop where
  entries : ∀ p e, (p, e) ∈ out.mergedEntries ↔ x.file p = some e ∧ ¬x.Clash y p
  conflicts : ∀ p, (∃ c, (p, c) ∈ out.conflicts) ↔ x.Clash y p
  kind : ∀ p c, (p, c) ∈ out.conflicts → c.kind = .type
  clean : (out.conflicts = [] ∧ ∀ p e, (p, e) ∈ out.mergedEntries ↔ x.file p = some e) ↔
    ∀ p, ¬x.Clash y p

theorem MergesTo.of_parts {out : MergeOutcome Oid} {x y : FlatTree Oid}
    (entries : ∀ p e, (p, e) ∈ out.mergedEntries ↔ x.file p = some e ∧ ¬x.Clash y p)
    (conflicts : ∀ p, (∃ c, (p, c) ∈ out.conflicts) ↔ x.Clash y p)
    (kind : ∀ p c, (p, c) ∈ out.conflicts → c.kind = .type) : MergesTo out x y where
  entries := entries
  conflicts := conflicts
  kind := kind
  clean := by
    constructor
    · rintro ⟨hnone, -⟩ p hclash
      obtain ⟨c, hc⟩ := (conflicts p).mpr hclash
      rw [hnone] at hc
      cases hc
    · intro hagree
      refine ⟨eq_nil_iff_forall_not_mem.mpr fun ⟨p, c⟩ hc => ?_, fun p e => ?_⟩
      · exact hagree p ((conflicts p).mp ⟨c, hc⟩)
      · rw [entries, and_iff_left (hagree p)]

variable [DecidableEq Oid] {S : BlobStore Oid} {b o t x y : FlatTree Oid} {p : TreePath}

theorem MergesTo.of_paths
    (hclash : ∀ p, typesDiffer ((b.get p).toList ++ (o.get p).toList ++ (t.get p).toList) = true ↔
      x.Clash y p)
    (hpath : ∀ p, typesDiffer ((b.get p).toList ++ (o.get p).toList ++ (t.get p).toList) = false →
      (mergePath S (b.get p) (o.get p) (t.get p)).merged? = x.file p ∧
        (mergePath S (b.get p) (o.get p) (t.get p)).conflict? = none) :
    MergesTo (mergeTrees S b o t) x y := by
  have hcases : ∀ p, x.Clash y p ∧
        mergePath S (b.get p) (o.get p) (t.get p)
          = .conflict ⟨false, .type, b.file p, o.file p, t.file p, []⟩ ∨
      ¬x.Clash y p ∧ (mergePath S (b.get p) (o.get p) (t.get p)).merged? = x.file p ∧
        (mergePath S (b.get p) (o.get p) (t.get p)).conflict? = none := by
    intro p
    by_cases htypes : typesDiffer ((b.get p).toList ++ (o.get p).toList ++ (t.get p).toList) = true
    · refine .inl ⟨(hclash p).mp htypes, ?_⟩
      rw [mergePath, if_pos htypes]
      rfl
    · exact .inr ⟨fun h => htypes ((hclash p).mpr h), hpath p (Bool.eq_false_of_not_eq_true htypes)⟩
  refine .of_parts (fun p e => ?_) (fun p => ?_) fun p c hc => ?_
  · rw [mem_mergedEntries]
    rcases hcases p with ⟨hcl, heq⟩ | ⟨hcl, hmerged, -⟩
    · rw [heq]
      exact iff_of_false (fun hmerged => by cases hmerged) fun h => h.2 hcl
    · rw [hmerged, and_iff_left hcl]
  · simp only [mem_conflicts]
    rcases hcases p with ⟨hcl, heq⟩ | ⟨hcl, -, hnone⟩
    · rw [heq]
      exact iff_of_true ⟨_, rfl⟩ hcl
    · rw [hnone]
      exact iff_of_false (by simp) hcl
  · rw [mem_conflicts] at hc
    rcases hcases p with ⟨-, heq⟩ | ⟨-, -, hnone⟩
    · rw [heq] at hc
      cases hc
      rfl
    · rw [hnone] at hc
      cases hc

omit [DecidableEq Oid] in
theorem typesDiffer_congr {l l' : List (FlatEntry Oid)} (h : ∀ u, u ∈ l ↔ u ∈ l') :
    typesDiffer l = true ↔ typesDiffer l' = true := by
  simp only [typesDiffer_iff, h]

/-- **Ours unchanged**: the merge is theirs. -/
theorem mergesTo_theirs : MergesTo (mergeTrees S b b t) t b := by
  refine .of_paths (fun p => typesDiffer_congr fun u => ?_) fun p htypes =>
    mergePath_of_ours_eq htypes rfl
  simp only [mem_append]
  tauto

/-- **Theirs unchanged**: the merge is ours. -/
theorem mergesTo_ours : MergesTo (mergeTrees S b o b) o b := by
  refine .of_paths (fun p => typesDiffer_congr fun u => ?_) fun p htypes =>
    mergePath_of_theirs_eq htypes rfl
  simp only [mem_append]
  tauto

/-- **The same change on both sides**: the merge is that. -/
theorem mergesTo_both : MergesTo (mergeTrees S b x x) x b := by
  refine .of_paths (fun p => typesDiffer_congr fun u => ?_) fun p htypes =>
    mergePath_of_eq htypes rfl
  simp only [mem_append]
  tauto

/-! ### Where a file is found -/

/-- The file is among the merged ones, in conflict, or gone, and in one place only. -/
inductive Placed (out : MergeOutcome Oid) (gone : Prop) (p : TreePath) : Prop where
  | merged (e : BlobEntry Oid) (hmem : (p, e) ∈ out.mergedEntries)
      (hconflict : ∀ c, (p, c) ∉ out.conflicts) (hgone : ¬gone)
  | conflict (c : MergeConflict Oid) (hmem : (p, c) ∈ out.conflicts)
      (hmerged : ∀ e, (p, e) ∉ out.mergedEntries) (hgone : ¬gone)
  | gone (hgone : gone) (hmerged : ∀ e, (p, e) ∉ out.mergedEntries)
      (hconflict : ∀ c, (p, c) ∉ out.conflicts)

/-- **Every file of the three trees has one place.** -/
theorem placed (hfile : ∃ e, b.file p = some e ∨ o.file p = some e ∨ t.file p = some e) :
    Placed (mergeTrees S b o t) (FileGone (b.get p) (o.get p) (t.get p)) p := by
  have hblob : ∃ e, .blob e ∈ (b.get p).toList ++ (o.get p).toList ++ (t.get p).toList := by
    obtain ⟨e, he⟩ := hfile
    refine ⟨e, ?_⟩
    simp only [mem_append, mem_toList]
    rcases he with hb | ho | ht
    · exact .inl (.inl (FlatTree.get_of_file hb))
    · exact .inl (.inr (FlatTree.get_of_file ho))
    · exact .inr (FlatTree.get_of_file ht)
  have habsent := mergePath_absent_iff (S := S) hblob
  cases hpath : mergePath S (b.get p) (o.get p) (t.get p) with
  | absent =>
    refine .gone (habsent.mp hpath) (fun e he => ?_) fun c hc => ?_
    · rw [mem_mergedEntries, hpath] at he
      cases he
    · rw [mem_conflicts, hpath] at hc
      cases hc
  | entry e note =>
    refine .merged e ?_ (fun c hc => ?_) fun hgone => ?_
    · rw [mem_mergedEntries, hpath]
      rfl
    · rw [mem_conflicts, hpath] at hc
      cases hc
    · rw [habsent.mpr hgone] at hpath
      cases hpath
  | conflict c =>
    refine .conflict c ?_ (fun e he => ?_) fun hgone => ?_
    · rw [mem_conflicts, hpath]
      rfl
    · rw [mem_mergedEntries, hpath] at he
      cases he
    · rw [habsent.mpr hgone] at hpath
      cases hpath

omit [DecidableEq Oid] in
theorem map_fst_filterMap {α β : Type} (f : α → Option β) (l : List α) :
    (l.filterMap fun p => (f p).map (p, ·)).map Prod.fst = l.filter fun p => (f p).isSome := by
  induction l with
  | nil => rfl
  | cons p l ih =>
    rw [filterMap_cons, filter_cons]
    cases f p with
    | none => exact ih
    | some v => exact congrArg (p :: ·) ih

theorem nodup_mergeTrees :
    ((mergeTrees S b o t).mergedEntries.map Prod.fst).Nodup ∧
      ((mergeTrees S b o t).conflicts.map Prod.fst).Nodup := by
  simp only [mergeTrees, map_fst_filterMap]
  exact ⟨(nodup_dedup _).filter _, (nodup_dedup _).filter _⟩

/-- **No merged file is above another.** -/
theorem mergedEntries_wellFormed {q : TreePath} {e e' : BlobEntry Oid} (hq : q ≠ [])
    (hmem : (p, e) ∈ (mergeTrees S b o t).mergedEntries) :
    (p ++ q, e') ∉ (mergeTrees S b o t).mergedEntries := by
  intro hbelow
  rw [mem_mergedEntries] at hmem hbelow
  have hp : p ≠ [] := by
    rintro rfl
    rw [b.root, o.root, t.root] at hmem
    cases hmem
  -- a side has the lower file, and so a directory at the upper path
  have htree : o.get p = some .tree ∨ t.get p = some .tree := by
    by_cases ho : (o.get (p ++ q)).isSome
    · exact .inl (o.closed p q hp hq ho)
    by_cases ht : (t.get (p ++ q)).isSome
    · exact .inr (t.closed p q hp hq ht)
    rw [not_isSome_iff_eq_none] at ho ht
    rw [ho, ht, mergePath_absent] at hbelow
    cases hbelow
  by_cases htypes :
      typesDiffer ((b.get p).toList ++ (o.get p).toList ++ (t.get p).toList) = true
  · rw [mergePath, if_pos htypes] at hmem
    cases hmem
  -- with a directory there and no file, nothing is merged
  have hnone : ∀ u, u = b.get p ∨ u = o.get p ∨ u = t.get p → u.bind FlatEntry.blob? = none := by
    intro u hu
    rw [typesDiffer_iff, not_and] at htypes
    simp only [mem_append, mem_toList] at htypes
    have hfiles := htypes (htree.elim (fun h => .inl (.inr h)) .inr)
    cases u with
    | none => rfl
    | some entry =>
      cases entry with
      | tree => rfl
      | blob e =>
        refine absurd ⟨e, ?_⟩ hfiles
        rcases hu with hb | ho | ht
        · exact .inl (.inl hb.symm)
        · exact .inl (.inr ho.symm)
        · exact .inr ht.symm
  simp only [mergePath, if_neg htypes, hnone _ (.inl rfl), hnone _ (.inr (.inl rfl)),
    hnone _ (.inr (.inr rfl))] at hmem
  cases hmem

theorem typesDiffer_of_clean (hclean : (mergeTrees S b o t).conflicts = []) (p : TreePath) :
    typesDiffer ((b.get p).toList ++ (o.get p).toList ++ (t.get p).toList) = false := by
  by_contra htypes
  have hconflict : (p, ⟨false, .type, b.file p, o.file p, t.file p, []⟩) ∈
      (mergeTrees S b o t).conflicts := by
    rw [mem_conflicts, mergePath, if_pos (Bool.eq_true_of_not_eq_false htypes)]
    rfl
  rw [hclean] at hconflict
  cases hconflict

end

/-! ## The laws -/

structure MergeLaws {Oid : Type} [DecidableEq Oid] (S : BlobStore Oid) (b o t : FlatTree Oid) :
    Prop where
  theirs : MergesTo (mergeTrees S b b t) t b
  ours : MergesTo (mergeTrees S b o b) o b
  both : MergesTo (mergeTrees S b o o) o b
  swapEntries : ∀ p e,
    (p, e) ∈ (mergeTrees S b t o).mergedEntries ↔ (p, e) ∈ (mergeTrees S b o t).mergedEntries
  swapConflicts : ∀ p c, (p, c) ∈ (mergeTrees S b o t).conflicts →
    ∃ c', (p, c') ∈ (mergeTrees S b t o).conflicts ∧ c.Mirrors c'
  placed : ∀ p, (∃ e, b.file p = some e ∨ o.file p = some e ∨ t.file p = some e) →
    Placed (mergeTrees S b o t) (FileGone (b.get p) (o.get p) (t.get p)) p
  nodup : ((mergeTrees S b o t).mergedEntries.map Prod.fst).Nodup ∧
    ((mergeTrees S b o t).conflicts.map Prod.fst).Nodup
  wellFormed : ∀ p q e e', q ≠ [] → (p, e) ∈ (mergeTrees S b o t).mergedEntries →
    (p ++ q, e') ∉ (mergeTrees S b o t).mergedEntries
  /-- What only theirs has changed is in the merge, and what only ours has. -/
  oneSided : (mergeTrees S b o t).conflicts = [] → ∀ p,
    (o.file p = b.file p →
      ∀ e, (p, e) ∈ (mergeTrees S b o t).mergedEntries ↔ t.file p = some e) ∧
    (t.file p = b.file p →
      ∀ e, (p, e) ∈ (mergeTrees S b o t).mergedEntries ↔ o.file p = some e)

/-- **The laws of the three-way merge**, with a library that treats the sides alike. -/
theorem mergeTrees_laws {Oid : Type} [DecidableEq Oid] {T : MergeTools Oid}
    (hsym : T.Symmetric) (b o t : FlatTree Oid) : MergeLaws T.blobStore b o t where
  theirs := mergesTo_theirs
  ours := mergesTo_ours
  both := mergesTo_both
  swapEntries p e := by
    rw [mem_mergedEntries, mem_mergedEntries]
    have hswap := mergePath_swap hsym.balanced (b.get p) (o.get p) (t.get p)
    generalize mergePath T.blobStore (b.get p) (o.get p) (t.get p) = r at hswap ⊢
    generalize mergePath T.blobStore (b.get p) (t.get p) (o.get p) = r' at hswap ⊢
    cases hswap with
    | absent => exact Iff.rfl
    | entry => exact Iff.rfl
    | conflict => exact iff_of_false nofun nofun
  swapConflicts p c hc := by
    rw [mem_conflicts] at hc
    simp only [mem_conflicts]
    have hswap := mergePath_swap hsym.balanced (b.get p) (o.get p) (t.get p)
    generalize mergePath T.blobStore (b.get p) (o.get p) (t.get p) = r at hswap hc
    generalize mergePath T.blobStore (b.get p) (t.get p) (o.get p) = r' at hswap ⊢
    cases hswap with
    | absent => cases hc
    | entry => cases hc
    | conflict h =>
      cases hc
      exact ⟨_, rfl, h⟩
  placed p hfile := placed hfile
  nodup := nodup_mergeTrees
  wellFormed p q e e' hq hmem := mergedEntries_wellFormed hq hmem
  oneSided hclean p := by
    have htypes := typesDiffer_of_clean hclean p
    refine ⟨fun hours e => ?_, fun htheirs e => ?_⟩
    · rw [mem_mergedEntries, (mergePath_of_ours_eq htypes hours).1]
      exact Iff.rfl
    · rw [mem_mergedEntries, (mergePath_of_theirs_eq htypes htheirs).1]
      exact Iff.rfl

/-! ## Trees of one line -/

namespace OneLine

/-- `diff3Merge` on texts of one line. -/
def diff3 (ours base theirs : String) : List MergeRegion :=
  if ours = theirs ∨ theirs = base then [.ok [ours]]
  else if ours = base then [.ok [theirs]]
  else [.conflict ⟨[ours], [base], [theirs], 0, 0, 0⟩]

def tools : MergeTools Nat where
  readObject oid := [UInt8.ofNat oid]
  writeObject bytes := (bytes.headD 0).toNat
  diff3Merge := diff3

theorem tools_symmetric : tools.Symmetric := by
  intro ours base theirs
  show diff3 theirs base ours = (diff3 ours base theirs).map MergeRegion.swap
  unfold diff3
  by_cases hot : ours = theirs
  · rw [if_pos (.inl hot.symm), if_pos (.inl hot), hot]
    rfl
  have hswap : (theirs = ours ∨ ours = base) ↔ ours = base := or_iff_right (Ne.symm hot)
  have hthis : (ours = theirs ∨ theirs = base) ↔ theirs = base := or_iff_right hot
  simp only [hswap, hthis]
  by_cases hob : ours = base
  · have htb : theirs ≠ base := fun htb => hot (hob.trans htb.symm)
    rw [if_pos hob, if_neg htb, if_pos hob]
    rfl
  · by_cases htb : theirs = base
    · rw [if_neg hob, if_pos htb, if_pos htb]
      rfl
    · rw [if_neg hob, if_neg htb, if_neg htb, if_neg hob]
      rfl

def tree (path : TreePath) (oid : Nat) : FlatTree Nat := writeTreeFromFlat [(path, ⟨oid, "100644"⟩)]

theorem swapped_hunk :
    ∃ c', (["f"], c') ∈ (mergeTrees tools.blobStore (tree ["f"] 97) (tree ["f"] 99)
        (tree ["f"] 98)).conflicts ∧ c'.hunks = [⟨["c"], ["a"], ["b"], 0, 0, 0⟩] := by
  have hlaws := mergeTrees_laws tools_symmetric (tree ["f"] 97) (tree ["f"] 98) (tree ["f"] 99)
  have hconflict : (["f"], ⟨true, .text, some ⟨97, "100644"⟩, some ⟨98, "100644"⟩,
      some ⟨99, "100644"⟩, [⟨["b"], ["a"], ["c"], 0, 0, 0⟩]⟩) ∈ (mergeTrees tools.blobStore
        (tree ["f"] 97) (tree ["f"] 98) (tree ["f"] 99)).conflicts := by
    rw [mem_conflicts]
    decide +kernel
  obtain ⟨c', hmem, hmirrors⟩ := hlaws.swapConflicts ["f"] _ hconflict
  exact ⟨c', hmem, hmirrors.hunks⟩

theorem directory_in_conflict :
    (mergeTrees tools.blobStore (tree ["p"] 97) (tree ["p"] 97) (tree ["p", "q"] 97)).conflicts
      ≠ [] := by
  decide +kernel

end OneLine

end Dweb
