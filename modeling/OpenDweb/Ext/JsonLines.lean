import OpenDweb.Lib.JsText
import OpenDweb.Lib.Trim
import OpenDweb.Lib.Utf8Lossy

/-!
# OpenDweb — lines of JSON in a bounded body

`readBoundedJsonLines` of `opendweb-ext-sync/src/util.mjs`: a body is read line by line, from the
array that it is or from the chunks in which it arrives, under a limit for the whole and one for
each line. `JSON.parse` is a parameter.

* **`Yielded`** — what a generator yields, and what it throws in the end.
* **`cutLines`** — the lines of a byte string, a chunk at a time (`cutLines_append`).
* **`readStream_eq`** — within the limits the chunks give the lines of the whole.
* **`json_lines_iff`** — where the two readers do the same.
-/

namespace Dweb

open List Option

/-! ## Generators -/

/-- A generator's run: the values it yields, and what it throws after the last of them. -/
@[ext] structure Yielded (ε α : Type*) where
  values : List α
  thrown : Option ε
  deriving DecidableEq

namespace Yielded

variable {ε α : Type*} {a b c : Yielded ε α}

def nothing : Yielded ε α := ⟨[], none⟩

def throw (e : ε) : Yielded ε α := ⟨[], some e⟩

/-- The one, and the other if the first does not throw. -/
def andThen (a b : Yielded ε α) : Yielded ε α :=
  match a.thrown with
  | none => ⟨a.values ++ b.values, b.thrown⟩
  | some _ => a

theorem andThen_of_none (h : a.thrown = none) : a.andThen b = ⟨a.values ++ b.values, b.thrown⟩ := by
  unfold andThen
  rw [h]

theorem andThen_of_some {e : ε} (h : a.thrown = some e) : a.andThen b = a := by
  unfold andThen
  rw [h]

theorem andThen_assoc : (a.andThen b).andThen c = a.andThen (b.andThen c) := by
  cases ha : a.thrown with
  | some e => rw [andThen_of_some ha, andThen_of_some ha, andThen_of_some ha]
  | none =>
    rw [andThen_of_none ha, andThen_of_none ha]
    cases hb : b.thrown with
    | some e =>
      rw [andThen_of_some hb, hb]
      rfl
    | none => rw [andThen_of_none rfl, andThen_of_none hb, append_assoc]

theorem andThen_thrown_eq_none :
    (a.andThen b).thrown = none ↔ a.thrown = none ∧ b.thrown = none := by
  cases ha : a.thrown with
  | some e =>
    rw [andThen_of_some ha, ha]
    exact iff_of_false (some_ne_none e) fun h => some_ne_none e h.1
  | none =>
    rw [andThen_of_none ha]
    exact (and_iff_right rfl).symm

theorem andThen_values_prefix {as bs : List α} (ha : a.values <+: as)
    (hall : a.thrown = none → a.values = as) (hb : b.values <+: bs) :
    (a.andThen b).values <+: as ++ bs := by
  cases h : a.thrown with
  | some e =>
    rw [andThen_of_some h]
    exact ha.trans (prefix_append as bs)
  | none =>
    rw [andThen_of_none h, hall h]
    exact (prefix_append_right_inj as).mpr hb

end Yielded

/-! ## The readers -/

/-- `limits`, without the signal. -/
structure LineLimits where
  maxTotal : Nat
  maxLine : Nat := 64 * 1024 * 1024

/-- What a reader throws: `thrown` is the error of `JSON.parse`, or of the body. -/
inductive LinesError (ε : Type*) where
  | aborted
  | bodyTooLarge (maxBytes : Nat)
  | lineTooLarge (maxLine : Nat)
  | thrown (e : ε)
  deriving DecidableEq

/-- What comes next of a body: a chunk, or that the signal wins the race, or an error. -/
inductive NextChunk (ε : Type*) where
  | chunk (bytes : Bytes)
  | aborted
  | failed (e : ε)

/-- `line.toString("utf8").trim()`. -/
def lineText (line : Bytes) : String := String.ofList (jsTrim (fromUtf8Lossy line))

section

variable {ε α : Type*} (parse : String → Except ε α) (limits : LineLimits)

/-- `yield JSON.parse(text)`. -/
def yieldJson (text : String) : Yielded (LinesError ε) α :=
  match parse text with
  | .ok value => ⟨[value], none⟩
  | .error e => .throw (.thrown e)

def readLine (line : Bytes) : Yielded (LinesError ε) α :=
  if limits.maxLine < line.length then .throw (.lineTooLarge limits.maxLine)
  else
    let text := lineText line
    if text ≠ "" then yieldJson parse text else .nothing

/-- The loop over `indexOf(0x0a, start)`, byte by byte: the lines that end in the buffer, and what
is left of it. -/
def takeLines (line : Bytes) : Bytes → Yielded (LinesError ε) α × Bytes
  | [] => (.nothing, line)
  | b :: bytes =>
    if b = 0x0a then
      let (yielded, rest) := takeLines [] bytes
      ((readLine parse limits line).andThen yielded, rest)
    else takeLines (line ++ [b]) bytes

def readWhole (all : Bytes) : Yielded (LinesError ε) α :=
  if limits.maxTotal < all.length then .throw (.bodyTooLarge limits.maxTotal)
  else
    let (yielded, start) := takeLines parse limits [] all
    let rest := lineText start
    yielded.andThen <|
      if rest ≠ "" then
        if limits.maxLine < utf16Length rest then .throw (.lineTooLarge limits.maxLine)
        else yieldJson parse rest
      else .nothing

def readStream (pending : Bytes) (total : Nat) : List (NextChunk ε) → Yielded (LinesError ε) α
  | [] =>
    let restText := lineText pending
    if restText ≠ "" then
      if limits.maxLine < pending.length then .throw (.lineTooLarge limits.maxLine)
      else yieldJson parse restText
    else .nothing
  | .aborted :: _ => .throw .aborted
  | .failed e :: _ => .throw (.thrown e)
  | .chunk chunk :: nexts =>
    let total := total + chunk.length
    if limits.maxTotal < total then .throw (.bodyTooLarge limits.maxTotal)
    else
      let (yielded, pending) := takeLines parse limits [] (pending ++ chunk)
      yielded.andThen <|
        if limits.maxLine < pending.length then .throw (.lineTooLarge limits.maxLine)
        else readStream pending total nexts

inductive LinesBody (ε : Type*) where
  | null
  | array (all : Bytes)
  | stream (nexts : List (NextChunk ε))

/-- `readBoundedJsonLines`; `aborted` is what the signal says as it begins. -/
def LinesBody.readBoundedJsonLines (aborted : Bool) : LinesBody ε → Yielded (LinesError ε) α
  | .null => .nothing
  | .array all => if aborted then .throw .aborted else readWhole parse limits all
  | .stream nexts => if aborted then .throw .aborted else readStream parse limits [] 0 nexts

end

/-! ## Lines -/

/-- The lines that end in the bytes behind a line begun, and the line that they leave. -/
def cutLines (line : Bytes) : Bytes → List Bytes × Bytes
  | [] => ([], line)
  | b :: bytes =>
    if b = 0x0a then
      let (lines, last) := cutLines [] bytes
      (line :: lines, last)
    else cutLines (line ++ [b]) bytes

def bodyLines (all : Bytes) : List Bytes := (cutLines [] all).1 ++ [(cutLines [] all).2]

section

variable {line bytes a b : Bytes}

theorem cutLines_append :
    cutLines line (a ++ b) = ((cutLines line a).1 ++ (cutLines (cutLines line a).2 b).1,
      (cutLines (cutLines line a).2 b).2) := by
  induction a generalizing line with
  | nil => rfl
  | cons x a ih =>
    rw [cons_append, cutLines, cutLines, ih, ih]
    split <;> rfl

theorem cutLines_of_not_mem (h : (0x0a : UInt8) ∉ bytes) :
    cutLines line bytes = ([], line ++ bytes) := by
  induction bytes generalizing line with
  | nil => rw [cutLines, append_nil]
  | cons x bytes ih =>
    obtain ⟨hx, hbytes⟩ := ne_and_not_mem_of_not_mem_cons h
    rw [cutLines, if_neg hx.symm, ih hbytes, append_assoc]
    rfl

/-- **What the lines are**: none has a line feed in it, and with line feeds between them they are
the bytes. -/
theorem cutLines_spec (h : (0x0a : UInt8) ∉ line) :
    (∀ l ∈ (cutLines line bytes).1, (0x0a : UInt8) ∉ l) ∧
      (0x0a : UInt8) ∉ (cutLines line bytes).2 ∧
      (cutLines line bytes).1.flatMap (· ++ [0x0a]) ++ (cutLines line bytes).2 = line ++ bytes := by
  induction bytes generalizing line with
  | nil => exact ⟨fun l hl => absurd hl not_mem_nil, h, (append_nil line).symm⟩
  | cons x bytes ih =>
    rw [cutLines]
    split
    · next hx =>
      obtain ⟨hlines, hlast, hback⟩ := @ih [] not_mem_nil
      refine ⟨forall_mem_cons.mpr ⟨h, hlines⟩, hlast, ?_⟩
      rw [flatMap_cons, append_assoc, hback, hx, append_assoc]
      rfl
    · next hx =>
      have hline : (0x0a : UInt8) ∉ line ++ [x] := by
        rw [mem_append, mem_singleton]
        exact fun hmem => hmem.elim h fun heq => hx heq.symm
      obtain ⟨hlines, hlast, hback⟩ := ih hline
      exact ⟨hlines, hlast, by rw [hback, append_assoc]; rfl⟩

theorem not_mem_cutLines (h : (0x0a : UInt8) ∉ line) : (0x0a : UInt8) ∉ (cutLines line bytes).2 :=
  (cutLines_spec h).2.1

theorem exists_line_ge (line bytes : Bytes) :
    ∃ l ∈ (cutLines line bytes).1 ++ [(cutLines line bytes).2], line.length ≤ l.length := by
  induction bytes generalizing line with
  | nil => exact ⟨line, mem_cons_self, Nat.le_refl _⟩
  | cons x bytes ih =>
    rw [cutLines]
    split
    · exact ⟨line, mem_cons_self, Nat.le_refl _⟩
    · obtain ⟨l, hl, hle⟩ := ih (line ++ [x])
      rw [length_append] at hle
      exact ⟨l, hl, by omega⟩

end

/-! ## Lengths -/

theorem toNat_ofNat_le (n : Nat) : (Char.ofNat n).toNat ≤ n := by
  unfold Char.ofNat
  split
  · exact Nat.le_refl n
  · exact Nat.zero_le n

theorem units_utf8Head (b : UInt8) (rest : Bytes) :
    1 ≤ (utf8Head b rest).2 ∧
      (0x10000 ≤ ((utf8Head b rest).1.getD replacementChar).toNat →
        2 ≤ (utf8Head b rest).2 ∧ (utf8Head b rest).2 ≤ rest.length + 1) := by
  unfold utf8Head
  dsimp only
  split
  · -- of one byte, a character is below U+0080
    refine ⟨Nat.le_refl 1, fun hle => ?_⟩
    have hsmall := toNat_ofNat_le b.toNat
    rw [getD_some] at hle
    omega
  · have hreplaced : ¬0x10000 ≤ (Option.getD none replacementChar).toNat := by decide
    repeat' split
    all_goals first
      | exact ⟨Nat.le_add_left 1 _, fun _ => ⟨Nat.le_add_left 2 _, Nat.le_add_left _ _⟩⟩
      | exact ⟨Nat.le_add_left 1 _, fun hle => absurd hle hreplaced⟩

theorem units_lossyLoop_le (fuel : Nat) (bytes : Bytes) :
    ((lossyLoop fuel bytes).map fun c => if 0x10000 ≤ c.toNat then 2 else 1).sum
      ≤ bytes.length := by
  induction fuel generalizing bytes with
  | zero => exact Nat.zero_le _
  | succ fuel ih =>
    cases bytes with
    | nil => exact Nat.zero_le _
    | cons b rest =>
      obtain ⟨hone, htwo⟩ := units_utf8Head b rest
      have hrest := ih ((b :: rest).drop (utf8Head b rest).2)
      rw [length_drop] at hrest
      rw [lossyLoop, map_cons, sum_cons, length_cons] at *
      split
      · next hle =>
        have := htwo hle
        omega
      · omega

/-- **A text has no more code units than bytes.** -/
theorem utf16Length_lineText_le (line : Bytes) : utf16Length (lineText line) ≤ line.length := by
  refine Nat.le_trans ?_ (units_lossyLoop_le line.length line)
  have hsub : (jsTrim (fromUtf8Lossy line)).Sublist (fromUtf8Lossy line) := trimBy_sublist
  rw [lineText, utf16Length, String.toList_ofList]
  exact (hsub.map _).sum_le_sum fun _ _ => Nat.zero_le _

/-! ## What the lines give -/

/-- The value of a line: a blank one has none, and one that is no JSON neither. -/
def lineValue {ε α : Type*} (parse : String → Except ε α) (line : Bytes) : List α :=
  if lineText line = "" then [] else (parse (lineText line)).toOption.toList

def Readable {ε α : Type*} (parse : String → Except ε α) (line : Bytes) : Prop :=
  lineText line = "" ∨ ∃ value, parse (lineText line) = .ok value

def readText {ε α : Type*} (parse : String → Except ε α) (line : Bytes) :
    Yielded (LinesError ε) α :=
  if lineText line ≠ "" then yieldJson parse (lineText line) else .nothing

def readLines {ε α : Type*} (parse : String → Except ε α) (limits : LineLimits) :
    List Bytes → Yielded (LinesError ε) α
  | [] => .nothing
  | line :: lines => (readLine parse limits line).andThen (readLines parse limits lines)

section

variable {ε α : Type*} {parse : String → Except ε α} {limits : LineLimits} {line pending : Bytes}
  {total : Nat}

theorem readText_values : (readText parse line).values = lineValue parse line := by
  unfold readText lineValue
  by_cases hblank : lineText line = ""
  · rw [if_neg (not_not.mpr hblank), if_pos hblank]
    rfl
  · rw [if_pos hblank, if_neg hblank, yieldJson]
    cases parse (lineText line) <;> rfl

theorem readText_thrown : (readText parse line).thrown = none ↔ Readable parse line := by
  unfold readText Readable
  by_cases hblank : lineText line = ""
  · rw [if_neg (not_not.mpr hblank)]
    exact iff_of_true rfl (.inl hblank)
  · rw [if_pos hblank, or_iff_right hblank, yieldJson]
    cases parse (lineText line) with
    | ok value => exact iff_of_true rfl ⟨value, rfl⟩
    | error e => exact iff_of_false (some_ne_none _) fun ⟨_, h⟩ => nomatch h

theorem readLine_of_le (h : line.length ≤ limits.maxLine) :
    readLine parse limits line = readText parse line :=
  if_neg (Nat.not_lt.mpr h)

theorem readLine_thrown :
    (readLine parse limits line).thrown = none ↔
      line.length ≤ limits.maxLine ∧ Readable parse line := by
  by_cases hle : line.length ≤ limits.maxLine
  · rw [readLine_of_le hle, readText_thrown, and_iff_right hle]
  · rw [readLine, if_pos (Nat.lt_of_not_le hle)]
    exact iff_of_false (some_ne_none _) fun h => hle h.1

theorem readLine_values :
    (readLine parse limits line).values <+: lineValue parse line ∧
      ((readLine parse limits line).thrown = none →
        (readLine parse limits line).values = lineValue parse line) := by
  by_cases hle : line.length ≤ limits.maxLine
  · rw [readLine_of_le hle, readText_values]
    exact ⟨prefix_refl _, fun _ => rfl⟩
  · rw [readLine, if_pos (Nat.lt_of_not_le hle)]
    exact ⟨List.nil_prefix, fun h => absurd h (some_ne_none _)⟩

theorem readLines_append (a b : List Bytes) :
    readLines parse limits (a ++ b)
      = (readLines parse limits a).andThen (readLines parse limits b) := by
  induction a with
  | nil => rfl
  | cons line a ih => rw [cons_append, readLines, readLines, ih, Yielded.andThen_assoc]

theorem readLines_thrown (lines : List Bytes) :
    (readLines parse limits lines).thrown = none ↔
      ∀ line ∈ lines, line.length ≤ limits.maxLine ∧ Readable parse line := by
  induction lines with
  | nil => exact iff_of_true rfl fun l hl => absurd hl not_mem_nil
  | cons line lines ih =>
    rw [readLines, Yielded.andThen_thrown_eq_none, readLine_thrown, ih, forall_mem_cons]

theorem readLines_values (lines : List Bytes) :
    (readLines parse limits lines).values <+: lines.flatMap (lineValue parse) ∧
      ((readLines parse limits lines).thrown = none →
        (readLines parse limits lines).values = lines.flatMap (lineValue parse)) := by
  induction lines with
  | nil => exact ⟨prefix_refl _, fun _ => rfl⟩
  | cons line lines ih =>
    rw [readLines, flatMap_cons]
    refine ⟨Yielded.andThen_values_prefix readLine_values.1 readLine_values.2 ih.1, fun h => ?_⟩
    obtain ⟨hline, hlines⟩ := Yielded.andThen_thrown_eq_none.mp h
    rw [Yielded.andThen_of_none hline, readLine_values.2 hline, ih.2 hlines]

/-- **The loop takes the lines one after the other.** -/
theorem takeLines_eq (line bytes : Bytes) :
    takeLines parse limits line bytes
      = (readLines parse limits (cutLines line bytes).1, (cutLines line bytes).2) := by
  induction bytes generalizing line with
  | nil => rfl
  | cons x bytes ih =>
    rw [takeLines, cutLines, ih, ih]
    split <;> rfl

theorem takeLines_pending (hpending : (0x0a : UInt8) ∉ pending) (chunk : Bytes) :
    takeLines parse limits [] (pending ++ chunk)
      = (readLines parse limits (cutLines pending chunk).1, (cutLines pending chunk).2) := by
  rw [takeLines_eq, cutLines_append, cutLines_of_not_mem hpending]
  rfl

/-! ## A stream -/

def arrived : List (NextChunk ε) → Bytes
  | [] => []
  | .chunk bytes :: nexts => bytes ++ arrived nexts
  | _ :: nexts => arrived nexts

/-- **Within the limits**, chunks give the lines of the whole. -/
theorem readStream_eq (chunks : List Bytes) (hpending : (0x0a : UInt8) ∉ pending)
    (htotal : total + chunks.flatten.length ≤ limits.maxTotal)
    (hlines : ∀ l ∈ (cutLines pending chunks.flatten).1 ++ [(cutLines pending chunks.flatten).2],
      l.length ≤ limits.maxLine) :
    readStream parse limits pending total (chunks.map .chunk)
      = (readLines parse limits (cutLines pending chunks.flatten).1).andThen
          (readText parse (cutLines pending chunks.flatten).2) := by
  induction chunks generalizing pending total with
  | nil =>
    have hle : pending.length ≤ limits.maxLine := hlines pending mem_cons_self
    show (if lineText pending ≠ "" then
      if limits.maxLine < pending.length then _ else _ else _) = _
    rw [if_neg (Nat.not_lt.mpr hle)]
    rfl
  | cons chunk chunks ih =>
    rw [flatten_cons, length_append] at htotal
    rw [flatten_cons, cutLines_append] at hlines ⊢
    rw [map_cons, readStream, if_neg (by omega), takeLines_pending hpending]
    have hrest := fun l hl => hlines l (append_assoc _ _ _ ▸ mem_append_right _ hl)
    -- what is left of the buffer is the start of a line
    have hle : (cutLines pending chunk).2.length ≤ limits.maxLine := by
      obtain ⟨l, hl, hle⟩ := exists_line_ge (cutLines pending chunk).2 chunks.flatten
      exact Nat.le_trans hle (hrest l hl)
    dsimp only
    rw [if_neg (Nat.not_lt.mpr hle), ih (not_mem_cutLines hpending) (by omega) hrest,
      readLines_append, Yielded.andThen_assoc]

/-- **Outside the limits**, there is an error. -/
theorem fits_of_readStream (chunks : List Bytes) (hpending : (0x0a : UInt8) ∉ pending)
    (htotal : total ≤ limits.maxTotal) (hle : pending.length ≤ limits.maxLine)
    (h : (readStream parse limits pending total (chunks.map .chunk)).thrown = none) :
    total + chunks.flatten.length ≤ limits.maxTotal ∧
      ∀ l ∈ (cutLines pending chunks.flatten).1 ++ [(cutLines pending chunks.flatten).2],
        l.length ≤ limits.maxLine := by
  induction chunks generalizing pending total with
  | nil => exact ⟨htotal, fun l hl => by rwa [mem_singleton.mp hl]⟩
  | cons chunk chunks ih =>
    rw [map_cons, readStream] at h
    split at h
    · cases h
    · next hsum =>
      rw [takeLines_pending hpending] at h
      obtain ⟨hfirst, h⟩ := Yielded.andThen_thrown_eq_none.mp h
      split at h
      · cases h
      · next hshort =>
        obtain ⟨htotal', hlines⟩ :=
          ih (not_mem_cutLines hpending) (Nat.le_of_not_lt hsum) (Nat.le_of_not_lt hshort) h
        rw [flatten_cons, length_append, cutLines_append]
        refine ⟨by omega, fun l hl => ?_⟩
        rw [append_assoc] at hl
        rcases mem_append.mp hl with hl | hl
        · exact ((readLines_thrown _).mp hfirst l hl).1
        · exact hlines l hl

/-- **What is yielded** are the first values of the lines, however the stream ends. -/
theorem readStream_values_prefix (nexts : List (NextChunk ε))
    (hpending : (0x0a : UInt8) ∉ pending) :
    (readStream parse limits pending total nexts).values
      <+: ((cutLines pending (arrived nexts)).1 ++ [(cutLines pending (arrived nexts)).2]).flatMap
        (lineValue parse) := by
  induction nexts generalizing pending total with
  | nil =>
    show (if lineText pending ≠ "" then
      if limits.maxLine < pending.length then _ else _ else _ : Yielded (LinesError ε) α).values
        <+: [pending].flatMap (lineValue parse)
    rw [flatMap_cons, flatMap_nil, append_nil, ← readText_values]
    unfold readText
    split
    · split
      · exact nil_prefix
      · exact prefix_refl _
    · exact prefix_refl _
  | cons next nexts ih =>
    cases next with
    | aborted => exact nil_prefix
    | failed e => exact nil_prefix
    | chunk chunk =>
      rw [readStream, arrived, cutLines_append]
      split
      · exact nil_prefix
      · rw [takeLines_pending hpending, append_assoc, flatMap_append]
        refine Yielded.andThen_values_prefix (readLines_values _).1 (readLines_values _).2 ?_
        split
        · exact nil_prefix
        · exact ih (not_mem_cutLines hpending)

/-! ## One array -/

def Fits (limits : LineLimits) (all : Bytes) : Prop :=
  all.length ≤ limits.maxTotal ∧ ∀ line ∈ bodyLines all, line.length ≤ limits.maxLine

/-- The last line, when it is not ended, is measured as a text; a blank one is not at all. -/
def RestFits (parse : String → Except ε α) (limits : LineLimits) (last : Bytes) : Prop :=
  lineText last = "" ∨
    utf16Length (lineText last) ≤ limits.maxLine ∧ ∃ value, parse (lineText last) = .ok value

/-- A line that is too long, and that nothing but its end tells from one that is not. -/
def Overlooked (parse : String → Except ε α) (limits : LineLimits) (all : Bytes) : Prop :=
  all.length ≤ limits.maxTotal ∧
    (∀ line ∈ (cutLines [] all).1, line.length ≤ limits.maxLine ∧ Readable parse line) ∧
    RestFits parse limits (cutLines [] all).2 ∧ limits.maxLine < (cutLines [] all).2.length

variable {all : Bytes}

theorem readWhole_of_fits (h : Fits limits all) :
    readWhole parse limits all
      = (readLines parse limits (cutLines [] all).1).andThen
          (readText parse (cutLines [] all).2) := by
  have hlast : (cutLines [] all).2.length ≤ limits.maxLine :=
    h.2 _ (mem_append_right _ mem_cons_self)
  have hunits := Nat.le_trans (utf16Length_lineText_le (cutLines [] all).2) hlast
  rw [readWhole, if_neg (Nat.not_lt.mpr h.1), takeLines_eq]
  dsimp only
  rw [if_neg (Nat.not_lt.mpr hunits)]
  rfl

theorem readWhole_thrown :
    (readWhole parse limits all).thrown = none ↔
      all.length ≤ limits.maxTotal ∧
        (∀ line ∈ (cutLines [] all).1, line.length ≤ limits.maxLine ∧ Readable parse line) ∧
        RestFits parse limits (cutLines [] all).2 := by
  rw [readWhole]
  split
  · next hlt => exact iff_of_false (some_ne_none _) fun h => absurd h.1 (Nat.not_le.mpr hlt)
  · next hle =>
    rw [takeLines_eq, Yielded.andThen_thrown_eq_none, readLines_thrown,
      and_iff_right (Nat.le_of_not_lt hle)]
    refine and_congr_right fun _ => ?_
    by_cases hblank : lineText (cutLines [] all).2 = ""
    · rw [if_neg (not_not.mpr hblank)]
      exact iff_of_true rfl (.inl hblank)
    · rw [if_pos hblank, RestFits, or_iff_right hblank]
      split
      · next hlt =>
        exact iff_of_false (some_ne_none _) fun h => absurd h.1 (Nat.not_le.mpr hlt)
      · next hshort =>
        rw [and_iff_right (Nat.le_of_not_lt hshort), yieldJson]
        cases parse (lineText (cutLines [] all).2) with
        | ok value => exact iff_of_true rfl ⟨value, rfl⟩
        | error e => exact iff_of_false (some_ne_none _) fun ⟨_, h⟩ => nomatch h

theorem readWhole_values_prefix :
    (readWhole parse limits all).values <+: (bodyLines all).flatMap (lineValue parse) := by
  rw [readWhole]
  split
  · exact nil_prefix
  · rw [takeLines_eq, bodyLines, flatMap_append]
    refine Yielded.andThen_values_prefix (readLines_values _).1 (readLines_values _).2 ?_
    rw [flatMap_cons, flatMap_nil, append_nil, ← readText_values]
    unfold readText
    split
    · split
      · exact nil_prefix
      · exact prefix_refl _
    · exact prefix_refl _

def LinesBody.bytes : LinesBody ε → Bytes
  | .null => []
  | .array all => all
  | .stream nexts => arrived nexts

theorem LinesBody.readBoundedJsonLines_values_prefix (aborted : Bool) (body : LinesBody ε) :
    (LinesBody.readBoundedJsonLines parse limits aborted body).values
      <+: (bodyLines body.bytes).flatMap (lineValue parse) := by
  cases body with
  | null => exact nil_prefix
  | array all =>
    cases aborted with
    | true => exact nil_prefix
    | false => exact readWhole_values_prefix
  | stream nexts =>
    cases aborted with
    | true => exact nil_prefix
    | false => exact readStream_values_prefix nexts not_mem_nil

end

/-- **Where the two readers do the same**: chunks or one array, a body within the limits gives the
same values, and one outside of them an error; only what is behind the last line feed may be too
long and be read as one array. -/
theorem json_lines_iff {ε α : Type*} (parse : String → Except ε α) (limits : LineLimits)
    (all : Bytes) :
    ((∀ chunks : List Bytes, chunks.flatten = all →
        (Fits limits all →
          LinesBody.readBoundedJsonLines parse limits false (.stream (chunks.map .chunk))
            = LinesBody.readBoundedJsonLines parse limits false (.array all)) ∧
        (¬Fits limits all →
          (LinesBody.readBoundedJsonLines parse limits false
            (.stream (chunks.map .chunk))).thrown ≠ none ∧
          (LinesBody.readBoundedJsonLines parse limits false (.array all)).thrown ≠ none)) ∧
      ∀ aborted body, LinesBody.bytes body = all →
        (LinesBody.readBoundedJsonLines parse limits aborted body).values
          <+: (bodyLines all).flatMap (lineValue parse)) ↔
      ¬Overlooked parse limits all := by
  constructor
  · rintro ⟨hsame, -⟩ ⟨htotal, hlines, hrest, hlong⟩
    have hfits : ¬Fits limits all := fun h =>
      absurd (h.2 _ (mem_append_right _ mem_cons_self)) (Nat.not_le.mpr hlong)
    obtain ⟨-, harray⟩ := (hsame [all] (append_nil all)).2 hfits
    exact harray (readWhole_thrown.mpr ⟨htotal, hlines, hrest⟩)
  · intro hnot
    refine ⟨?_, fun aborted body hbody =>
      hbody ▸ LinesBody.readBoundedJsonLines_values_prefix aborted body⟩
    rintro chunks rfl
    refine ⟨fun hfits => ?_, fun hfits => ⟨fun hstream => ?_, fun harray => ?_⟩⟩
    · show readStream parse limits [] 0 (chunks.map .chunk) = readWhole parse limits chunks.flatten
      rw [readWhole_of_fits hfits]
      exact readStream_eq chunks not_mem_nil (by rw [Nat.zero_add]; exact hfits.1) hfits.2
    · have h := fits_of_readStream chunks not_mem_nil (Nat.zero_le _) (Nat.zero_le _) hstream
      rw [Nat.zero_add] at h
      exact hfits h
    · obtain ⟨htotal, hlines, hrest⟩ := readWhole_thrown.mp harray
      refine hnot ⟨htotal, hlines, hrest, Nat.lt_of_not_le fun hle => hfits ⟨htotal, ?_⟩⟩
      intro line hline
      rcases mem_append.mp hline with hline | hline
      · exact (hlines line hline).1
      · rwa [mem_singleton.mp hline]

/-- `JSON.parse` of a text of one digit. -/
def parseDigit (text : String) : Except Unit Nat :=
  match text.toList with
  | [c] => if '0' ≤ c ∧ c ≤ '9' then .ok (c.toNat - '0'.toNat) else .error ()
  | _ => .error ()

theorem json_lines_counterexample :
    let limits : LineLimits := { maxTotal := 8, maxLine := 1 }
    (∃ line ∈ bodyLines [0x31, 0x20], limits.maxLine < line.length) ∧
      LinesBody.readBoundedJsonLines parseDigit limits false (.array [0x31, 0x20]) = ⟨[1], none⟩ ∧
      LinesBody.readBoundedJsonLines parseDigit limits false (.stream [.chunk [0x31, 0x20]])
        = .throw (.lineTooLarge 1) := by
  refine ⟨⟨[0x31, 0x20], ?_, ?_⟩, ?_, ?_⟩ <;> decide

end Dweb
