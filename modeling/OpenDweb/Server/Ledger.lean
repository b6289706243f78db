import OpenDweb.Lib.Except
import OpenDweb.Lib.Text

/-!
# OpenDweb — append-only jsonl ledgers

The four ledgers of the server (owners, visitors, codes, blocklist) share one storage
discipline: one line of JSON for each event, appended and synced before memory changes, and
read back as a whole, any malformed line failing the whole file.

* **`RecordCodec`** — `serde_json` at one record type; **`RecordCodec.Lawful`** is what the
  ledgers rely on.
* **`appendLine`** — with every way it can fail, and what of the line is then in the file.
* **`readRecords`** — line by line, with the texts of its errors.
* **`readRecords_lines`** — what was appended in full is read back.
-/

namespace Dweb

open List

/-! ## Records as text -/

/-- `serde_json::to_string` and `serde_json::from_str` at one record type. -/
structure RecordCodec (R : Type*) where
  encode : R → String
  decode : String → Option R

/-- A record is written as a JSON object on one line and read back; the object is over at its
last brace, where nothing but blanks may follow. -/
structure RecordCodec.Lawful {R : Type*} (c : RecordCodec R) : Prop where
  decode_encode : ∀ r, c.decode (c.encode r) = some r
  opens : ∀ r, ∃ rest, (c.encode r).toList = '{' :: rest
  printable : ∀ r, ∀ ch ∈ (c.encode r).toList, 0x20 ≤ ch.toNat
  cut : ∀ r s, s.toList <+: (c.encode r).toList → s ≠ c.encode r → c.decode s = none
  trailing : ∀ r s rest, s.toList = (c.encode r).toList ++ '{' :: rest → c.decode s = none

structure LedgerFile where
  path : String
  dir : String
  label : String

/-! ## Reading -/

section

variable {R : Type*}

/-- The loop of `read_records`, `idx` lines down. -/
def readLoop (c : RecordCodec R) (f : LedgerFile) : Nat → List Bytes →
    Except String (List (Nat × R))
  | _, [] => .ok []
  | idx, raw :: rest =>
    match utf8Text? raw with
    | none => .error s!"read {f.path}"
    | some line =>
      -- `line.trim().is_empty()`
      if line.toList.all isWhitespace then readLoop c f (idx + 1) rest
      else
        match c.decode line with
        | none => .error s!"{f.path}:{idx + 1} malformed {f.label} record"
        | some r => (readLoop c f (idx + 1) rest).map ((idx + 1, r) :: ·)

/-- The records of a ledger with their line numbers; a missing file has none. -/
def readRecords (c : RecordCodec R) (f : LedgerFile) (file : Option Bytes) :
    Except String (List (Nat × R)) :=
  match file with
  | none => .ok []
  | some bytes => readLoop c f 0 (splitLines bytes)

/-- Records with their line numbers, `idx` lines down. -/
def numberFrom : Nat → List R → List (Nat × R)
  | _, [] => []
  | idx, r :: rs => (idx + 1, r) :: numberFrom (idx + 1) rs

theorem map_numberFrom (idx : Nat) (rs : List R) : (numberFrom idx rs).map Prod.snd = rs := by
  induction rs generalizing idx with
  | nil => rfl
  | cons r rs ih => rw [numberFrom, map_cons, ih]

theorem numberFrom_append (idx : Nat) (rs ss : List R) :
    numberFrom idx (rs ++ ss) = numberFrom idx rs ++ numberFrom (idx + rs.length) ss := by
  induction rs generalizing idx with
  | nil => rfl
  | cons r rs ih =>
    rw [cons_append, numberFrom, ih, numberFrom, length_cons, cons_append,
      Nat.add_assoc, Nat.add_comm 1]

/-- The fold of a file: the load loop of a ledger, one record after the other. -/
def replay {σ ε : Type*} (step : σ → Nat × R → Except ε σ) (init : σ) (file : List R) :
    Except ε σ :=
  (numberFrom 0 file).foldlM step init

theorem replay_append_singleton {σ ε : Type*} (step : σ → Nat × R → Except ε σ) (init : σ)
    (file : List R) (r : R) :
    replay step init (file ++ [r])
      = replay step init file >>= fun s => step s (file.length + 1, r) := by
  rw [replay, numberFrom_append, foldlM_append, Nat.zero_add]
  refine congrArg (_ >>= ·) (funext fun s => ?_)
  rw [numberFrom, numberFrom, foldlM_cons]
  exact bind_pure _

theorem replay_snoc {σ ε : Type*} {step : σ → Nat × R → Except ε σ} {init s : σ} {file : List R}
    (h : replay step init file = .ok s) (r : R) :
    replay step init (file ++ [r]) = step s (file.length + 1, r) := by
  rw [replay_append_singleton, h]
  rfl

/-! ## Appending -/

/-- How one `append_line` ends. -/
inductive AppendOutcome where
  | createDirFails
  | openFails
  /-- A write fails after `n` bytes have reached the file. -/
  | writeFails (n : Nat)
  | syncFails
  | ok
  deriving DecidableEq

def lineBytes (line : String) : Bytes := utf8Bytes line ++ [10]

def AppendOutcome.landed (o : AppendOutcome) (line : String) : Nat :=
  match o with
  | .createDirFails | .openFails => 0
  | .writeFails n => n
  | .syncFails | .ok => (lineBytes line).length

/-- `append_line`: the file it leaves, and what it reports. -/
def appendLine (f : LedgerFile) (file : Option Bytes) (line : String) (o : AppendOutcome) :
    Option Bytes × Except String Unit :=
  let written := some (file.getD [] ++ (lineBytes line).take (o.landed line))
  match o with
  | .createDirFails => (file, .error s!"create {f.label} dir {f.dir}")
  | .openFails => (file, .error s!"open {f.label} file {f.path}")
  | .writeFails _ => (written, .error s!"append {f.label} file {f.path}")
  | .syncFails => (written, .error s!"fsync {f.label} file {f.path}")
  | .ok => (written, .ok ())

theorem appendLine_bytes (f : LedgerFile) (file : Option Bytes) (line : String)
    (o : AppendOutcome) :
    (appendLine f file line o).1.getD []
      = file.getD [] ++ (lineBytes line).take (o.landed line) := by
  cases o with
  | createDirFails | openFails =>
    simp only [appendLine, AppendOutcome.landed, take_zero, append_nil]
  | writeFails n => rfl
  | syncFails => rfl
  | ok => rfl

theorem readRecords_getD (c : RecordCodec R) (f : LedgerFile) (file : Option Bytes) :
    readRecords c f file = readLoop c f 0 (splitLines (file.getD [])) := by
  cases file with
  | none => rfl
  | some bytes => rfl

end

/-! ## Reading back what was appended -/

section

variable {R : Type*} {c : RecordCodec R} {f : LedgerFile}

def RecordCodec.line (c : RecordCodec R) (r : R) : Bytes := lineBytes (c.encode r)

def BadLine (c : RecordCodec R) (raw : Bytes) : Prop :=
  ∀ s, utf8Text? raw = some s → s.toList.all isWhitespace = false ∧ c.decode s = none

theorem not_blank_of_opens {s : String} {rest : List Char} (h : s.toList = '{' :: rest) :
    s.toList.all isWhitespace = false := by
  rw [h, all_cons, show isWhitespace '{' = false by decide, Bool.false_and]

namespace RecordCodec.Lawful

theorem unbroken (hc : c.Lawful) (r : R) : Unbroken (utf8Bytes (c.encode r)) := fun b hb => by
  have hle := le_of_mem_utf8Bytes (by decide) (hc.printable r) b hb
  omega

theorem ne_nil (hc : c.Lawful) (r : R) : utf8Bytes (c.encode r) ≠ [] := by
  obtain ⟨rest, hrest⟩ := hc.opens r
  rw [utf8Bytes_eq, hrest, flatMap_cons]
  intro h
  exact absurd (append_eq_nil_iff.mp h).1 (by decide)

theorem badLine_take (hc : c.Lawful) (r : R) {n : Nat} (hpos : 0 < n)
    (hlt : n < (utf8Bytes (c.encode r)).length) : BadLine c ((utf8Bytes (c.encode r)).take n) := by
  intro s hs
  have hbytes := utf8Bytes_of_utf8Text? hs
  have hpre : s.toList <+: (c.encode r).toList :=
    toList_prefix_of_utf8Bytes (hbytes ▸ take_prefix n _)
  have hlen : (utf8Bytes s).length = n := by
    rw [hbytes, length_take]
    omega
  obtain ⟨rest, hrest⟩ := hc.opens r
  have hopens : ∃ rest, s.toList = '{' :: rest := by
    rw [hrest] at hpre
    cases hlist : s.toList with
    | nil =>
      rw [utf8Bytes_eq, hlist, flatMap_nil, length_nil] at hlen
      omega
    | cons d ds =>
      rw [hlist] at hpre
      exact ⟨ds, by rw [(cons_prefix_cons.mp hpre).1]⟩
  obtain ⟨rest', hrest'⟩ := hopens
  refine ⟨not_blank_of_opens hrest', hc.cut r s hpre fun he => ?_⟩
  rw [he] at hlen
  omega

theorem badLine_append (hc : c.Lawful) (r₀ r : R) {n : Nat} (hpos : 0 < n) :
    BadLine c (utf8Bytes (c.encode r₀) ++ (utf8Bytes (c.encode r)).take n) := by
  intro s hs
  have hbytes := utf8Bytes_of_utf8Text? hs
  obtain ⟨cs, hcs⟩ := toList_prefix_of_utf8Bytes
    (hbytes ▸ prefix_append (utf8Bytes (c.encode r₀)) _)
  obtain ⟨rest, hrest⟩ := hc.opens r
  obtain ⟨rest₀, hrest₀⟩ := hc.opens r₀
  -- what follows the first record starts with the opening brace of the second
  have hfollow : cs.flatMap String.utf8EncodeChar = (utf8Bytes (c.encode r)).take n := by
    rw [utf8Bytes_eq s, ← hcs, flatMap_append, ← utf8Bytes_eq] at hbytes
    exact append_cancel_left hbytes
  have hbrace : (utf8Bytes (c.encode r)).take n
      = String.utf8EncodeChar '{' ++ (rest.flatMap String.utf8EncodeChar).take (n - 1) := by
    obtain ⟨m, rfl⟩ : ∃ m, n = m + 1 := ⟨n - 1, by omega⟩
    rw [utf8Bytes_eq, hrest, flatMap_cons]
    rfl
  cases cs with
  | nil =>
    rw [hbrace] at hfollow
    cases hfollow
  | cons d ds =>
    rw [hbrace, flatMap_cons] at hfollow
    obtain ⟨rfl, -⟩ := utf8EncodeChar_append_inj hfollow
    have hopens : s.toList = '{' :: (rest₀ ++ '{' :: ds) := by
      rw [← hcs, hrest₀]
      rfl
    exact ⟨not_blank_of_opens hopens, hc.trailing r₀ s ds hcs.symm⟩

end RecordCodec.Lawful

theorem splitLines_flatMap_line (hc : c.Lawful) (rs : List R) (tail : Bytes) :
    splitLines (rs.flatMap c.line ++ tail)
      = rs.map (fun r => utf8Bytes (c.encode r)) ++ splitLines tail := by
  induction rs with
  | nil => rfl
  | cons r rs ih =>
    rw [flatMap_cons, append_assoc, RecordCodec.line, lineBytes, append_assoc,
      singleton_append, splitLines_line (hc.unbroken r), ih]
    rfl

theorem readLoop_cons (hc : c.Lawful) (r : R) (idx : Nat) (rest : List Bytes) :
    readLoop c f idx (utf8Bytes (c.encode r) :: rest)
      = (readLoop c f (idx + 1) rest).map ((idx + 1, r) :: ·) := by
  obtain ⟨tail, htail⟩ := hc.opens r
  have hblank := not_blank_of_opens htail
  simp only [readLoop, utf8Text?_utf8Bytes, hblank, hc.decode_encode, Bool.false_eq_true, if_false]

theorem readLoop_records (hc : c.Lawful) (rs : List R) (idx : Nat) :
    readLoop c f idx (rs.map fun r => utf8Bytes (c.encode r)) = .ok (numberFrom idx rs) := by
  induction rs generalizing idx with
  | nil => rfl
  | cons r rs ih =>
    rw [map_cons, readLoop_cons hc, ih]
    rfl

theorem readLoop_bad (hc : c.Lawful) {raw : Bytes} (hbad : BadLine c raw) (rs : List R)
    (rest : List Bytes) (idx : Nat) :
    ∃ e, readLoop c f idx (rs.map (fun r => utf8Bytes (c.encode r)) ++ raw :: rest) = .error e := by
  induction rs generalizing idx with
  | nil =>
    rw [map_nil, nil_append, readLoop]
    cases htext : utf8Text? raw with
    | none => exact ⟨_, rfl⟩
    | some s =>
      obtain ⟨hblank, hdecode⟩ := hbad s htext
      simp only [hblank, hdecode, Bool.false_eq_true, if_false]
      exact ⟨_, rfl⟩
  | cons r rs ih =>
    obtain ⟨e, he⟩ := ih (idx + 1)
    rw [map_cons, cons_append, readLoop_cons hc, he]
    exact ⟨e, rfl⟩

/-- **What was appended in full is read back**, also when the last line feed is missing. -/
theorem readRecords_lines (hc : c.Lawful) (rs : List R) {file : Option Bytes}
    (h : file.getD [] = rs.flatMap c.line ∨ file.getD [] ++ [10] = rs.flatMap c.line) :
    readRecords c f file = .ok (numberFrom 0 rs) := by
  have hlines : splitLines (file.getD []) = rs.map fun r => utf8Bytes (c.encode r) := by
    rcases h with h | h
    · rw [h, ← append_nil (rs.flatMap c.line), splitLines_flatMap_line hc]
      exact append_nil _
    · -- the last record stands alone at the end of the file
      rcases eq_nil_or_concat rs with rfl | ⟨rs, r, rfl⟩
      · exact absurd h (by simp)
      · have hfile : file.getD [] = rs.flatMap c.line ++ utf8Bytes (c.encode r) := by
          rw [concat_eq_append, flatMap_append, flatMap_singleton,
            RecordCodec.line, lineBytes, ← append_assoc] at h
          exact append_cancel_right h
        rw [hfile, splitLines_flatMap_line hc,
          splitLines_last (hc.unbroken r) (hc.ne_nil r), concat_eq_append, map_append]
        rfl
  rw [readRecords_getD, hlines]
  exact readLoop_records hc rs 0

theorem readRecords_bad (hc : c.Lawful) {rs : List R} {file : Option Bytes} {raw : Bytes}
    (hbad : BadLine c raw) (hraw : Unbroken raw) (hne : raw ≠ [])
    (h : file.getD [] = rs.flatMap c.line ++ raw
      ∨ ∃ rest, file.getD [] = rs.flatMap c.line ++ (raw ++ 10 :: rest)) :
    ∃ e, readRecords c f file = .error e := by
  rw [readRecords_getD]
  rcases h with h | ⟨rest, h⟩
  · rw [h, splitLines_flatMap_line hc, splitLines_last hraw hne]
    exact readLoop_bad hc hbad rs [] 0
  · rw [h, splitLines_flatMap_line hc, splitLines_line hraw]
    exact readLoop_bad hc hbad rs _ 0

end

/-! ## Ledgers of whole lines

While no append is torn, a ledger is the list of its records. -/

/-- How an append that is not torn ends: acknowledged, or with an error, its line then in the
file or not. -/
inductive Landing where
  | ok
  | failed (e : String) (kept : Bool)
  deriving DecidableEq

namespace Landing

variable {R : Type*}

def onto (o : Landing) (file : List R) (r : R) : List R :=
  match o with
  | .failed _ false => file
  | _ => file ++ [r]

def result : Landing → Except String Unit
  | .ok => .ok ()
  | .failed e _ => .error e

def lands : Landing → Bool
  | .ok => true
  | .failed _ kept => kept

theorem onto_eq (o : Landing) (file : List R) (r : R) :
    o.onto file r = if o.lands then file ++ [r] else file := by
  rcases o with _ | ⟨e, _ | _⟩ <;> rfl

theorem mem_onto {o : Landing} {file : List R} {r x : R} :
    x ∈ o.onto file r ↔ x ∈ file ∨ (o.lands = true ∧ x = r) := by
  rw [onto_eq]
  cases o.lands with
  | false => exact (or_iff_left fun h => absurd h.1 Bool.false_ne_true).symm
  | true => rw [if_pos rfl, mem_append, mem_singleton, eq_self, true_and]

def ofOutcome (f : LedgerFile) : AppendOutcome → Landing
  | .createDirFails => .failed s!"create {f.label} dir {f.dir}" false
  | .openFails => .failed s!"open {f.label} file {f.path}" false
  | .writeFails n => .failed s!"append {f.label} file {f.path}" (n != 0)
  | .syncFails => .failed s!"fsync {f.label} file {f.path}" true
  | .ok => .ok

theorem result_ofOutcome (f : LedgerFile) (file : Option Bytes) (line : String)
    (o : AppendOutcome) : (appendLine f file line o).2 = (ofOutcome f o).result := by
  cases o <;> rfl

theorem onto_ofOutcome {c : RecordCodec R} {file : Option Bytes} {rs : List R}
    (hfile : file.getD [] = rs.flatMap c.line) (f : LedgerFile) (r : R) {o : AppendOutcome}
    (hwhole : o.landed (c.encode r) = 0 ∨ (c.line r).length ≤ o.landed (c.encode r)) :
    (appendLine f file (c.encode r) o).1.getD []
      = ((ofOutcome f o).onto rs r).flatMap c.line := by
  have hpos : 0 < (c.line r).length := by
    rw [RecordCodec.line, lineBytes, length_append, length_singleton]
    omega
  have hsnoc : (rs ++ [r]).flatMap c.line = rs.flatMap c.line ++ c.line r := by
    rw [flatMap_append, flatMap_singleton]
  have htake : ∀ {n}, (c.line r).length ≤ n → (lineBytes (c.encode r)).take n = c.line r :=
    fun h => take_of_length_le h
  rw [appendLine_bytes, hfile]
  cases o with
  | createDirFails | openFails => exact append_nil _
  | ok | syncFails =>
    show _ ++ (lineBytes (c.encode r)).take (lineBytes (c.encode r)).length = _
    rw [take_length]
    exact hsnoc.symm
  | writeFails n =>
    rcases hwhole with hzero | hfull
    · obtain rfl : n = 0 := hzero
      exact append_nil _
    · -- the whole line is there, although the call failed
      have hn : (n != 0) = true := by
        rw [bne_iff_ne]
        exact Nat.ne_of_gt (Nat.lt_of_lt_of_le hpos hfull)
      show _ ++ (lineBytes (c.encode r)).take n = _
      rw [htake (n := n) hfull, ← hsnoc, ofOutcome, hn]
      rfl

end Landing

end Dweb
