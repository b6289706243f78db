import OpenDweb.Lib.Machine
import OpenDweb.Server.Ledger

/-!
# OpenDweb — runs of appends on one ledger

A ledger lives through appends of which any may fail, and fail halfway.

* **`LedgerRun.Readable`** — the file reads as the acknowledged records, in order, and at most
  records of calls that reported an error.
* **`LedgerRun.Whole`** — an append leaves nothing of its line in the file or all of it, and
  starts on a line of its own.
* **`ledger_readable_iff`** — the ledger is readable throughout a run exactly when all its
  appends are whole.
-/

namespace Dweb

open List

/-! ## Runs -/

/-- A ledger file and the calls made on it so far, the earliest first. -/
structure LedgerRun (R : Type*) where
  file : Option Bytes
  calls : List (R × AppendOutcome)
  deriving DecidableEq

namespace LedgerRun

variable {R : Type*}

def empty : LedgerRun R := { file := none, calls := [] }

/-- One call of `append_line`. -/
def append (c : RecordCodec R) (f : LedgerFile) (s : LedgerRun R) (l : R × AppendOutcome) :
    LedgerRun R where
  file := (appendLine f s.file (c.encode l.1) l.2).1
  calls := s.calls ++ [l]

def acked (l : R × AppendOutcome) : Bool := l.2 = .ok

/-- `told` are the acknowledged calls, in order, and perhaps some that failed. -/
def Told (s : LedgerRun R) (told : List (R × AppendOutcome)) : Prop :=
  told.Sublist s.calls ∧ (s.calls.filter acked).Sublist told

/-- The ledger is read back, as the records of the acknowledged calls and at most some of
those that failed. -/
def Readable (c : RecordCodec R) (f : LedgerFile) (s : LedgerRun R) : Prop :=
  ∃ out told, readRecords c f s.file = .ok out ∧ s.Told told
    ∧ out.map Prod.snd = told.map Prod.fst

def Ended (s : LedgerRun R) : Prop := ∀ b ∈ (s.file.getD []).getLast?, b = 10

instance (s : LedgerRun R) : Decidable s.Ended := by
  unfold Ended
  infer_instance

/-- The append leaves nothing of its line, or starts on a line of its own and leaves all of it
(perhaps without the line feed). -/
def Whole (c : RecordCodec R) (s : LedgerRun R) (l : R × AppendOutcome) : Prop :=
  l.2.landed (c.encode l.1) = 0
    ∨ (s.Ended ∧ (utf8Bytes (c.encode l.1)).length ≤ l.2.landed (c.encode l.1))

instance (c : RecordCodec R) (s : LedgerRun R) (l : R × AppendOutcome) :
    Decidable (s.Whole c l) := by
  unfold Whole
  infer_instance

end LedgerRun

/-- The ledger `f`, from its first append on. -/
def ledgerMachine {R : Type*} (c : RecordCodec R) (f : LedgerFile) :
    Machine (LedgerRun R) (R × AppendOutcome) where
  init s := s = .empty
  step s l := some (s.append c f l)

/-! ## The invariant -/

namespace LedgerRun

variable {R : Type*} {c : RecordCodec R} {f : LedgerFile} {s : LedgerRun R}

/-- The file is the lines of calls that were told of; only the last line feed may be missing. -/
def Lines (c : RecordCodec R) (s : LedgerRun R) : Prop :=
  ∃ told, s.Told told
    ∧ (s.file.getD [] = (told.map Prod.fst).flatMap c.line
      ∨ (s.file.getD [] ++ [10] = (told.map Prod.fst).flatMap c.line ∧ told ≠ []))

theorem Told.skip {told : List (R × AppendOutcome)} (h : s.Told told) {l : R × AppendOutcome}
    (hl : acked l = false) {file : Option Bytes} :
    Told { file := file, calls := s.calls ++ [l] } told := by
  refine ⟨h.1.trans (sublist_append_left _ _), ?_⟩
  rw [filter_append, filter_cons_of_neg (by simp [hl]), filter_nil,
    append_nil]
  exact h.2

theorem Told.snoc {told : List (R × AppendOutcome)} (h : s.Told told) (l : R × AppendOutcome)
    {file : Option Bytes} :
    Told { file := file, calls := s.calls ++ [l] } (told ++ [l]) := by
  refine ⟨h.1.append (List.Sublist.refl _), ?_⟩
  rw [filter_append]
  exact h.2.append filter_sublist

theorem Lines.readable (hc : c.Lawful) (h : s.Lines c) : s.Readable c f := by
  obtain ⟨told, htold, hfile⟩ := h
  have hlines : s.file.getD [] = (told.map Prod.fst).flatMap c.line
      ∨ s.file.getD [] ++ [10] = (told.map Prod.fst).flatMap c.line :=
    hfile.imp_right And.left
  exact ⟨_, told, readRecords_lines hc _ hlines, htold, map_numberFrom 0 _⟩

theorem append_bytes (l : R × AppendOutcome) :
    (s.append c f l).file.getD []
      = s.file.getD [] ++ (lineBytes (c.encode l.1)).take (l.2.landed (c.encode l.1)) :=
  appendLine_bytes f s.file (c.encode l.1) l.2

theorem landed_of_acked {l : R × AppendOutcome} (h : acked l = true) (line : String) :
    l.2.landed line = (utf8Bytes line).length + 1 := by
  rw [of_decide_eq_true h, AppendOutcome.landed, lineBytes, length_append]
  rfl

theorem take_lineBytes {line : String} {n : Nat} (h : n ≤ (utf8Bytes line).length) :
    (lineBytes line).take n = (utf8Bytes line).take n := by
  rw [lineBytes, take_append_of_le_length h]

theorem take_lineBytes_all {line : String} {n : Nat} (h : (utf8Bytes line).length < n) :
    (lineBytes line).take n = lineBytes line := by
  refine take_of_length_le ?_
  rw [lineBytes, length_append, length_singleton]
  omega

theorem Lines.ended_or (hc : c.Lawful) (h : s.Lines c) :
    (s.Ended ∧ ∃ told, s.Told told ∧ s.file.getD [] = (told.map Prod.fst).flatMap c.line) ∨
    (¬s.Ended ∧ ∃ (rs : List R) (r : R),
      s.file.getD [] = rs.flatMap c.line ++ utf8Bytes (c.encode r)) := by
  obtain ⟨told, htold, hfile | ⟨hfile, hne⟩⟩ := h
  · refine Or.inl ⟨fun b hb => ?_, told, htold, hfile⟩
    rw [hfile] at hb
    rcases eq_nil_or_concat told with rfl | ⟨init, l, rfl⟩
    · cases hb
    · rw [concat_eq_append, map_append, flatMap_append, map_singleton,
        flatMap_singleton, RecordCodec.line, lineBytes, ← append_assoc,
        getLast?_concat] at hb
      exact (Option.some.inj hb).symm
  · rcases eq_nil_or_concat told with rfl | ⟨init, l, rfl⟩
    · exact absurd rfl hne
    · have hbytes : s.file.getD []
          = (init.map Prod.fst).flatMap c.line ++ utf8Bytes (c.encode l.1) := by
        rw [concat_eq_append, map_append, flatMap_append, map_singleton,
          flatMap_singleton, RecordCodec.line, lineBytes, ← append_assoc] at hfile
        exact append_cancel_right hfile
      refine Or.inr ⟨fun hended => ?_, _, _, hbytes⟩
      -- the last byte of a record is no line feed
      have hlast : (s.file.getD []).getLast? = (utf8Bytes (c.encode l.1)).getLast? := by
        rw [hbytes, getLast?_append_of_ne_nil _ (hc.ne_nil l.1)]
      cases hget : (utf8Bytes (c.encode l.1)).getLast? with
      | none => exact hc.ne_nil l.1 (getLast?_eq_none_iff.mp hget)
      | some b =>
        have hb := hc.unbroken l.1 b (mem_of_getLast? hget)
        rw [hended b (hlast.trans hget)] at hb
        exact absurd hb (by decide)

theorem Lines.append (hc : c.Lawful) (h : s.Lines c) {l : R × AppendOutcome}
    (hwhole : s.Whole c l) : (s.append c f l).Lines c := by
  rcases hwhole with hzero | ⟨hended, hle⟩
  · -- nothing of the line is there, so the call failed
    have hfailed : acked l = false := by
      by_contra hacked
      have := landed_of_acked (Bool.not_eq_false _ ▸ hacked) (c.encode l.1)
      omega
    obtain ⟨told, htold, hfile⟩ := h
    refine ⟨told, htold.skip hfailed, ?_⟩
    rw [append_bytes, hzero, take_zero, append_nil]
    exact hfile
  · rcases Lines.ended_or hc h with ⟨-, told, htold, hfile⟩ | ⟨hno, -⟩
    · refine ⟨told ++ [l], htold.snoc l, ?_⟩
      have hmap : ((told ++ [l]).map Prod.fst).flatMap c.line
          = (told.map Prod.fst).flatMap c.line ++ lineBytes (c.encode l.1) := by
        rw [map_append, flatMap_append, map_singleton, flatMap_singleton]
        rfl
      rw [append_bytes, hmap, hfile]
      rcases Nat.lt_or_eq_of_le hle with hlt | heq
      · left
        rw [take_lineBytes_all hlt]
      · right
        refine ⟨?_, by simp⟩
        rw [take_lineBytes (Nat.le_of_eq heq.symm), ← heq, take_length, lineBytes,
          append_assoc]
    · exact absurd hended hno

theorem Lines.not_readable (hc : c.Lawful) (h : s.Lines c) {l : R × AppendOutcome}
    (hwhole : ¬s.Whole c l) : ¬(s.append c f l).Readable c f := by
  have hpos : 0 < l.2.landed (c.encode l.1) :=
    Nat.pos_of_ne_zero fun hzero => hwhole (Or.inl hzero)
  have hfails : ∃ e, readRecords c f (s.append c f l).file = .error e := by
    rcases Lines.ended_or hc h with ⟨hended, told, -, hfile⟩ | ⟨-, rs, r, hfile⟩
    · have hlt : l.2.landed (c.encode l.1) < (utf8Bytes (c.encode l.1)).length :=
        Nat.lt_of_not_le fun hle => hwhole (Or.inr ⟨hended, hle⟩)
      have hbad := hc.badLine_take l.1 hpos hlt
      have hne : (utf8Bytes (c.encode l.1)).take (l.2.landed (c.encode l.1)) ≠ [] := fun hnil => by
        have hlen := congrArg List.length hnil
        rw [length_take, length_nil] at hlen
        omega
      have hbytes : (s.append c f l).file.getD [] = (told.map Prod.fst).flatMap c.line
          ++ (utf8Bytes (c.encode l.1)).take (l.2.landed (c.encode l.1)) := by
        rw [append_bytes, hfile, take_lineBytes (Nat.le_of_lt hlt)]
      exact readRecords_bad hc hbad ((hc.unbroken l.1).take _) hne (Or.inl hbytes)
    · -- the new line continues the last one, with or without its line feed
      have hbad := hc.badLine_append r l.1 hpos
      have hraw := (hc.unbroken r).append
        ((hc.unbroken l.1).take (l.2.landed (c.encode l.1)))
      have hne : utf8Bytes (c.encode r) ++ (utf8Bytes (c.encode l.1)).take
          (l.2.landed (c.encode l.1)) ≠ [] :=
        fun hnil => hc.ne_nil r (append_eq_nil_iff.mp hnil).1
      rcases Nat.lt_or_ge (utf8Bytes (c.encode l.1)).length (l.2.landed (c.encode l.1)) with
        hlt | hge
      · have hbytes : (s.append c f l).file.getD [] = rs.flatMap c.line
            ++ (utf8Bytes (c.encode r) ++ (utf8Bytes (c.encode l.1)).take
              (l.2.landed (c.encode l.1)) ++ [10]) := by
          rw [append_bytes, hfile, take_lineBytes_all hlt, take_of_length_le (Nat.le_of_lt hlt),
            lineBytes, append_assoc, append_assoc]
        exact readRecords_bad hc hbad hraw hne (Or.inr ⟨[], hbytes⟩)
      · have hbytes : (s.append c f l).file.getD [] = rs.flatMap c.line
            ++ (utf8Bytes (c.encode r) ++ (utf8Bytes (c.encode l.1)).take
              (l.2.landed (c.encode l.1))) := by
          rw [append_bytes, hfile, take_lineBytes hge, append_assoc]
        exact readRecords_bad hc hbad hraw hne (Or.inl hbytes)
  obtain ⟨e, he⟩ := hfails
  rintro ⟨out, told, hout, -, -⟩
  rw [he] at hout
  cases hout

theorem lines_empty : (empty : LedgerRun R).Lines c :=
  ⟨[], ⟨List.Sublist.refl _, List.Sublist.refl _⟩, Or.inl rfl⟩

end LedgerRun

/-- **A ledger stays readable exactly while its appends are whole**: after every call of a run
the acknowledged records are read back in order, with at most records of failed calls among
them, if and only if no append left a part of its line or continued another one's. -/
theorem ledger_readable_iff {R : Type*} {c : RecordCodec R} (hc : c.Lawful) (f : LedgerFile)
    {s : LedgerRun R} {ls : List (R × AppendOutcome)}
    (hrun : (ledgerMachine c f).run .empty ls = some s) :
    (∀ k t, (ledgerMachine c f).run .empty (ls.take k) = some t → t.Readable c f)
      ↔ (ledgerMachine c f).runUnder (LedgerRun.Whole c) .empty ls = some s := by
  refine Machine.forall_take_iff (I := LedgerRun.Lines c)
    (fun t l t' ht hstep => ?_) (fun t l t' ht hstep hP => ?_) LedgerRun.lines_empty
    (LedgerRun.lines_empty.readable hc) hrun
  · cases hstep
    by_cases hwhole : t.Whole c l
    · exact iff_of_true ((ht.append hc hwhole).readable hc) hwhole
    · exact iff_of_false (ht.not_readable hc hwhole) hwhole
  · cases hstep
    by_cases hwhole : t.Whole c l
    · exact ht.append hc hwhole
    · exact absurd hP (ht.not_readable hc hwhole)

/-! ## A torn line -/

/-- `Probe { op }`, at two values of `op`. -/
inductive Probe where
  | a
  | b
  deriving DecidableEq

namespace Probe

def json : Probe → List Char
  | a => "\x7b\"op\":\"a\"\x7d".toList
  | b => "\x7b\"op\":\"b\"\x7d".toList

def codec : RecordCodec Probe where
  encode r := String.ofList r.json
  decode s := if s.toList = a.json then some a else if s.toList = b.json then some b else none

def file : LedgerFile := { path := "probe.jsonl", dir := "", label := "probe" }

theorem toList_encode (r : Probe) : (codec.encode r).toList = r.json := String.toList_ofList

theorem decode_eq_none {s : String} (h : ∀ r : Probe, s.toList ≠ r.json) :
    codec.decode s = none := by
  simp only [codec, if_neg (h .a), if_neg (h .b)]

theorem length_json (r : Probe) : r.json.length = 10 := by
  cases r <;> decide

theorem lawful : codec.Lawful where
  decode_encode r := by
    cases r <;> simp only [codec, String.toList_ofList] <;> decide
  opens r := by
    rw [toList_encode]
    cases r <;> exact ⟨_, rfl⟩
  printable r := by
    have hall : (r.json.all fun ch => 0x20 ≤ ch.toNat) = true := by cases r <;> decide
    rw [toList_encode]
    exact fun ch hmem => of_decide_eq_true (all_eq_true.mp hall ch hmem)
  cut r s hpre hne := decode_eq_none fun r' hs => by
    -- the texts have one length
    rw [toList_encode] at hpre
    have hlen : s.toList.length = r.json.length := by rw [hs, length_json, length_json]
    exact hne (String.toList_inj.mp ((hpre.eq_of_length hlen).trans (toList_encode r).symm))
  trailing r s rest hs := decode_eq_none fun r' hs' => by
    have hlist := congrArg List.length (hs.symm.trans hs')
    rw [length_append, length_cons, toList_encode, length_json, length_json] at hlist
    omega

end Probe

theorem ledger_readable_iff_probe :
    ((ledgerMachine Probe.codec Probe.file).run .empty
        [(.a, .ok), (.b, .createDirFails), (.b, .writeFails 0), (.a, .syncFails),
          (.b, .ok)]).isSome
      ∧ ∀ k t, (ledgerMachine Probe.codec Probe.file).run .empty
        ([(.a, .ok), (.b, .createDirFails), (.b, .writeFails 0), (.a, .syncFails),
          (.b, .ok)].take k) = some t →
      t.Readable Probe.codec Probe.file := by
  have hrun : (ledgerMachine Probe.codec Probe.file).run .empty
      [(.a, .ok), (.b, .createDirFails), (.b, .writeFails 0), (.a, .syncFails), (.b, .ok)]
        = some
          { file := some ([Probe.a, .a, .b].flatMap Probe.codec.line)
            calls := [(.a, .ok), (.b, .createDirFails), (.b, .writeFails 0), (.a, .syncFails),
              (.b, .ok)] } := by
    decide +kernel
  exact ⟨by rw [hrun]; rfl,
    (ledger_readable_iff Probe.lawful Probe.file hrun).mpr (by decide +kernel)⟩

/-- Three bytes of a failed append take both the acknowledged record after them and the one
before them with them. -/
theorem torn_append_unreadable :
    ∃ t, (ledgerMachine Probe.codec Probe.file).run .empty
        [(.a, .ok), (.b, .writeFails 3), (.a, .ok)] = some t
      ∧ readRecords Probe.codec Probe.file t.file
        = .error "probe.jsonl:2 malformed probe record"
      ∧ ¬t.Readable Probe.codec Probe.file := by
  have hrun : (ledgerMachine Probe.codec Probe.file).run .empty
      [(.a, .ok), (.b, .writeFails 3), (.a, .ok)]
        = some
          { file := some (Probe.codec.line .a ++ (Probe.codec.line .b).take 3
              ++ Probe.codec.line .a)
            calls := [(.a, .ok), (.b, .writeFails 3), (.a, .ok)] } := by
    decide +kernel
  have hread : readRecords Probe.codec Probe.file
      (some (Probe.codec.line .a ++ (Probe.codec.line .b).take 3 ++ Probe.codec.line .a))
        = .error "probe.jsonl:2 malformed probe record" := by
    decide +kernel
  refine ⟨_, hrun, hread, ?_⟩
  rintro ⟨out, told, hout, -, -⟩
  cases hread.symm.trans hout

end Dweb
