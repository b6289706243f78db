import OpenDweb.Lib.Utf8Lossy

/-!
# OpenDweb — text as bytes

* **`utf8Bytes`**, **`utf8Text?`** — a text's UTF-8 bytes, and the text of bytes that are
  well-formed UTF-8.
* **`textDecode`** — the strict decoder of a browser.
* **`toList_prefix_of_utf8Bytes`** — UTF-8 is prefix-free: a text whose bytes start
  another text starts that text.
* **`le_of_mem_utf8Bytes`** — a text without control characters has no control bytes.
* **`stripPrefix`**, **`splitOnce`** — `str::strip_prefix` and `str::split_once`.
* **`splitLines`** — `BufRead::lines`, on bytes.
-/

namespace Dweb

open List

/-! ## Characters -/

/-- `char::is_whitespace`: Unicode `White_Space`. -/
def isWhitespace (c : Char) : Bool :=
  let n := c.toNat
  (9 ≤ n && n ≤ 13) || n == 0x20 || n == 0x85 || n == 0xA0 || n == 0x1680
    || (0x2000 ≤ n && n ≤ 0x200A) || n == 0x2028 || n == 0x2029 || n == 0x202F
    || n == 0x205F || n == 0x3000

def trimStart (cs : List Char) : List Char := cs.dropWhile isWhitespace

/-! ## UTF-8 -/

/-- `str::as_bytes`. -/
def utf8Bytes (s : String) : Bytes := s.toUTF8.data.toList

/-- `String::from_utf8`. -/
def utf8Text? (bs : Bytes) : Option String := String.fromUTF8? ⟨bs.toArray⟩

def BOM : Bytes := [0xEF, 0xBB, 0xBF]

/-- `new TextDecoder("utf-8", { fatal: true }).decode`: a mark at the start is dropped. -/
def textDecode (bytes : Bytes) : Option String :=
  utf8Text? (if bytes.take 3 = BOM then bytes.drop 3 else bytes)

theorem utf8Bytes_eq (s : String) : utf8Bytes s = s.toList.flatMap String.utf8EncodeChar := by
  unfold utf8Bytes
  conv => lhs; rw [← String.ofList_toList (s := s)]
  rw [String.toUTF8_eq_toByteArray, String.toByteArray_ofList, List.utf8Encode]
  simp

theorem utf8Bytes_append (s t : String) : utf8Bytes (s ++ t) = utf8Bytes s ++ utf8Bytes t := by
  rw [utf8Bytes_eq, utf8Bytes_eq, utf8Bytes_eq, String.toList_append, flatMap_append]

theorem utf8Text?_utf8Bytes (s : String) : utf8Text? (utf8Bytes s) = some s := by
  have hbytes : (⟨(utf8Bytes s).toArray⟩ : ByteArray) = s.toByteArray := rfl
  rw [utf8Text?, hbytes, String.fromUTF8?, dif_pos s.isValidUTF8]
  rfl

variable {s : String} {x : Bytes}

theorem utf8Bytes_of_utf8Text? {bs : Bytes} (h : utf8Text? bs = some s) : utf8Bytes s = bs := by
  unfold utf8Text? String.fromUTF8? at h
  split at h
  · simp only [Option.some.injEq] at h
    rw [← h]
    rfl
  · cases h

theorem utf8EncodeChar_append_inj {c d : Char} {y : Bytes}
    (h : String.utf8EncodeChar c ++ x = String.utf8EncodeChar d ++ y) : c = d ∧ x = y := by
  have hread := lossyLoop_encodeChar c x 0
  rw [h, lossyLoop_encodeChar] at hread
  obtain rfl : d = c := (List.cons.inj hread).1
  exact ⟨rfl, append_cancel_left h⟩

theorem prefix_of_flatMap {cs ds : List Char}
    (h : cs.flatMap String.utf8EncodeChar <+: ds.flatMap String.utf8EncodeChar) : cs <+: ds := by
  induction cs generalizing ds with
  | nil => exact nil_prefix
  | cons c cs ih =>
    obtain ⟨rest, hrest⟩ := h
    rw [flatMap_cons, append_assoc] at hrest
    cases ds with
    | nil =>
      -- an encoded character is not empty
      have hpos : 0 < (String.utf8EncodeChar c).length := by
        rw [String.length_utf8EncodeChar]
        exact c.utf8Size_pos
      rw [flatMap_nil] at hrest
      rw [(append_eq_nil_iff.mp hrest).1] at hpos
      exact absurd hpos (Nat.lt_irrefl 0)
    | cons d ds =>
      rw [flatMap_cons] at hrest
      obtain ⟨rfl, htail⟩ := utf8EncodeChar_append_inj hrest
      exact cons_prefix_cons.mpr ⟨rfl, ih ⟨rest, htail⟩⟩

theorem toList_prefix_of_utf8Bytes {t : String} (h : utf8Bytes s <+: utf8Bytes t) :
    s.toList <+: t.toList := by
  rw [utf8Bytes_eq, utf8Bytes_eq] at h
  exact prefix_of_flatMap h

theorem le_of_mem_utf8Bytes {n : Nat} (hn : n ≤ 0x80) (h : ∀ c ∈ s.toList, n ≤ c.toNat) :
    ∀ b ∈ utf8Bytes s, n ≤ b.toNat := by
  intro b hb
  rw [utf8Bytes_eq] at hb
  obtain ⟨c, hc, hmem⟩ := mem_flatMap.mp hb
  have hle : n ≤ c.val.toNat := h c hc
  unfold String.utf8EncodeChar at hmem
  generalize c.val.toNat = v at hle hmem
  dsimp only at hmem
  -- a character below 0x80 is its own byte, the bytes of the others are at least 0x80
  split at hmem
  · rw [mem_singleton.mp hmem, UInt8.toNat_ofNat']
    omega
  · split at hmem
    · simp only [mem_cons, not_mem_nil, or_false] at hmem
      rcases hmem with rfl | rfl <;> rw [UInt8.toNat_ofNat'] <;> omega
    · split at hmem
      · simp only [mem_cons, not_mem_nil, or_false] at hmem
        rcases hmem with rfl | rfl | rfl <;> rw [UInt8.toNat_ofNat'] <;> omega
      · simp only [mem_cons, not_mem_nil, or_false] at hmem
        rcases hmem with rfl | rfl | rfl | rfl <;> rw [UInt8.toNat_ofNat'] <;> omega

/-! ## Parts of a text -/

/-- `str::strip_prefix`. -/
def stripPrefix (s p : String) : Option String :=
  if p.toList <+: s.toList then some (String.ofList (s.toList.drop p.toList.length)) else none

theorem stripPrefix_eq_some {p t : String} : stripPrefix s p = some t ↔ s = p ++ t := by
  unfold stripPrefix
  constructor
  · intro h
    split at h
    · next hp =>
      cases h
      obtain ⟨rest, hrest⟩ := hp
      refine String.toList_injective ?_
      rw [String.toList_append, String.toList_ofList, ← hrest, drop_left]
    · cases h
  · rintro rfl
    rw [String.toList_append, if_pos (prefix_append p.toList t.toList), drop_left,
      String.ofList_toList]

/-- `str::split_once`, at a character. -/
def splitOnce (s : String) (c : Char) : Option (String × String) :=
  if c ∈ s.toList then
    some (String.ofList (s.toList.takeWhile (· ≠ c)),
      String.ofList ((s.toList.dropWhile (· ≠ c)).drop 1))
  else none

/-- `str::eq_ignore_ascii_case`. -/
def eqIgnoreAsciiCase (a b : String) : Bool := a.toList.map Char.toLower = b.toList.map Char.toLower

/-! ## Lines -/

/-- `BufRead::lines`: the bytes between line feeds, without a carriage return just before one;
what follows the last line feed is a line unless it is empty. -/
def splitLines : Bytes → List Bytes
  | [] => []
  | b :: bs =>
    if b = 10 then [] :: splitLines bs
    else if b = 13 ∧ bs.head? = some 10 then splitLines bs
    else
      match splitLines bs with
      | [] => [[b]]
      | line :: lines => (b :: line) :: lines

-- the carriage return goes with the line feed only
example : splitLines [97, 13, 10, 98, 13] = [[97], [98, 13]] := by decide +kernel

def Unbroken (bs : Bytes) : Prop := ∀ b ∈ bs, 14 ≤ b.toNat

theorem Unbroken.append {y : Bytes} (hx : Unbroken x) (hy : Unbroken y) : Unbroken (x ++ y) :=
  fun b hb => (mem_append.mp hb).elim (hx b) (hy b)

theorem Unbroken.take (hx : Unbroken x) (n : Nat) : Unbroken (x.take n) :=
  fun b hb => hx b (mem_of_mem_take hb)

theorem splitLines_cons_of_le {b : UInt8} (h : 14 ≤ b.toNat) (bs : Bytes) :
    splitLines (b :: bs)
      = match splitLines bs with
        | [] => [[b]]
        | line :: lines => (b :: line) :: lines := by
  have h10 : b ≠ 10 := fun he => by rw [he] at h; exact absurd h (by decide)
  have h13 : b ≠ 13 := fun he => by rw [he] at h; exact absurd h (by decide)
  rw [splitLines, if_neg h10, if_neg fun hc => h13 hc.1]

theorem splitLines_line {line : Bytes} (h : Unbroken line) (rest : Bytes) :
    splitLines (line ++ 10 :: rest) = line :: splitLines rest := by
  induction line with
  | nil => rw [nil_append, splitLines, if_pos rfl]
  | cons b bs ih =>
    rw [cons_append, splitLines_cons_of_le (h b mem_cons_self),
      ih fun x hx => h x (mem_cons_of_mem b hx)]

theorem splitLines_last {line : Bytes} (h : Unbroken line) (hne : line ≠ []) :
    splitLines line = [line] := by
  induction line with
  | nil => exact absurd rfl hne
  | cons b bs ih =>
    rw [splitLines_cons_of_le (h b mem_cons_self)]
    cases bs with
    | nil => rfl
    | cons c cs =>
      rw [ih (fun x hx => h x (mem_cons_of_mem b hx)) (cons_ne_nil c cs)]

end Dweb
