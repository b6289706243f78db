import OpenDweb.Lib.Hex
import OpenDweb.Lib.JsText
import OpenDweb.Lib.Trim

/-!
# OpenDweb — what an invitation code is to the two sides

The code as the command line reads it (`normalizeInviteCode` of `opendweb/src/register.mjs`) and as
the server does (`normalize_code_body` of `dweb-server/src/access/codes.rs`), and the form in which
the server shows it.

* **`codeOf`** — what both make of a text without white space around it.
* **`normalizeInviteCode_eq`**, **`normalizeCodeBody_eq`** — they differ in what is cut off around
  it.
* **`normalize_agree_iff`** — a code in other characters' company is read by one side alone.
* **`codeOf_codeDisplay`** — what the server shows is read as what it drew.
-/

namespace Dweb

open List Option

/-! ## The two readers -/

/-- `INVITE_CODE_PREFIX`, and `CODE_PREFIX`. -/
def CODE_PREFIX : List Char := "dwebc1.".toList

def CODE_BODY_LEN : Nat := 16

def CROCKFORD_LOWER : List Char := "0123456789abcdefghjkmnpqrstvwxyz".toList

/-- The first characters, of `n` units together, and the others; there are none where the text is
shorter, or where a character would be cut. -/
def splitAtUnits (units : Char → Nat) : Nat → List Char → Option (List Char × List Char)
  | 0, cs => some ([], cs)
  | _ + 1, [] => none
  | n + 1, c :: cs =>
    if units c ≤ n + 1 then
      (splitAtUnits units (n + 1 - units c) cs).map fun (head, rest) => (c :: head, rest)
    else none

def utf16Units (c : Char) : Nat := if 0x10000 ≤ c.toNat then 2 else 1

def codeDigits (body : List Char) : List Char := (body.filter (· ≠ '-')).map Char.toLower

/-- `normalizeInviteCode`. -/
def normalizeInviteCode (raw : String) : Option String :=
  let s := jsTrim raw.toList
  let body :=
    match splitAtUnits utf16Units CODE_PREFIX.length s with
    | some (head, rest) => if head.map jsLower = CODE_PREFIX then rest else s
    | none => s
  let normalized := codeDigits body
  if utf16Length (String.ofList normalized) ≠ CODE_BODY_LEN then none
  else if normalized.all (· ∈ CROCKFORD_LOWER) then some (String.ofList normalized)
  else none

/-- `normalize_code_body`. -/
def normalizeCodeBody (raw : String) : Option String :=
  let s := trimBy isWhitespace raw.toList
  let body :=
    if CODE_PREFIX <+: s then s.drop CODE_PREFIX.length
    else
      match splitAtUnits Char.utf8Size CODE_PREFIX.length s with
      | some (head, rest) =>
        if head.map Char.toLower = CODE_PREFIX.map Char.toLower then rest else s
      | none => s
  let normalized := String.ofList (codeDigits body)
  let bytes := utf8Bytes normalized
  if bytes.length = CODE_BODY_LEN ∧ bytes.all (· ∈ utf8Bytes (String.ofList CROCKFORD_LOWER)) then
    some normalized
  else none

/-! ## What both make of it -/

def codeBody (s : List Char) : List Char :=
  if (s.take CODE_PREFIX.length).map Char.toLower = CODE_PREFIX then s.drop CODE_PREFIX.length
  else s

def codeOf (s : List Char) : Option String :=
  let digits := codeDigits (codeBody s)
  if digits.length = CODE_BODY_LEN ∧ digits.all (· ∈ CROCKFORD_LOWER) then
    some (String.ofList digits)
  else none

variable {units : Char → Nat} {s head rest : List Char} {n : Nat} {c : Char}

theorem all_iff_forall_mem {α : Type*} {p : α → Prop} [DecidablePred p] {xs : List α} :
    xs.all (p ·) = true ↔ ∀ x ∈ xs, p x := by
  simp only [List.all_eq_true, decide_eq_true_eq]

theorem splitAtUnits_append (hunits : ∀ c ∈ head, units c = 1) :
    splitAtUnits units head.length (head ++ rest) = some (head, rest) := by
  induction head with
  | nil => rw [length_nil, nil_append, splitAtUnits]
  | cons c head ih =>
    have hc : units c = 1 := hunits c mem_cons_self
    rw [length_cons, cons_append, splitAtUnits, hc, if_pos (by omega),
      Nat.add_sub_cancel, ih fun d hd => hunits d (mem_cons_of_mem c hd)]
    rfl

theorem eq_append_of_splitAtUnits (h : splitAtUnits units n s = some (head, rest)) :
    s = head ++ rest := by
  induction s generalizing n head with
  | nil =>
    cases n with
    | zero =>
      cases h
      rfl
    | succ n => cases h
  | cons c s ih =>
    cases n with
    | zero =>
      rw [splitAtUnits] at h
      cases h
      rfl
    | succ n =>
      rw [splitAtUnits] at h
      split at h
      · obtain ⟨⟨head', rest'⟩, hsplit, heq⟩ := map_eq_some_iff.mp h
        cases heq
        rw [ih hsplit]
        rfl
      · cases h

theorem units_eq_one_of_map_toLower (h : head.map Char.toLower = CODE_PREFIX) (hc : c ∈ head) :
    c.toNat < 0x80 := by
  have hmem : c.toLower ∈ CODE_PREFIX := h ▸ List.mem_map_of_mem hc
  by_contra hle
  rw [Nat.not_lt] at hle
  have hsame : c.toLower = c := by
    rw [Char.toLower, dif_neg]
    intro hupper
    have hZ : c.val.toNat ≤ 90 := UInt32.le_iff_toNat_le.mp hupper.2
    exact absurd (Nat.le_trans hle hZ) (by decide)
  rw [hsame] at hmem
  have hall : ∀ d ∈ CODE_PREFIX, d.toNat < 0x80 :=
    all_iff_forall_mem.mp (by decide)
  exact absurd (hall c hmem) (Nat.not_lt.mpr hle)

theorem map_jsLower_iff : head.map jsLower = CODE_PREFIX ↔ head.map Char.toLower = CODE_PREFIX := by
  have hkelvin : ('\u212a' ∈ head → head.map jsLower ≠ CODE_PREFIX ∧
      head.map Char.toLower ≠ CODE_PREFIX) := fun hmem => by
    constructor
    · intro h
      have hk : jsLower '\u212a' ∈ CODE_PREFIX := h ▸ List.mem_map_of_mem hmem
      exact absurd hk (by decide)
    · intro h
      exact absurd (units_eq_one_of_map_toLower h hmem) (by decide)
  by_cases hmem : '\u212a' ∈ head
  · exact iff_of_false (hkelvin hmem).1 (hkelvin hmem).2
  · have hsame : head.map jsLower = head.map Char.toLower :=
      map_congr_left fun d hd => if_neg fun heq : d = '\u212a' => hmem (heq ▸ hd)
    rw [hsame]

/-- **The prefix is the same to both**: as code units, and as bytes. -/
theorem codeBody_eq_split (hone : ∀ c : Char, c.toNat < 0x80 → units c = 1) :
    (match splitAtUnits units CODE_PREFIX.length s with
      | some (head, rest) => if head.map Char.toLower = CODE_PREFIX then rest else s
      | none => s) = codeBody s := by
  unfold codeBody
  by_cases hprefix : (s.take CODE_PREFIX.length).map Char.toLower = CODE_PREFIX
  · have hlen : (s.take CODE_PREFIX.length).length = CODE_PREFIX.length := by
      rw [← length_map Char.toLower, hprefix]
    have hsplit : splitAtUnits units (s.take CODE_PREFIX.length).length
        (s.take CODE_PREFIX.length ++ s.drop CODE_PREFIX.length)
          = some (s.take CODE_PREFIX.length, s.drop CODE_PREFIX.length) :=
      splitAtUnits_append fun c hc => hone c (units_eq_one_of_map_toLower hprefix hc)
    rw [hlen, take_append_drop] at hsplit
    rw [hsplit, if_pos hprefix]
    exact if_pos hprefix
  · rw [if_neg hprefix]
    split
    · next head rest hsplit =>
      rw [if_neg]
      intro hhead
      have hlen : CODE_PREFIX.length = head.length := by rw [← hhead, length_map]
      rw [eq_append_of_splitAtUnits hsplit, hlen, take_left] at hprefix
      exact hprefix hhead
    · rfl

theorem lt_of_mem_crockford (h : c ∈ CROCKFORD_LOWER) : c.toNat < 0x80 := by
  have hall : ∀ d ∈ CROCKFORD_LOWER, d.toNat < 0x80 :=
    all_iff_forall_mem.mp (by decide)
  exact hall c h

theorem utf16Units_eq_one (h : c.toNat < 0x80) : utf16Units c = 1 := if_neg (by omega)

theorem utf8Size_eq_one (h : c.toNat < 0x80) : c.utf8Size = 1 :=
  Char.utf8Size_eq_one_iff.mpr (UInt32.le_iff_toNat_le.mpr (Nat.le_of_lt_succ h))

theorem utf8EncodeChar_of_lt (h : c.toNat < 0x80) :
    String.utf8EncodeChar c = [UInt8.ofNat c.toNat] := by
  rw [String.utf8EncodeChar_eq_singleton (utf8Size_eq_one h)]
  rfl

theorem utf8Bytes_crockford :
    utf8Bytes (String.ofList CROCKFORD_LOWER)
      = CROCKFORD_LOWER.map fun c => UInt8.ofNat c.toNat := by
  rw [utf8Bytes_eq, String.toList_ofList]
  rfl

theorem mem_crockford_iff :
    c ∈ CROCKFORD_LOWER ↔
      ∀ b ∈ String.utf8EncodeChar c, b ∈ utf8Bytes (String.ofList CROCKFORD_LOWER) := by
  rw [utf8Bytes_crockford]
  constructor
  · intro hc b hb
    rw [utf8EncodeChar_of_lt (lt_of_mem_crockford hc), mem_singleton] at hb
    exact List.mem_map.mpr ⟨c, hc, hb.symm⟩
  · intro hbytes
    by_cases hlt : c.toNat < 0x80
    · rw [utf8EncodeChar_of_lt hlt] at hbytes
      obtain ⟨d, hd, heq⟩ := List.mem_map.mp (hbytes _ mem_cons_self)
      have hnat : d.toNat = c.toNat := by
        have hmod := congrArg UInt8.toNat heq
        have hd80 := lt_of_mem_crockford hd
        simp only [UInt8.toNat_ofNat'] at hmod
        omega
      rwa [← Char.toNat_inj.mp hnat]
    · -- the bytes of any other character are too large
      have hlarge := @le_of_mem_utf8Bytes (String.ofList [c]) 0x80 (Nat.le_refl _) (by
        rw [String.toList_ofList]
        intro d hd
        rw [mem_singleton.mp hd]
        exact Nat.le_of_not_lt hlt)
      rw [utf8Bytes_eq, String.toList_ofList, flatMap_cons, flatMap_nil,
        append_nil] at hlarge
      obtain ⟨b, hb⟩ : ∃ b, b ∈ String.utf8EncodeChar c := by
        refine exists_mem_of_length_pos ?_
        rw [String.length_utf8EncodeChar]
        exact c.utf8Size_pos
      obtain ⟨d, hd, rfl⟩ := List.mem_map.mp (hbytes b hb)
      have hd80 := lt_of_mem_crockford hd
      have hge := hlarge _ hb
      rw [UInt8.toNat_ofNat'] at hge
      omega

theorem length_of_crockford (h : ∀ c ∈ s, c ∈ CROCKFORD_LOWER) :
    (utf8Bytes (String.ofList s)).length = s.length ∧ utf16Length (String.ofList s) = s.length := by
  rw [utf8Bytes_eq, utf16Length, String.toList_ofList]
  induction s with
  | nil => exact ⟨rfl, rfl⟩
  | cons c s ih =>
    have hc := lt_of_mem_crockford (h c mem_cons_self)
    obtain ⟨hbytes, hunits⟩ := ih fun d hd => h d (mem_cons_of_mem c hd)
    constructor
    · rw [flatMap_cons, length_append, hbytes, utf8EncodeChar_of_lt hc,
        length_singleton, length_cons, Nat.add_comm]
    · rw [map_cons, sum_cons, hunits, if_neg (by omega), length_cons, Nat.add_comm]

/-- **The command line**: what is left after `trim`. -/
theorem normalizeInviteCode_eq (raw : String) :
    normalizeInviteCode raw = codeOf (trimBy isJsSpace raw.toList) := by
  have htrim : jsTrim raw.toList = trimBy isJsSpace raw.toList := rfl
  simp only [normalizeInviteCode, htrim, map_jsLower_iff]
  generalize trimBy isJsSpace raw.toList = s
  rw [codeBody_eq_split fun _ => utf16Units_eq_one, codeOf]
  generalize codeDigits (codeBody s) = digits
  by_cases hall : digits.all (· ∈ CROCKFORD_LOWER) = true
  · rw [(length_of_crockford (all_iff_forall_mem.mp hall)).2, if_pos hall]
    by_cases hlen : digits.length = CODE_BODY_LEN
    · rw [if_neg (not_not.mpr hlen), if_pos ⟨hlen, hall⟩]
    · rw [if_pos hlen, if_neg fun h => hlen h.1]
  · rw [if_neg hall, ite_self]
    exact (if_neg fun h => hall h.2).symm

/-- **The server**: what is left after `str::trim`. -/
theorem normalizeCodeBody_eq (raw : String) :
    normalizeCodeBody raw = codeOf (trimBy isWhitespace raw.toList) := by
  have hlower : CODE_PREFIX.map Char.toLower = CODE_PREFIX := by decide
  simp only [normalizeCodeBody, hlower]
  generalize trimBy isWhitespace raw.toList = s
  rw [codeBody_eq_split fun _ => utf8Size_eq_one]
  -- a prefix as it stands is one in letters of any size
  have hbody : (if CODE_PREFIX <+: s then s.drop CODE_PREFIX.length else codeBody s)
      = codeBody s := by
    split
    · next hprefix =>
      obtain ⟨rest, rfl⟩ := hprefix
      rw [codeBody, take_left, if_pos hlower]
    · rfl
  rw [hbody, codeOf]
  generalize codeDigits (codeBody s) = digits
  have hmem : (∀ b ∈ utf8Bytes (String.ofList digits),
      b ∈ utf8Bytes (String.ofList CROCKFORD_LOWER)) ↔ ∀ c ∈ digits, c ∈ CROCKFORD_LOWER := by
    rw [utf8Bytes_eq (String.ofList digits), String.toList_ofList, forall_mem_flatMap]
    exact forall₂_congr fun c _ => mem_crockford_iff.symm
  simp only [all_iff_forall_mem, hmem]
  by_cases hall : ∀ c ∈ digits, c ∈ CROCKFORD_LOWER
  · rw [(length_of_crockford hall).1]
  · rw [if_neg fun h => hall h.2, if_neg fun h => hall h.2]

/-! ## Where they differ -/

def isEdge (c : Char) : Bool := isJsSpace c || isWhitespace c

theorem isJsSpace_of_isEdge (h : isEdge c = true) : isJsSpace c = true ↔ c ≠ '\u0085' := by
  constructor
  · rintro hjs rfl
    cases hjs
  · intro hne
    have hnat : c.toNat ≠ 0x85 := fun heq => hne (Char.toNat_inj.mp heq)
    simp only [isEdge, isJsSpace, isWhitespace, Bool.or_eq_true, Bool.and_eq_true,
      decide_eq_true_eq, beq_iff_eq] at h ⊢
    omega

theorem isWhitespace_of_isEdge (h : isEdge c = true) : isWhitespace c = true ↔ c ≠ '\uFEFF' := by
  constructor
  · rintro hws rfl
    cases hws
  · intro hne
    have hnat : c.toNat ≠ 0xFEFF := fun heq => hne (Char.toNat_inj.mp heq)
    simp only [isEdge, isJsSpace, isWhitespace, Bool.or_eq_true, Bool.and_eq_true,
      decide_eq_true_eq, beq_iff_eq] at h ⊢
    omega

theorem toLower_of_isEdge (h : isEdge c = true) : c.toLower = c := by
  rw [Char.toLower, dif_neg]
  intro hupper
  have hA : 65 ≤ c.toNat := UInt32.le_iff_toNat_le.mp hupper.1
  have hZ : c.toNat ≤ 90 := UInt32.le_iff_toNat_le.mp hupper.2
  simp only [isEdge, isJsSpace, isWhitespace, Bool.or_eq_true, Bool.and_eq_true,
    decide_eq_true_eq, beq_iff_eq] at h
  omega

/-- Sixteen digits, in letters of any size and with hyphens; behind the prefix, or alone. -/
def IsInviteCode (s : List Char) : Prop :=
  ∃ pre body, s = pre ++ body ∧ (pre = [] ∨ pre.map Char.toLower = CODE_PREFIX) ∧
    (codeDigits body).length = CODE_BODY_LEN ∧ ∀ c ∈ codeDigits body, c ∈ CROCKFORD_LOWER

theorem codeOf_isSome :
    (codeOf s).isSome = true ↔
      (codeDigits (codeBody s)).length = CODE_BODY_LEN ∧
        ∀ c ∈ codeDigits (codeBody s), c ∈ CROCKFORD_LOWER := by
  rw [codeOf, ← all_iff_forall_mem]
  split
  · next h => exact iff_of_true rfl h
  · next h => exact iff_of_false Bool.false_ne_true h

theorem codeBody_of_digits (h : ∀ c ∈ codeDigits s, c ∈ CROCKFORD_LOWER) : codeBody s = s := by
  refine if_neg fun htaken => ?_
  have hdot : '.' ∈ (s.take CODE_PREFIX.length).map Char.toLower := by
    rw [htaken]
    decide
  obtain ⟨c, hc, hlow⟩ := List.mem_map.mp hdot
  have hne : c ≠ '-' := by
    rintro rfl
    exact absurd hlow (by decide)
  have hmem : '.' ∈ codeDigits s := by
    refine List.mem_map.mpr ⟨c, mem_filter.mpr ⟨mem_of_mem_take hc, ?_⟩, hlow⟩
    exact decide_eq_true hne
  exact absurd (h _ hmem) (by decide)

theorem codeBody_append {pre body : List Char} (h : pre.map Char.toLower = CODE_PREFIX) :
    codeBody (pre ++ body) = body := by
  have hlen : CODE_PREFIX.length = pre.length := by rw [← h, length_map]
  rw [codeBody, hlen, take_left, if_pos h, drop_left]

theorem codeOf_isSome_iff : (codeOf s).isSome = true ↔ IsInviteCode s := by
  rw [codeOf_isSome]
  constructor
  · intro h
    by_cases hprefix : (s.take CODE_PREFIX.length).map Char.toLower = CODE_PREFIX
    · rw [codeBody, if_pos hprefix] at h
      exact ⟨s.take CODE_PREFIX.length, s.drop CODE_PREFIX.length,
        (take_append_drop _ s).symm, .inr hprefix, h⟩
    · rw [codeBody, if_neg hprefix] at h
      exact ⟨[], s, rfl, .inl rfl, h⟩
  · rintro ⟨pre, body, rfl, rfl | hprefix, hdigits⟩
    · rwa [nil_append, codeBody_of_digits hdigits.2]
    · rwa [codeBody_append hprefix]

theorem not_isEdge_of_isInviteCode (h : IsInviteCode s) (hc : c ∈ s) : isEdge c = false := by
  obtain ⟨pre, body, rfl, hpre, -, hdigits⟩ := h
  rw [← Bool.not_eq_true]
  intro hedge
  have hlow := toLower_of_isEdge hedge
  rcases mem_append.mp hc with hc | hc
  · rcases hpre with rfl | hprefix
    · cases hc
    · have hmem : c ∈ CODE_PREFIX := by
        rw [← hprefix, ← hlow]
        exact List.mem_map_of_mem hc
      have hall : ∀ d ∈ CODE_PREFIX, isEdge d = false :=
        all_iff_forall_mem.mp (by decide)
      rw [hall c hmem] at hedge
      cases hedge
  · by_cases hhyphen : c = '-'
    · rw [hhyphen] at hedge
      cases hedge
    · have hmem : c ∈ codeDigits body := by
        rw [← hlow]
        exact List.mem_map_of_mem (mem_filter.mpr ⟨hc, decide_eq_true hhyphen⟩)
      have hall : ∀ d ∈ CROCKFORD_LOWER, isEdge d = false :=
        all_iff_forall_mem.mp (by decide)
      rw [hall c (hdigits c hmem)] at hedge
      cases hedge

/-- **What one side keeps is in no code**: it reads the code that is left, if it cuts off all that
the other does. -/
theorem codeOf_trimBy {p : Char → Bool} (hp : ∀ c, p c = true → isEdge c = true) (cs : List Char) :
    codeOf (trimBy p cs)
      = if ∀ c ∈ cs, isEdge c = true → p c = true then codeOf (trimBy isEdge cs) else none := by
  split
  · next hall =>
    rw [trimBy_congr fun c hc => ?_]
    exact Bool.eq_iff_iff.mpr ⟨hp c, hall c hc⟩
  · next hnot =>
    push Not at hnot
    obtain ⟨c, hc, hedge, hkept⟩ := hnot
    rw [← not_isSome_iff_eq_none, codeOf_isSome_iff]
    intro hcode
    have hfalse := not_isEdge_of_isInviteCode hcode
      (mem_trimBy hc (Bool.eq_false_of_not_eq_true hkept))
    rw [hedge] at hfalse
    cases hfalse

theorem normalizeInviteCode_cases (raw : String) :
    normalizeInviteCode raw
      = if '\u0085' ∈ raw.toList then none else codeOf (trimBy isEdge raw.toList) := by
  rw [normalizeInviteCode_eq, codeOf_trimBy fun c hc => by rw [isEdge, hc, Bool.true_or]]
  by_cases hnel : '\u0085' ∈ raw.toList
  · rw [if_pos hnel, if_neg]
    exact fun hall => absurd rfl ((isJsSpace_of_isEdge rfl).mp (hall _ hnel rfl))
  · rw [if_neg hnel, if_pos]
    exact fun c hc hedge => (isJsSpace_of_isEdge hedge).mpr fun heq => hnel (heq ▸ hc)

theorem normalizeCodeBody_cases (raw : String) :
    normalizeCodeBody raw
      = if '\uFEFF' ∈ raw.toList then none else codeOf (trimBy isEdge raw.toList) := by
  rw [normalizeCodeBody_eq, codeOf_trimBy fun c hc => by rw [isEdge, hc, Bool.or_true]]
  by_cases hbom : '\uFEFF' ∈ raw.toList
  · rw [if_pos hbom, if_neg]
    exact fun hall => absurd rfl ((isWhitespace_of_isEdge rfl).mp (hall _ hbom rfl))
  · rw [if_neg hbom, if_pos]
    exact fun c hc hedge => (isWhitespace_of_isEdge hedge).mpr fun heq => hbom (heq ▸ hc)

/-- **Where the two sides agree.** -/
theorem normalize_agree_iff (raw : String) :
    normalizeInviteCode raw = normalizeCodeBody raw ↔
      (IsInviteCode (trimBy isEdge raw.toList) →
        ('\u0085' ∈ raw.toList ↔ '\uFEFF' ∈ raw.toList)) := by
  rw [normalizeInviteCode_cases, normalizeCodeBody_cases, ← codeOf_isSome_iff]
  by_cases hnel : '\u0085' ∈ raw.toList <;> by_cases hbom : '\uFEFF' ∈ raw.toList
  · simp only [hnel, hbom, if_true, implies_true]
  · simp only [hnel, hbom, if_true, if_false, iff_false, not_true, imp_false]
    rw [eq_comm, ← not_isSome_iff_eq_none]
  · simp only [hnel, hbom, if_true, if_false, iff_true, imp_false,
      not_isSome_iff_eq_none]
  · simp only [hnel, hbom, if_false, implies_true]

theorem normalize_agree_counterexample :
    normalizeInviteCode "\uFEFF0123456789abcdef" = some "0123456789abcdef" ∧
      normalizeCodeBody "\uFEFF0123456789abcdef" = none := by
  decide +kernel

/-! ## What the server shows -/

/-- The inner loop of `encode_crockford_16`: what is written, and how many bits are left. -/
def pushDigits (bitbuf : UInt32) : Nat → List Char × Nat
  | bits + 5 =>
    let idx := (bitbuf >>> UInt32.ofNat bits &&& 0x1f).toNat
    let (out, left) := pushDigits bitbuf bits
    (CROCKFORD_LOWER.getD idx '0' :: out, left)
  | bits => ([], bits)

/-- The loop over the bytes; `<<` drops the bits that are written long since. -/
def encodeLoop : Bytes → UInt32 → Nat → List Char
  | [], _, _ => []
  | b :: bytes, bitbuf, bits =>
    let bitbuf := bitbuf <<< 8 ||| b.toUInt32
    let (out, left) := pushDigits bitbuf (bits + 8)
    out ++ encodeLoop bytes bitbuf left

/-- `encode_crockford_16`. -/
def encodeCrockford16 (bytes : BytesN 10) : String := String.ofList (encodeLoop bytes.toBytes 0 0)

/-- The form in which a code is shown: the prefix, and four times four digits. -/
def codeDisplay (body : String) : String :=
  let digits := body.toList
  String.ofList (CODE_PREFIX ++ (digits.take 4 ++ '-' :: ((digits.drop 4).take 4 ++
    '-' :: ((digits.drop 8).take 4 ++ '-' :: (digits.drop 12).take 4))))

/-- `code_hash`. -/
def codeHash (blake3 : Bytes → BytesN 32) (body : String) : BytesN 32 := blake3 (utf8Bytes body)

/-- `generate_code`, from ten random bytes. -/
def generateCode (blake3 : Bytes → BytesN 32) (random : BytesN 10) : String × BytesN 32 :=
  let body := encodeCrockford16 random
  (codeDisplay body, codeHash blake3 body)

/-- `Buffer.from(text, "ascii")`: of each code unit, the lower byte. -/
def asciiBytes (text : String) : Bytes := text.toList.map fun c => UInt8.ofNat c.toNat

/-- `inviteCodeHashHex`. -/
def inviteCodeHashHex (blake3 : Bytes → BytesN 32) (raw : String) : Option String :=
  (normalizeInviteCode raw).map fun body => hexStr (blake3 (asciiBytes body)).toBytes

def IsCodeBody (body : String) : Prop :=
  body.length = CODE_BODY_LEN ∧ ∀ c ∈ body.toList, c ∈ CROCKFORD_LOWER

theorem pushDigits_spec (bitbuf : UInt32) (bits : Nat) :
    5 * (pushDigits bitbuf bits).1.length + (pushDigits bitbuf bits).2 = bits ∧
      (pushDigits bitbuf bits).2 < 5 ∧
      ∀ c ∈ (pushDigits bitbuf bits).1, c ∈ CROCKFORD_LOWER := by
  fun_induction pushDigits bitbuf bits with
  | case1 bits idx out left heq ih =>
    rw [heq] at ih
    obtain ⟨hsum, hleft, hout⟩ := ih
    refine ⟨?_, hleft, forall_mem_cons.mpr ⟨?_, hout⟩⟩
    · show 5 * (out.length + 1) + left = bits + 5
      have : 5 * out.length + left = bits := hsum
      omega
    · have hidx : idx < CROCKFORD_LOWER.length := by
        show ((bitbuf >>> UInt32.ofNat bits).toNat &&& 31) < 32
        exact Nat.lt_of_le_of_lt Nat.and_le_right (by decide)
      rw [getD_eq_getElem?_getD, getElem?_eq_getElem hidx]
      exact getElem_mem hidx
  | case2 bits hlt =>
    refine ⟨by simp, ?_, fun c hc => absurd hc not_mem_nil⟩
    by_contra hle
    exact hlt (bits - 5) (by omega)

theorem encodeLoop_spec (bytes : Bytes) (bitbuf : UInt32) {bits : Nat} (hbits : bits < 5) :
    ((encodeLoop bytes bitbuf bits).length = (8 * bytes.length + bits) / 5) ∧
      ∀ c ∈ encodeLoop bytes bitbuf bits, c ∈ CROCKFORD_LOWER := by
  induction bytes generalizing bitbuf bits with
  | nil =>
    refine ⟨?_, fun c hc => absurd hc not_mem_nil⟩
    show 0 = (8 * 0 + bits) / 5
    omega
  | cons b bytes ih =>
    obtain ⟨hsum, hleft, hout⟩ := pushDigits_spec (bitbuf <<< 8 ||| b.toUInt32) (bits + 8)
    obtain ⟨hlen, hrest⟩ := ih (bitbuf <<< 8 ||| b.toUInt32) hleft
    rw [encodeLoop]
    constructor
    · rw [length_append, hlen, length_cons]
      omega
    · intro c hc
      exact (mem_append.mp hc).elim (hout c) (hrest c)

/-- **What is drawn is a body**: eighty bits leave none over. -/
theorem isCodeBody_encodeCrockford16 (random : BytesN 10) :
    IsCodeBody (encodeCrockford16 random) := by
  obtain ⟨hlen, hdigits⟩ := encodeLoop_spec random.toBytes 0 (Nat.zero_lt_succ 4)
  rw [random.length_eq] at hlen
  rw [IsCodeBody, encodeCrockford16, String.length_ofList, String.toList_ofList]
  exact ⟨hlen, hdigits⟩

theorem codeDigits_append (a b : List Char) :
    codeDigits (a ++ b) = codeDigits a ++ codeDigits b := by
  rw [codeDigits, filter_append, map_append]
  rfl

theorem codeDigits_hyphen (s : List Char) : codeDigits ('-' :: s) = codeDigits s := rfl

theorem codeDigits_of_digits (h : ∀ c ∈ s, c ∈ CROCKFORD_LOWER) : codeDigits s = s := by
  have hall : ∀ c ∈ CROCKFORD_LOWER, c ≠ '-' ∧ c.toLower = c :=
    all_iff_forall_mem.mp (by decide)
  rw [codeDigits, filter_eq_self.mpr fun c hc => decide_eq_true (hall c (h c hc)).1]
  exact (map_congr_left fun c hc => (hall c (h c hc)).2).trans (List.map_id s)

variable {body : String}

theorem codeOf_codeDisplay (h : IsCodeBody body) :
    codeOf (codeDisplay body).toList = some body := by
  obtain ⟨hlen, hdigits⟩ := h
  have hback : codeDigits (codeBody (codeDisplay body).toList) = body.toList := by
    have hpart : ∀ m n, codeDigits ((body.toList.drop m).take n) = (body.toList.drop m).take n :=
      fun m n => codeDigits_of_digits fun c hc =>
        hdigits c (mem_of_mem_drop (mem_of_mem_take hc))
    rw [codeDisplay, String.toList_ofList, codeBody_append (by decide)]
    simp only [codeDigits_append, codeDigits_hyphen, hpart]
    have hfirst := hpart 0 4
    rw [drop_zero] at hfirst
    have hlast : (body.toList.drop 12).take 4 = body.toList.drop 12 :=
      take_of_length_le (by rw [length_drop, String.length_toList, hlen]; decide)
    rw [hfirst, hlast]
    have hcut : ∀ m, (body.toList.drop m).take 4 ++ body.toList.drop (m + 4) = body.toList.drop m :=
      fun m => by rw [← drop_drop, take_append_drop]
    rw [hcut 8, hcut 4, take_append_drop]
  rw [codeOf, hback, if_pos ⟨by rw [String.length_toList, hlen], all_iff_forall_mem.mpr hdigits⟩,
    String.ofList_toList]

theorem normalize_of_codeOf {raw : String} (h : codeOf raw.toList = some body) :
    normalizeInviteCode raw = some body ∧ normalizeCodeBody raw = some body := by
  have hcode : IsInviteCode raw.toList := codeOf_isSome_iff.mp (by rw [h]; rfl)
  have hedge := fun c hc => not_isEdge_of_isInviteCode hcode (c := c) hc
  have htrim : trimBy isEdge raw.toList = raw.toList := trimBy_eq_self hedge
  constructor
  · rw [normalizeInviteCode_cases, if_neg, htrim, h]
    exact fun hnel => absurd (hedge _ hnel) (by decide)
  · rw [normalizeCodeBody_cases, if_neg, htrim, h]
    exact fun hbom => absurd (hedge _ hbom) (by decide)

theorem isCodeBody_of_normalizeCodeBody {raw : String} (h : normalizeCodeBody raw = some body) :
    IsCodeBody body := by
  rw [normalizeCodeBody_eq, codeOf] at h
  obtain ⟨hdigits, heq⟩ := Option.ite_none_right_eq_some.mp h
  rw [← Option.some.inj heq]
  rwa [IsCodeBody, String.length_ofList, String.toList_ofList, ← all_iff_forall_mem]

theorem asciiBytes_eq (h : IsCodeBody body) : asciiBytes body = utf8Bytes body := by
  rw [asciiBytes, utf8Bytes_eq, map_eq_flatMap]
  exact flatMap_congr fun c hc => (utf8EncodeChar_of_lt (lt_of_mem_crockford (h.2 c hc))).symm

/-- **Where the two sides agree on a code**, on its hash as well; and what the server shows is
read, by both, as what it drew. -/
theorem invite_codes_agree (blake3 : Bytes → BytesN 32) :
    (∀ raw, (normalizeInviteCode raw = normalizeCodeBody raw ∧
        (∀ body, normalizeCodeBody raw = some body → IsCodeBody body) ∧
        inviteCodeHashHex blake3 raw
          = (normalizeCodeBody raw).map fun body => hexStr (codeHash blake3 body).toBytes) ↔
      (IsInviteCode (trimBy isEdge raw.toList) →
        ('\u0085' ∈ raw.toList ↔ '\uFEFF' ∈ raw.toList))) ∧
    (∀ body, IsCodeBody body →
      normalizeInviteCode (codeDisplay body) = some body ∧
      normalizeCodeBody (codeDisplay body) = some body) ∧
    ∀ random, ∃ body, IsCodeBody body ∧
      generateCode blake3 random = (codeDisplay body, codeHash blake3 body) := by
  refine ⟨fun raw => ?_, fun body h => normalize_of_codeOf (codeOf_codeDisplay h), fun random =>
    ⟨encodeCrockford16 random, isCodeBody_encodeCrockford16 random, rfl⟩⟩
  rw [← normalize_agree_iff]
  constructor
  · exact fun h => h.1
  · intro heq
    refine ⟨heq, fun body => isCodeBody_of_normalizeCodeBody, ?_⟩
    rw [inviteCodeHashHex, heq]
    cases hbody : normalizeCodeBody raw with
    | none => rfl
    | some body =>
      rw [map_some, map_some, asciiBytes_eq (isCodeBody_of_normalizeCodeBody hbody)]
      rfl

end Dweb
