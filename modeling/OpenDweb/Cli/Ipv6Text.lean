import OpenDweb.Lib.JsText

/-!
# OpenDweb — the text of addresses

`opendweb/src/util.mjs`: IPv6 text to groups of 16 bits and back, with `net.isIPv4`. Text is a list
of code points.

* **`parseIpv6Groups`** — with `::` and an IPv4 tail; a zone is rejected.
* **`formatIpv6Groups`** — the longest run of zeros becomes `::`.
* **`CanonicalIpv6`** — the text RFC 5952 asks for; **`formatIpv6Groups_canonical`**.
* **`parseIpv6Groups_formatIpv6Groups`** — what was written is read back.
-/

namespace Dweb

open List Option

/-! ## Numbers -/

/-- `n.toString(16)`. -/
def toHex (n : Nat) : List Char := Nat.toDigits 16 n

/-- `n.toString()`. -/
def toDecimal (n : Nat) : List Char := Nat.toDigits 10 n

/-- `Number(text)`, for digits. -/
def ofDecimal (text : List Char) : Nat := Nat.ofDigitChars 10 text 0

/-- The value of `[0-9a-fA-F]`. -/
def hexValue (ch : Char) : Option Nat :=
  if '0' ≤ ch ∧ ch ≤ '9' then some (ch.toNat - '0'.toNat)
  else if 'a' ≤ ch ∧ ch ≤ 'f' then some (ch.toNat - 'a'.toNat + 10)
  else if 'A' ≤ ch ∧ ch ≤ 'F' then some (ch.toNat - 'A'.toNat + 10)
  else none

/-- `parseInt(text, 16)`; `none` where a character is no digit. -/
def ofHex (text : List Char) : Option Nat :=
  text.foldl (fun acc ch => do return 16 * (← acc) + (← hexValue ch)) (some 0)

/-! ## IPv4 -/

def isIPv4Segment (text : List Char) : Bool := (List.range 256).any fun n => toDecimal n = text

/-- `net.isIPv4`. -/
def isIPv4 (ip : List Char) : Bool :=
  let segments := ip.splitOn '.'
  segments.length = 4 && segments.all isIPv4Segment

/-- `ip.split(".").map(Number)`. -/
def ipv4Bytes (ip : List Char) : List Nat := (ip.splitOn '.').map ofDecimal

/-- `ip.join(".")`. -/
def ipv4Text (bytes : List Nat) : List Char := ['.'].intercalate (bytes.map toDecimal)

/-! ## IPv6 -/

def parseIpv6Group (g : List Char) : Option Nat :=
  if 1 ≤ g.length ∧ g.length ≤ 4 then ofHex g else none

/-- The text before and behind the first `::`. -/
def splitDouble : List Char → Option (List Char × List Char)
  | ':' :: ':' :: tail => some ([], tail)
  | [] => none
  | ch :: rest => (splitDouble rest).map fun (head, tail) => (ch :: head, tail)

def unmapIpv4 (text : List Char) : Option (List Char) :=
  let tail := (text.reverse.takeWhile (· ≠ ':')).reverse
  if ':' ∈ text ∧ '.' ∈ tail then
    if isIPv4 tail then
      match ipv4Bytes tail with
      | [a, b, c, d] =>
        some (text.take (text.length - tail.length) ++ toHex (a * 256 + b) ++ ':' ::
          toHex (c * 256 + d))
      | _ => none
    else none
  else some text

/-- `head === "" ? [] : head.split(":")`. -/
def splitGroups (text : List Char) : List (List Char) := if text = [] then [] else text.splitOn ':'

def parseIpv6Groups (ip : List Char) : Option (List Nat) := do
  if '%' ∈ ip then none
  let text ← unmapIpv4 (ip.map jsLower)
  match splitDouble text with
  | some (head, tail) =>
    if splitDouble (':' :: tail) ≠ none then none
    let headParts := splitGroups head
    let tailParts := splitGroups tail
    if 8 < headParts.length + tailParts.length + 1 then none
    let headGroups ← headParts.mapM parseIpv6Group
    let tailGroups ← tailParts.mapM parseIpv6Group
    let missing := 8 - headParts.length - tailParts.length
    return headGroups ++ List.replicate missing 0 ++ tailGroups
  | none =>
    let parts := text.splitOn ':'
    if parts.length ≠ 8 then none
    parts.mapM parseIpv6Group

/-- The loop over the groups from `i` on; `skip` of them belong to the last run. -/
def bestRun : Nat → Nat → List Bool → Nat × Nat → Nat × Nat
  | _, _, [], best => best
  | i, skip + 1, _ :: rest, best => bestRun (i + 1) skip rest best
  | i, 0, false :: rest, best => bestRun (i + 1) 0 rest best
  | i, 0, true :: rest, (bestStart, bestLen) =>
    let len := (rest.takeWhile id).length + 1
    bestRun (i + 1) (len - 1) rest (if bestLen < len then (i, len) else (bestStart, bestLen))

def joinGroups (groups : List Nat) : List Char := [':'].intercalate (groups.map toHex)

def formatIpv6Groups (groups : List Nat) : List Char :=
  let (bestStart, bestLen) := bestRun 0 0 (groups.map fun g => toHex g = ['0']) (0, 0)
  if bestLen < 2 then joinGroups groups
  else
    joinGroups (groups.take bestStart) ++
      ':' :: ':' :: joinGroups (groups.drop (bestStart + bestLen))

/-- `fe80::/10`. -/
def isLinkLocalIpv6 (groups : List Nat) : Bool := groups.getD 0 0 &&& 0xffc0 = 0xfe80

def IsGroups (groups : List Nat) : Prop := groups.length = 8 ∧ ∀ g ∈ groups, g < 2 ^ 16

/-! ## Digits -/

theorem ofDecimal_toDecimal (n : Nat) : ofDecimal (toDecimal n) = n := Nat.ofDigitChars_ten_toDigits

theorem toHex_ne_nil (n : Nat) : toHex n ≠ [] := Nat.toDigits_ne_nil

variable {n v : Nat} {text : List Char} {groups : List Nat}

theorem forall_mem_toHex {p : Char → Prop} (hp : ∀ d < 16, p (Nat.digitChar d)) :
    ∀ ch ∈ toHex n, p ch :=
  forall_mem_toDigits (by decide) hp n

theorem dot_not_mem_toDecimal (n : Nat) : '.' ∉ toDecimal n := fun hmem =>
  forall_mem_toDigits (p := (· ≠ '.')) (by decide) (by decide) n _ hmem rfl

theorem colon_not_mem_toHex (n : Nat) : ':' ∉ toHex n := fun hmem =>
  forall_mem_toHex (p := (· ≠ ':')) (by decide) _ hmem rfl

theorem ofHex_append_singleton (text : List Char) (ch : Char) :
    ofHex (text ++ [ch]) = do return 16 * (← ofHex text) + (← hexValue ch) := by
  rw [ofHex, foldl_append]
  rfl

theorem ofHex_toHex (n : Nat) : ofHex (toHex n) = some n := by
  have hdigit : ∀ d < 16, hexValue (Nat.digitChar d) = some d := by decide
  induction n using Nat.strongRecOn with
  | ind n ih =>
    by_cases hlt : n < 16
    · rw [toHex, Nat.toDigits_of_lt_base hlt]
      show (do return 16 * 0 + (← hexValue (Nat.digitChar n))) = some n
      rw [hdigit n hlt]
      simp
    · rw [toHex, Nat.toDigits_of_base_le (by decide) (by omega), ofHex_append_singleton]
      rw [show ofHex (Nat.toDigits 16 (n / 16)) = some (n / 16) from ih (n / 16) (by omega),
        hdigit _ (Nat.mod_lt n (by decide))]
      show some (16 * (n / 16) + n % 16) = some n
      rw [Nat.div_add_mod]

theorem parseIpv6Group_toHex (h : n < 2 ^ 16) : parseIpv6Group (toHex n) = some n := by
  have hlen : (toHex n).length ≤ 4 := (Nat.length_toDigits_le_iff (by decide) (by decide)).mpr h
  have hpos : 1 ≤ (toHex n).length := length_pos_iff.mpr (toHex_ne_nil n)
  rw [parseIpv6Group, if_pos ⟨hpos, hlen⟩, ofHex_toHex]

theorem toHex_eq_zero : toHex n = ['0'] ↔ n = 0 := by
  constructor
  · intro h
    have := ofHex_toHex n
    rw [h] at this
    exact (some.inj this).symm
  · intro h
    rw [h]
    rfl

/-! ## IPv4 -/

theorem isIPv4Segment_iff : isIPv4Segment text = true ↔ ∃ n < 256, toDecimal n = text := by
  simp [isIPv4Segment]

theorem splitOn_ipv4Text {bytes : List Nat} (h : bytes ≠ []) :
    (ipv4Text bytes).splitOn '.' = bytes.map toDecimal := by
  refine splitOn_intercalate '.' ?_ (by simpa using h)
  intro text hmem
  obtain ⟨n, -, heq⟩ := List.mem_map.mp hmem
  exact heq ▸ dot_not_mem_toDecimal n

theorem ipv4Bytes_ipv4Text {bytes : List Nat} (h : bytes ≠ []) :
    ipv4Bytes (ipv4Text bytes) = bytes := by
  rw [ipv4Bytes, splitOn_ipv4Text h, List.map_map]
  exact (map_congr_left fun n _ => ofDecimal_toDecimal n).trans (List.map_id _)

theorem isIPv4_iff {ip : List Char} : isIPv4 ip = true ↔
    ∃ bytes, bytes.length = 4 ∧ (∀ b ∈ bytes, b < 256) ∧ ip = ipv4Text bytes := by
  rw [isIPv4, Bool.and_eq_true, decide_eq_true_iff]
  constructor
  · rintro ⟨hlen, hall⟩
    rw [List.all_eq_true] at hall
    have hback : ∀ text ∈ ip.splitOn '.', toDecimal (ofDecimal text) = text ∧
        ofDecimal text < 256 := by
      intro text hmem
      obtain ⟨n, hn, heq⟩ := isIPv4Segment_iff.mp (hall text hmem)
      rw [← heq, ofDecimal_toDecimal]
      exact ⟨rfl, hn⟩
    refine ⟨ipv4Bytes ip, ?_, ?_, ?_⟩
    · rw [ipv4Bytes, length_map, hlen]
    · intro b hmem
      obtain ⟨text, htext, heq⟩ := List.mem_map.mp hmem
      exact heq ▸ (hback text htext).2
    · rw [ipv4Text, ipv4Bytes, List.map_map]
      rw [show (ip.splitOn '.').map (toDecimal ∘ ofDecimal) = ip.splitOn '.' from
        (map_congr_left fun text hmem => (hback text hmem).1).trans (List.map_id _)]
      exact (intercalate_splitOn '.').symm
  · rintro ⟨bytes, hlen, hlt, heq⟩
    have hne : bytes ≠ [] := by
      intro hnil
      rw [hnil] at hlen
      cases hlen
    rw [heq, splitOn_ipv4Text hne, length_map, List.all_eq_true]
    refine ⟨hlen, fun text hmem => ?_⟩
    obtain ⟨n, hn, htext⟩ := List.mem_map.mp hmem
    exact isIPv4Segment_iff.mpr ⟨n, hlt n hn, htext⟩

/-! ## The double colon -/

theorem joinGroups_cons_cons (g g' : Nat) (groups : List Nat) :
    joinGroups (g :: g' :: groups) = toHex g ++ ':' :: joinGroups (g' :: groups) := by
  simp [joinGroups, intercalate_cons_cons]

theorem joinGroups_singleton (g : Nat) : joinGroups [g] = toHex g := by
  simp [joinGroups]

theorem joinGroups_cons_append_ne (g : Nat) (groups : List Nat) (text rest : List Char) :
    joinGroups (g :: groups) ++ text ≠ ':' :: rest := by
  have hhex : ∀ more, toHex g ++ more ≠ ':' :: rest := by
    intro more h
    cases hdigits : toHex g with
    | nil => exact toHex_ne_nil g hdigits
    | cons ch chs =>
      rw [hdigits, cons_append] at h
      have hcolon := colon_not_mem_toHex g
      rw [hdigits, (List.cons.inj h).1] at hcolon
      exact hcolon mem_cons_self
  cases groups with
  | nil =>
    rw [joinGroups_singleton]
    exact hhex text
  | cons g' groups =>
    rw [joinGroups_cons_cons, append_assoc]
    exact hhex _

theorem splitDouble_append {part : List Char} (h : ':' ∉ part) :
    splitDouble (part ++ text) =
      (splitDouble text).map fun (head, tail) => (part ++ head, tail) := by
  induction part with
  | nil => simp
  | cons ch part ih =>
    have hne : ch ≠ ':' := fun heq => h (heq ▸ mem_cons_self)
    have hrest := ih fun hmem => h (mem_cons_of_mem _ hmem)
    rw [cons_append, splitDouble.eq_3 _ _ (fun _ heq _ => hne heq), hrest, Option.map_map]
    rfl

theorem splitDouble_colon (h : ∀ rest, text ≠ ':' :: rest) :
    splitDouble (':' :: text) = (splitDouble text).map fun (head, tail) => (':' :: head, tail) :=
  splitDouble.eq_3 _ _ fun rest _ heq => h rest heq

theorem splitDouble_joinGroups_append (groups : List Nat) (text : List Char) :
    splitDouble (joinGroups groups ++ text) =
      (splitDouble text).map fun (head, tail) => (joinGroups groups ++ head, tail) := by
  induction groups with
  | nil => simp [joinGroups]
  | cons g groups ih =>
    cases groups with
    | nil =>
      rw [joinGroups_singleton]
      exact splitDouble_append (colon_not_mem_toHex g)
    | cons g' groups =>
      rw [joinGroups_cons_cons, append_assoc, splitDouble_append (colon_not_mem_toHex g),
        cons_append, splitDouble_colon (joinGroups_cons_append_ne g' groups text), ih,
        Option.map_map, Option.map_map]
      congr 1
      funext x
      simp

theorem splitDouble_joinGroups (groups : List Nat) : splitDouble (joinGroups groups) = none := by
  rw [← append_nil (joinGroups groups), splitDouble_joinGroups_append]
  rfl

theorem splitDouble_joinGroups_double (groups : List Nat) (tail : List Char) :
    splitDouble (joinGroups groups ++ ':' :: ':' :: tail) = some (joinGroups groups, tail) := by
  rw [splitDouble_joinGroups_append]
  simp [splitDouble]

theorem splitDouble_colon_joinGroups (groups : List Nat) :
    splitDouble (':' :: joinGroups groups) = none := by
  cases groups with
  | nil => rfl
  | cons g groups =>
    have hne := joinGroups_cons_append_ne g groups []
    rw [append_nil] at hne
    rw [splitDouble_colon hne, splitDouble_joinGroups]
    rfl

theorem splitOn_joinGroups (h : groups ≠ []) :
    (joinGroups groups).splitOn ':' = groups.map toHex := by
  refine splitOn_intercalate ':' ?_ (by simpa using h)
  intro text hmem
  obtain ⟨n, -, heq⟩ := List.mem_map.mp hmem
  exact heq ▸ colon_not_mem_toHex n

theorem splitGroups_joinGroups (groups : List Nat) :
    splitGroups (joinGroups groups) = groups.map toHex := by
  cases groups with
  | nil => rfl
  | cons g rest =>
    have hne : joinGroups (g :: rest) ≠ [] := by
      intro hnil
      have hsplit := @splitOn_joinGroups (g :: rest) (by simp)
      rw [hnil] at hsplit
      have hhead := (List.cons.inj hsplit).1
      exact toHex_ne_nil g hhead.symm
    rw [splitGroups, if_neg hne, splitOn_joinGroups (by simp)]

theorem mapM_parseIpv6Group (h : ∀ g ∈ groups, g < 2 ^ 16) :
    (groups.map toHex).mapM parseIpv6Group = some groups := by
  induction groups with
  | nil => rfl
  | cons g rest ih =>
    obtain ⟨hg, hrest⟩ := forall_mem_cons.mp h
    rw [map_cons, mapM_cons, parseIpv6Group_toHex hg, ih hrest]
    rfl

/-! ## Runs of zeros -/

def ZeroRun (groups : List Nat) (start len : Nat) : Prop :=
  (groups.drop start).take len = List.replicate len 0

inductive CanonicalIpv6 (groups : List Nat) : List Char → Prop
  | plain (hruns : ∀ start len, ZeroRun groups start len → len < 2) :
    CanonicalIpv6 groups (joinGroups groups)
  | shortened {start len : Nat} (hrun : ZeroRun groups start len) (hlen : 2 ≤ len)
    (hlongest : ∀ start' len', ZeroRun groups start' len' → len' ≤ len)
    (hfirst : ∀ start', ZeroRun groups start' len → start ≤ start') :
    CanonicalIpv6 groups
      (joinGroups (groups.take start) ++ ':' :: ':' :: joinGroups (groups.drop (start + len)))

theorem le_takeWhile_of_replicate {l : List Bool} {len : Nat}
    (h : l.take len = List.replicate len true) : len ≤ (l.takeWhile id).length := by
  induction len generalizing l with
  | zero => exact Nat.zero_le _
  | succ len ih =>
    cases l with
    | nil => simp [replicate_succ] at h
    | cons b l =>
      rw [take_succ_cons, replicate_succ, List.cons.injEq] at h
      rw [h.1, takeWhile_cons_of_pos rfl]
      exact Nat.succ_le_succ (ih h.2)

/-- The loop finds the first longest run, for each of the 256 patterns of zeros: the run that
starts anywhere is shorter, or is as long and does not start before. -/
theorem bestRun_pattern : ∀ a b c d e f g h : Bool,
    let zeros := [a, b, c, d, e, f, g, h]
    let best := bestRun 0 0 zeros (0, 0)
    best.1 + best.2 ≤ 8 ∧ (zeros.drop best.1).take best.2 = List.replicate best.2 true ∧
    ∀ start < 9, ((zeros.drop start).takeWhile id).length < best.2 ∨
      ((zeros.drop start).takeWhile id).length = best.2 ∧ best.1 ≤ start := by
  decide

theorem zeroRun_iff {start len : Nat} : ZeroRun groups start len ↔
    ((groups.map fun g => decide (toHex g = ['0'])).drop start).take len =
      List.replicate len true := by
  simp only [ZeroRun, eq_replicate_iff, length_take, length_drop, length_map,
    ← map_drop, ← map_take, List.forall_mem_map, decide_eq_true_iff, toHex_eq_zero]

/-- **The loop of `formatIpv6Groups`.** -/
theorem bestRun_spec (h : groups.length = 8) {best : Nat × Nat}
    (hbest : bestRun 0 0 (groups.map fun g => decide (toHex g = ['0'])) (0, 0) = best) :
    best.1 + best.2 ≤ 8 ∧ ZeroRun groups best.1 best.2 ∧
    ∀ start len, ZeroRun groups start len → len ≤ best.2 ∧ (len = best.2 → best.1 ≤ start) := by
  have hpattern : ∀ zeros : List Bool, zeros.length = 8 → bestRun 0 0 zeros (0, 0) = best →
      best.1 + best.2 ≤ 8 ∧ (zeros.drop best.1).take best.2 = List.replicate best.2 true ∧
      ∀ start < 9, ((zeros.drop start).takeWhile id).length < best.2 ∨
        ((zeros.drop start).takeWhile id).length = best.2 ∧ best.1 ≤ start := by
    intro zeros hlen heq
    match zeros, hlen with
    | [a, b, c, d, e, f, g, h], _ => exact heq ▸ bestRun_pattern a b c d e f g h
  obtain ⟨hfits, hrun, hall⟩ := hpattern _ (by rw [length_map, h]) hbest
  refine ⟨hfits, zeroRun_iff.mpr hrun, fun start len hzero => ?_⟩
  have hlen : len ≤ 8 - start := by
    have := congrArg List.length hzero
    rw [length_take, length_drop, h, length_replicate] at this
    omega
  by_cases hstart : start < 9
  · have hle := le_takeWhile_of_replicate (zeroRun_iff.mp hzero)
    rcases hall start hstart with hshorter | ⟨hsame, hfirst⟩
    · omega
    · exact ⟨hsame ▸ hle, fun _ => hfirst⟩
  · omega

theorem formatIpv6Groups_canonical (h : groups.length = 8) :
    CanonicalIpv6 groups (formatIpv6Groups groups) := by
  rw [formatIpv6Groups]
  cases hbest : bestRun 0 0 (groups.map fun g => decide (toHex g = ['0'])) (0, 0) with
  | mk bestStart bestLen =>
    obtain ⟨-, hrun, hall⟩ := bestRun_spec h hbest
    simp only
    by_cases hshort : bestLen < 2
    · rw [if_pos hshort]
      exact .plain fun start len hzero => Nat.lt_of_le_of_lt (hall start len hzero).1 hshort
    · rw [if_neg hshort]
      exact .shortened hrun (by omega) (fun start len hzero => (hall start len hzero).1)
        fun start hzero => (hall start bestLen hzero).2 rfl

/-! ## What was written is read back -/

theorem forall_mem_joinGroups {p : Char → Prop} (hp : ∀ d < 16, p (Nat.digitChar d))
    (hcolon : p ':')
    (groups : List Nat) : ∀ ch ∈ joinGroups groups, p ch := by
  induction groups with
  | nil => exact nofun
  | cons g groups ih =>
    cases groups with
    | nil =>
      rw [joinGroups_singleton]
      exact forall_mem_toHex hp
    | cons g' groups =>
      rw [joinGroups_cons_cons]
      intro ch hmem
      rcases mem_append.mp hmem with hmem | hmem
      · exact forall_mem_toHex hp ch hmem
      · rcases mem_cons.mp hmem with heq | hmem
        · exact heq ▸ hcolon
        · exact ih ch hmem

theorem forall_mem_formatIpv6Groups {p : Char → Prop} (hp : ∀ d < 16, p (Nat.digitChar d))
    (hcolon : p ':') (groups : List Nat) : ∀ ch ∈ formatIpv6Groups groups, p ch := by
  rw [formatIpv6Groups]
  split
  split
  · exact forall_mem_joinGroups hp hcolon groups
  · intro ch hmem
    simp only [mem_append, mem_cons] at hmem
    rcases hmem with hmem | heq | heq | hmem
    · exact forall_mem_joinGroups hp hcolon _ ch hmem
    · exact heq ▸ hcolon
    · exact heq ▸ hcolon
    · exact forall_mem_joinGroups hp hcolon _ ch hmem

theorem unmapIpv4_of_no_dot (h : '.' ∉ text) : unmapIpv4 text = some text := by
  rw [unmapIpv4, if_neg]
  rintro ⟨-, hdot⟩
  exact h (mem_reverse.mp ((takeWhile_sublist _).mem (mem_reverse.mp hdot)))

/-- **The round trip of a text.** -/
theorem parseIpv6Groups_formatIpv6Groups (h : IsGroups groups) :
    parseIpv6Groups (formatIpv6Groups groups) = some groups := by
  obtain ⟨hlen, hlt⟩ := h
  have hpercent : '%' ∉ formatIpv6Groups groups := fun hmem =>
    forall_mem_formatIpv6Groups (p := (· ≠ '%')) (by decide) (by decide) groups _ hmem rfl
  have hdot : '.' ∉ formatIpv6Groups groups := fun hmem =>
    forall_mem_formatIpv6Groups (p := (· ≠ '.')) (by decide) (by decide) groups _ hmem rfl
  have hlower : (formatIpv6Groups groups).map jsLower = formatIpv6Groups groups :=
    (map_congr_left (forall_mem_formatIpv6Groups (p := fun ch => jsLower ch = id ch)
      (by decide) (by decide) groups)).trans (List.map_id _)
  rw [parseIpv6Groups, hlower, unmapIpv4_of_no_dot hdot, if_neg hpercent]
  simp only [bind_eq_bind, bind_some]
  rw [formatIpv6Groups]
  cases hbest : bestRun 0 0 (groups.map fun g => decide (toHex g = ['0'])) (0, 0) with
  | mk bestStart bestLen =>
    obtain ⟨hfits, hrun, -⟩ := bestRun_spec hlen hbest
    simp only
    by_cases hshort : bestLen < 2
    · rw [if_pos hshort, splitDouble_joinGroups]
      have hne : groups ≠ [] := by
        intro hnil
        rw [hnil] at hlen
        cases hlen
      simp only
      rw [splitOn_joinGroups hne, length_map, if_neg (fun hother => hother hlen)]
      exact mapM_parseIpv6Group hlt
    · rw [if_neg hshort, splitDouble_joinGroups_double]
      have hhead : ((groups.take bestStart).map toHex).mapM parseIpv6Group =
          some (groups.take bestStart) :=
        mapM_parseIpv6Group fun g hmem => hlt g (mem_of_mem_take hmem)
      have htail : ((groups.drop (bestStart + bestLen)).map toHex).mapM parseIpv6Group =
          some (groups.drop (bestStart + bestLen)) :=
        mapM_parseIpv6Group fun g hmem => hlt g (mem_of_mem_drop hmem)
      have hlengths : (groups.take bestStart).length = bestStart ∧
          (groups.drop (bestStart + bestLen)).length = 8 - (bestStart + bestLen) := by
        rw [length_take, length_drop, hlen]
        omega
      simp only [splitDouble_colon_joinGroups, splitGroups_joinGroups, length_map]
      rw [if_neg (fun hne => hne rfl), hlengths.1, hlengths.2, if_neg (by omega), hhead, htail]
      -- the zeros between are those of the run
      have hmissing : 8 - bestStart - (8 - (bestStart + bestLen)) = bestLen := by omega
      rw [hmissing]
      show some _ = some groups
      rw [← hrun, ← drop_drop, append_assoc, take_append_drop, take_append_drop]

/-! ## What is read -/

theorem hexValue_lt {ch : Char} (h : hexValue ch = some v) : v < 16 := by
  have hle : ∀ {a b : Char}, a ≤ b → a.toNat ≤ b.toNat := fun h => h
  rw [hexValue] at h
  split at h
  · next hrange =>
    have hup := hle hrange.2
    cases h
    have : '9'.toNat = 57 := rfl
    have : '0'.toNat = 48 := rfl
    omega
  · split at h
    · next hrange =>
      have hup := hle hrange.2
      cases h
      have : 'f'.toNat = 102 := rfl
      have : 'a'.toNat = 97 := rfl
      omega
    · split at h
      · next hrange =>
        have hup := hle hrange.2
        cases h
        have : 'F'.toNat = 70 := rfl
        have : 'A'.toNat = 65 := rfl
        omega
      · cases h

theorem ofHex_lt (h : ofHex text = some v) : v < 16 ^ text.length := by
  induction text using List.reverseRecOn generalizing v with
  | nil =>
    cases h
    decide
  | append_singleton text ch ih =>
    rw [ofHex_append_singleton] at h
    simp only [bind_eq_bind, bind_eq_some_iff, Option.pure_def,
      some.injEq] at h
    obtain ⟨high, hhigh, low, hlow, heq⟩ := h
    have hhigh := ih hhigh
    have hlow := hexValue_lt hlow
    rw [length_append, length_singleton, Nat.pow_succ]
    omega

theorem parseIpv6Group_lt {g : List Char} (h : parseIpv6Group g = some v) : v < 2 ^ 16 := by
  rw [parseIpv6Group] at h
  split at h
  · next hlen =>
    refine Nat.lt_of_lt_of_le (ofHex_lt h) ?_
    exact Nat.pow_le_pow_right (by decide) hlen.2
  · cases h

theorem mapM_parseIpv6Group_lt {parts : List (List Char)}
    (h : parts.mapM parseIpv6Group = some groups) :
    groups.length = parts.length ∧ ∀ g ∈ groups, g < 2 ^ 16 := by
  induction parts generalizing groups with
  | nil =>
    cases h
    exact ⟨rfl, nofun⟩
  | cons part parts ih =>
    rw [mapM_cons] at h
    simp only [bind_eq_bind, bind_eq_some_iff, Option.pure_def,
      some.injEq] at h
    obtain ⟨g, hg, rest, hrest, heq⟩ := h
    subst heq
    obtain ⟨hlen, hlt⟩ := ih hrest
    exact ⟨congrArg (· + 1) hlen, forall_mem_cons.mpr ⟨parseIpv6Group_lt hg, hlt⟩⟩

theorem parseIpv6Groups_isGroups {ip : List Char} (h : parseIpv6Groups ip = some groups) :
    IsGroups groups := by
  rw [parseIpv6Groups] at h
  split at h
  · cases h
  · simp only [bind_eq_bind, bind_eq_some_iff] at h
    obtain ⟨text, -, h⟩ := h
    split at h
    · split at h
      · cases h
      · split at h
        · cases h
        · next hcount =>
          simp only [bind_eq_some_iff, Option.pure_def, some.injEq] at h
          obtain ⟨headGroups, hhead, tailGroups, htail, heq⟩ := h
          obtain ⟨hheadLen, hheadLt⟩ := mapM_parseIpv6Group_lt hhead
          obtain ⟨htailLen, htailLt⟩ := mapM_parseIpv6Group_lt htail
          subst heq
          refine ⟨?_, ?_⟩
          · rw [length_append, length_append, length_replicate, hheadLen, htailLen]
            omega
          · intro g hmem
            simp only [mem_append, mem_replicate] at hmem
            rcases hmem with (hmem | ⟨-, heq⟩) | hmem
            · exact hheadLt g hmem
            · rw [heq]
              decide
            · exact htailLt g hmem
    · split at h
      · cases h
      · next hcount =>
        obtain ⟨hlen, hlt⟩ := mapM_parseIpv6Group_lt h
        exact ⟨hlen.trans (by simpa using hcount), hlt⟩

end Dweb
