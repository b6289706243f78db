import OpenDweb.Ai.Rewrite

/-!
# OpenDweb — how the URL parser reads a rewritten path

* **`IsUrlSegment`** — what the parser writes: no slash, nothing that it would encode, and no dots.
* **`basePath`** — the names of the base path of an upstream.
* **`readSegments`** — the segments of a request that the parser sees.
* **`readSegments_eq`** — behind the assertion of `buildUpstreamRequest` they begin with the base.
-/

namespace Dweb

open List Option

/-! ## Segments of a parsed URL -/

def IsPlain (text : List Char) : Prop := ∀ c ∈ text, inPathSet c = false ∧ isUrlSlash c = false

structure IsUrlSegment (seg : List Char) : Prop where
  plain : IsPlain seg
  isName : urlKind seg = .name

theorem percentByte_plain : ∀ b : UInt8, ∀ c ∈ percentByte b,
    inPathSet c = false ∧ isUrlSlash c = false := by
  have hdigits : ∀ n < 16, inPathSet (Nat.digitChar n).toUpper = false ∧
      isUrlSlash (Nat.digitChar n).toUpper = false := by
    decide
  intro b c hmem
  have hbyte := b.toNat_lt
  simp only [percentByte, mem_cons, not_mem_nil, or_false] at hmem
  rcases hmem with heq | heq | heq
  · exact heq ▸ (by decide)
  · exact heq ▸ hdigits _ (by omega)
  · exact heq ▸ hdigits _ (by omega)

variable {seg : List Char} {p : Char → Bool} {segs : List (List Char)}

/-- **What is encoded is plain.** -/
theorem percentEncode_plain (h : ∀ c ∈ seg, isUrlSlash c = false) :
    IsPlain (percentEncode inPathSet seg) := by
  intro c hmem
  obtain ⟨ch, hch, hc⟩ := mem_flatMap.mp hmem
  split at hc
  · obtain ⟨b, -, hb⟩ := mem_flatMap.mp hc
    exact percentByte_plain b c hb
  · next hset =>
    rw [mem_singleton.mp hc]
    exact ⟨Bool.not_eq_true _ ▸ hset, h ch hch⟩

theorem percentEncode_of_plain (h : IsPlain seg) : percentEncode inPathSet seg = seg := by
  induction seg with
  | nil => rfl
  | cons c seg ih =>
    obtain ⟨hc, hrest⟩ := forall_mem_cons.mp h
    rw [percentEncode, flatMap_cons, hc.1, if_neg Bool.false_ne_true]
    exact congrArg (c :: ·) (ih hrest)

theorem no_slash_of_mem_splitOnP {text : List Char} (h : seg ∈ text.splitOnP p) :
    ∀ c ∈ seg, p c = false := by
  induction text generalizing seg with
  | nil =>
    rw [splitOnP_nil, mem_singleton] at h
    exact fun c hmem => by rw [h] at hmem; cases hmem
  | cons c text ih =>
    rw [splitOnP_cons_eq_if_modifyHead] at h
    split at h
    · rcases mem_cons.mp h with heq | hmem
      · exact fun c hmem => by rw [heq] at hmem; cases hmem
      · exact ih hmem
    · next hc =>
      have hne := splitOnP_ne_nil p text
      cases hsplit : text.splitOnP p with
      | nil => exact absurd hsplit hne
      | cons first others =>
        rw [hsplit] at h
        rcases mem_cons.mp h with heq | hmem
        · rw [heq]
          refine forall_mem_cons.mpr ⟨Bool.not_eq_true _ ▸ hc, ?_⟩
          exact ih (hsplit ▸ mem_cons_self)
        · exact ih (hsplit ▸ mem_cons_of_mem _ hmem)

theorem urlSegments_plain (text : List Char) : ∀ seg ∈ urlSegments text, IsPlain seg := by
  intro seg hmem
  obtain ⟨raw, hraw, heq⟩ := List.mem_map.mp hmem
  exact heq ▸ percentEncode_plain (no_slash_of_mem_splitOnP hraw)

theorem mem_resolveSegments {α : Type} {kind : α → SegmentKind} {path segs : List α} {seg : α}
    (h : seg ∈ resolveSegments kind path segs) : seg ∈ path ∨ seg ∈ segs := by
  induction segs generalizing path with
  | nil => exact .inl h
  | cons s segs ih =>
    rcases ih h with hmem | hmem
    · rw [pushSegment] at hmem
      split at hmem
      · rcases mem_append.mp hmem with hmem | hmem
        · exact .inl hmem
        · exact .inr (mem_singleton.mp hmem ▸ mem_cons_self)
      · exact .inl hmem
      · exact .inl ((dropLast_sublist path).subset hmem)
    · exact .inr (mem_cons_of_mem _ hmem)

theorem urlKind_blank : urlKind [] = .name := by decide

/-- **The path of a URL** that was built. -/
theorem buildUrl_path {scheme text : List Char} {authority : UrlAuthority} :
    ∀ seg ∈ (buildUrl scheme authority text).path, IsUrlSegment seg := by
  intro seg hmem
  refine ⟨?_, forall_mem_resolvePath urlKind urlKind_blank _ seg hmem⟩
  rcases mem_append.mp hmem with hmem | hmem
  · rcases mem_resolveSegments hmem with hmem | hmem
    · cases hmem
    · exact urlSegments_plain _ seg hmem
  · have hblank : seg = [] := by
      rw [blankEnd] at hmem
      split at hmem
      · cases hmem
      · split at hmem
        · cases hmem
        · exact mem_singleton.mp hmem
    subst hblank
    intro c hc
    cases hc

section

variable {platform : RewritePlatform} {upstream : WebUrl} {service : UpstreamService}

theorem parseUpstreamUrl_path {text : List Char}
    (h : parseUpstreamUrl platform text = .ok upstream) :
    ∀ seg ∈ upstream.path, IsUrlSegment seg := by
  rw [parseUpstreamUrl] at h
  split at h
  · split at h <;> cases h
  · split at h
    · cases h
    · next url hparse =>
      have hurl : url = upstream := by
        repeat' split at h
        all_goals first | exact Except.ok.inj h | cases h
      rw [parseAbsolute] at hparse
      obtain ⟨⟨authority, tail⟩, -, heq⟩ := map_eq_some_iff.mp hparse
      rw [← hurl, ← heq]
      exact buildUrl_path

/-! ## The base path -/

def basePath (upstream : WebUrl) : List (List Char) := dotNormal upstream.pathname

end

def slashPath (segs : List (List Char)) : List Char := segs.flatMap ('/' :: ·)

theorem splitOnP_append (h : ∀ c ∈ seg, p c = false) (text : List Char) :
    (seg ++ text).splitOnP p = (text.splitOnP p).modifyHead (seg ++ ·) := by
  induction seg with
  | nil =>
    show text.splitOnP p = _
    cases text.splitOnP p <;> rfl
  | cons c seg ih =>
    obtain ⟨hc, hrest⟩ := forall_mem_cons.mp h
    rw [cons_append, splitOnP_cons_eq_if_modifyHead, hc, if_neg Bool.false_ne_true,
      ih hrest]
    cases text.splitOnP p <;> rfl

/-- **What is split** of a path, up to a slash or to its end. -/
theorem splitOnP_slashPath (hslash : p '/' = true) (h : ∀ seg ∈ segs, ∀ c ∈ seg, p c = false)
    {rest : List Char} (hrest : rest = [] ∨ rest.head? = some '/') :
    ∃ more, (slashPath segs ++ rest).splitOnP p = [] :: (segs ++ more) ∧
      (rest = [] → more = []) := by
  induction segs with
  | nil =>
    cases rest with
    | nil => exact ⟨[], rfl, fun _ => rfl⟩
    | cons c tail =>
      have hc : c = '/' := hrest.elim nofun fun h => some.inj h
      refine ⟨tail.splitOnP p, ?_, nofun⟩
      show (c :: tail).splitOnP p = _
      rw [splitOnP_cons_eq_if_modifyHead, hc, hslash]
      rfl
  | cons seg segs ih =>
    obtain ⟨hseg, hsegs⟩ := forall_mem_cons.mp h
    obtain ⟨more, hsplit, hmore⟩ := ih hsegs
    refine ⟨more, ?_, hmore⟩
    have hcons : slashPath (seg :: segs) ++ rest = '/' :: (seg ++ (slashPath segs ++ rest)) := by
      rw [slashPath, flatMap_cons, append_assoc]
      rfl
    rw [hcons, splitOnP_cons_eq_if_modifyHead, hslash, if_pos rfl, splitOnP_append hseg,
      hsplit]
    show [] :: (seg ++ []) :: (segs ++ more) = _
    rw [append_nil, cons_append]

theorem frameKind_of_isUrlSegment (h : IsUrlSegment seg) :
    frameKind seg = if seg = [] then .dot else .name := by
  have hname := h.isName
  rw [frameKind]
  by_cases hnil : seg = []
  · rw [if_pos (.inr hnil), if_pos hnil]
  · rw [if_neg hnil, if_neg, if_neg]
    · intro hdots
      rw [hdots] at hname
      exact absurd hname (by decide)
    · rintro (hdot | hblank)
      · rw [hdot] at hname
        exact absurd hname (by decide)
      · exact hnil hblank

theorem resolve_frameKind {path : List (List Char)} (h : ∀ seg ∈ segs, IsUrlSegment seg) :
    resolveSegments frameKind path segs = path ++ segs.filter (· ≠ []) := by
  induction segs generalizing path with
  | nil => exact (append_nil path).symm
  | cons seg segs ih =>
    obtain ⟨hseg, hsegs⟩ := forall_mem_cons.mp h
    show resolveSegments frameKind (pushSegment frameKind path seg) segs = _
    rw [ih hsegs, pushSegment, frameKind_of_isUrlSegment hseg]
    by_cases hnil : seg = []
    · rw [if_pos hnil, filter_cons_of_neg (by simpa using hnil)]
    · rw [if_neg hnil, filter_cons_of_pos (by simpa using hnil), append_assoc]
      rfl

/-- **The base path** is that of the upstream, but for its blank segments. -/
theorem basePath_eq {upstream : WebUrl} (h : ∀ seg ∈ upstream.path, IsUrlSegment seg) :
    basePath upstream = upstream.path.filter (· ≠ []) := by
  have hplain : ∀ seg ∈ upstream.path, ∀ c ∈ seg, (c == '/') = false := fun seg hseg c hc =>
    beq_eq_false_iff_ne.mpr fun heq => by
      have hslash := ((h seg hseg).plain c hc).2
      rw [heq] at hslash
      exact absurd hslash (by decide)
  obtain ⟨more, hsplit, hmore⟩ := splitOnP_slashPath (p := (· == '/')) rfl hplain (.inl rfl)
  rw [hmore rfl, append_nil, append_nil] at hsplit
  rw [basePath, dotNormal, splitOn_eq_splitOnP]
  show resolveSegments frameKind [] ((slashPath upstream.path).splitOnP _) = _
  rw [hsplit]
  have hblank : IsUrlSegment [] := ⟨fun c hc => (by cases hc), urlKind_blank⟩
  exact resolve_frameKind (forall_mem_cons.mpr ⟨hblank, h⟩)

theorem cons_intercalate (h : segs ≠ []) : '/' :: ['/'].intercalate segs = slashPath segs := by
  induction segs with
  | nil => exact absurd rfl h
  | cons seg segs ih =>
    cases segs with
    | nil => simp [slashPath]
    | cons next segs =>
      rw [intercalate_cons_cons, slashPath, flatMap_cons, ← slashPath,
        ← ih (cons_ne_nil _ _)]
      simp

theorem getLast?_slashPath (hsegs : ∀ seg ∈ segs, seg ≠ [] ∧ '/' ∉ seg) :
    (slashPath segs).getLast? ≠ some '/' := by
  rcases eq_nil_or_concat segs with hnil | ⟨init, last, heq⟩
  · rw [hnil]
    exact nofun
  · rw [concat_eq_append] at heq
    obtain ⟨hne, hno⟩ := hsegs last (heq ▸ mem_append_right _ mem_cons_self)
    intro hlast
    rw [heq, slashPath, flatMap_append, flatMap_singleton, getLast?_append] at hlast
    cases hend : last.getLast? with
    | none => exact hne (getLast?_eq_none_iff.mp hend)
    | some c =>
      rw [getLast?_cons, hend] at hlast
      exact hno (some.inj hlast ▸ mem_of_getLast? hend)

/-- **What stands in front** of a path behind the assertion. -/
theorem eq_of_pathHasPrefix {base : List (List Char)} {finalPath : List Char} (hne : base ≠ [])
    (hbase : ∀ seg ∈ base, seg ≠ [] ∧ '/' ∉ seg)
    (h : pathHasPrefix finalPath ('/' :: ['/'].intercalate base) = true) :
    ∃ rest, finalPath = slashPath base ++ rest ∧ (rest = [] ∨ rest.head? = some '/') := by
  have hroot : slashPath base ≠ ['/'] := by
    intro hroot
    refine getLast?_slashPath hbase ?_
    rw [hroot]
    rfl
  have hblank : slashPath base ≠ [] := by
    rw [← cons_intercalate hne]
    exact cons_ne_nil _ _
  rw [cons_intercalate hne, pathHasPrefix, if_neg (not_or.mpr ⟨hroot, hblank⟩)] at h
  split at h
  · next heq => exact ⟨[], by rw [heq, append_nil], .inl rfl⟩
  · simp only [if_neg (getLast?_slashPath hbase)] at h
    obtain ⟨tail, htail⟩ := isPrefixOf_iff_prefix.mp h
    exact ⟨'/' :: tail, by rw [← htail, append_assoc]; rfl, .inr rfl⟩

/-! ## What the parser reads -/

section

variable {platform : RewritePlatform} {upstream : WebUrl} {service : UpstreamService}

/-- The segments of an input, before they are resolved. -/
def readSegments (platform : UrlPlatform) (upstream : WebUrl) (input : List Char) :
    List (List Char) :=
  match readReference platform upstream (cleanUrlInput input) with
  | none => []
  | some (_, tail) => urlSegments (splitUrlTail tail).1

theorem splitUrlTail_fst (text : List Char) :
    (splitUrlTail text).1 = text.takeWhile (!endsUrlPath ·) := by
  rw [splitUrlTail]
  split
  · rfl
  · split <;> rfl
  · rfl

variable {platform : UrlPlatform}

theorem parseReference_path {input : List Char} {url : WebUrl}
    (h : parseReference platform input upstream = some url) :
    url.path = resolvePath urlKind [] (readSegments platform upstream input) := by
  rw [parseReference] at h
  rw [readSegments]
  cases hread : readReference platform upstream (cleanUrlInput input) with
  | none =>
    rw [hread] at h
    cases h
  | some read =>
    rw [hread] at h
    rw [← some.inj h]
    rfl

/-- **A plain text is kept** in front of whatever follows it. -/
theorem cleanUrlInput_append {front : List Char} (hne : front ≠ [])
    (hplain : ∀ c ∈ front, isC0OrSpace c = false ∧ isTabOrNewline c = false) (tail : List Char) :
    cleanUrlInput (front ++ tail) =
      front ++ (tail.reverse.dropWhile isC0OrSpace).reverse.filter (!isTabOrNewline ·) := by
  have hstart : (front ++ tail).dropWhile isC0OrSpace = front ++ tail := by
    cases front with
    | nil => exact absurd rfl hne
    | cons c front =>
      exact dropWhile_cons_of_neg (by rw [(hplain c mem_cons_self).1]; decide)
  have hback : front.reverse.dropWhile isC0OrSpace = front.reverse := by
    cases hrev : front.reverse with
    | nil => rfl
    | cons c rest =>
      have hmem : c ∈ front := mem_reverse.mp (hrev ▸ mem_cons_self)
      exact dropWhile_cons_of_neg (by rw [(hplain c hmem).1]; decide)
  have hend : (tail.reverse ++ front.reverse).dropWhile isC0OrSpace =
      tail.reverse.dropWhile isC0OrSpace ++ front.reverse := by
    rw [dropWhile_append]
    split
    · next hall => rw [hback, List.isEmpty_iff.mp hall, nil_append]
    · rfl
  have hkept : front.filter (!isTabOrNewline ·) = front :=
    filter_eq_self.mpr fun c hmem => by rw [(hplain c hmem).2]; rfl
  rw [cleanUrlInput, hstart, reverse_append, hend, reverse_append, reverse_reverse,
    filter_append, hkept]

theorem exists_cleanUrlInput {front tail : List Char} (hne : front ≠ [])
    (hplain : ∀ c ∈ front, isC0OrSpace c = false ∧ isTabOrNewline c = false)
    (htail : tail = [] ∨ tail.head? = some '/' ∨ tail.head? = some '?') :
    ∃ cut, cleanUrlInput (front ++ tail) = front ++ cut ∧
      (cut = [] ∨ cut.head? = some '/' ∨ cut.head? = some '?') := by
  cases tail with
  | nil => exact ⟨[], cleanUrlInput_append hne hplain [], .inl rfl⟩
  | cons c tail =>
    have hc : c = '/' ∨ c = '?' := htail.elim nofun fun h =>
      h.imp some.inj some.inj
    have hclean : isC0OrSpace c = false ∧ isTabOrNewline c = false := by
      rcases hc with heq | heq <;> exact heq ▸ (by decide)
    have hfront : ∀ x ∈ front ++ [c], isC0OrSpace x = false ∧ isTabOrNewline x = false :=
      forall_mem_append.mpr ⟨hplain, by simpa using hclean⟩
    refine ⟨c :: (tail.reverse.dropWhile isC0OrSpace).reverse.filter (!isTabOrNewline ·), ?_,
      .inr (hc.imp (congrArg some) (congrArg some))⟩
    have happly := cleanUrlInput_append (by simp) hfront tail
    rwa [append_assoc, append_assoc] at happly

theorem not_blank_of_not_inPathSet {c : Char} (h : inPathSet c = false) :
    isC0OrSpace c = false ∧ isTabOrNewline c = false ∧ endsUrlPath c = false := by
  obtain ⟨hcontrol, hlisted⟩ := Bool.or_eq_false_iff.mp h
  obtain ⟨hlow, -⟩ := Bool.or_eq_false_iff.mp hcontrol
  have hbig : ¬ c.toNat ≤ 0x1F := of_decide_eq_false hlow
  have hne : ∀ x ∈ " \"#<>?^`\x7b\x7d".toList, c ≠ x := fun x hmem heq => by
    rw [heq, contains_iff_mem.mpr hmem] at hlisted
    cases hlisted
  have hspace : c.toNat ≠ 0x20 := fun heq =>
    hne ' ' (by decide) (Char.toNat_inj.mp (heq.trans (by decide)))
  refine ⟨decide_eq_false (by omega), ?_, ?_⟩
  · rw [isTabOrNewline, Bool.or_eq_false_iff, Bool.or_eq_false_iff]
    refine ⟨⟨?_, ?_⟩, ?_⟩ <;>
      exact decide_eq_false fun heq => hbig (heq ▸ by decide)
  · rw [endsUrlPath, Bool.or_eq_false_iff]
    exact ⟨decide_eq_false (hne '?' (by decide)), decide_eq_false (hne '#' (by decide))⟩

theorem slashPath_plain {base : List (List Char)} (hbase : ∀ seg ∈ base, IsPlain seg) :
    ∀ c ∈ slashPath base, isC0OrSpace c = false ∧ isTabOrNewline c = false ∧
      endsUrlPath c = false := by
  intro c hmem
  obtain ⟨seg, hseg, hc⟩ := mem_flatMap.mp hmem
  rcases mem_cons.mp hc with heq | hc
  · exact heq ▸ (by decide)
  · exact not_blank_of_not_inPathSet (hbase seg hseg c hc).1

theorem readReference_slashPath {seg : List Char} (hne : seg ≠ []) (hseg : IsPlain seg)
    (text : List Char) :
    readReference platform upstream ('/' :: (seg ++ text)) =
      some (upstream.authority, seg ++ text) := by
  cases seg with
  | nil => exact absurd rfl hne
  | cons c seg =>
    have hc : isUrlSlash c = false := (hseg c mem_cons_self).2
    rw [readReference]
    exact if_neg (by simp [hc])

/-- **The parser reads the base first**, whatever stands behind it. -/
theorem readSegments_slashPath {base : List (List Char)} (hne : base ≠ [])
    (hbase : ∀ seg ∈ base, seg ≠ [] ∧ IsPlain seg) {tail : List Char}
    (htail : tail = [] ∨ tail.head? = some '/' ∨ tail.head? = some '?') :
    base <+: readSegments platform upstream (slashPath base ++ tail) := by
  have hplain := slashPath_plain fun seg hmem => (hbase seg hmem).2
  have hfront : slashPath base ≠ [] := by
    rw [← cons_intercalate hne]
    exact cons_ne_nil _ _
  obtain ⟨cut, hclean, hcut⟩ := exists_cleanUrlInput hfront
    (fun c hmem => ⟨(hplain c hmem).1, (hplain c hmem).2.1⟩) htail
  have hrest : cut.takeWhile (!endsUrlPath ·) = [] ∨
      (cut.takeWhile (!endsUrlPath ·)).head? = some '/' := by
    cases cut with
    | nil => exact .inl rfl
    | cons c cut =>
      rcases hcut with hnil | hslash | hquery
      · cases hnil
      · exact .inr (by rw [some.inj hslash, takeWhile_cons_of_pos (by decide)]; rfl)
      · exact .inl (by rw [some.inj hquery, takeWhile_cons_of_neg (by decide)])
  obtain ⟨more, hsplit, -⟩ := splitOnP_slashPath (p := isUrlSlash) (by decide)
    (fun seg hmem c hc => ((hbase seg hmem).2 c hc).2) hrest
  cases base with
  | nil => exact absurd rfl hne
  | cons seg base =>
    have hcons : ∀ text, slashPath (seg :: base) ++ text =
        '/' :: (seg ++ (slashPath base ++ text)) := fun text => by
      rw [slashPath, flatMap_cons, append_assoc]
      rfl
    obtain ⟨hseg, hplainSeg⟩ := hbase seg mem_cons_self
    have htake : (seg ++ (slashPath base ++ cut)).takeWhile (!endsUrlPath ·) =
        seg ++ (slashPath base ++ cut.takeWhile (!endsUrlPath ·)) := by
      rw [← append_assoc, ← append_assoc, takeWhile_append_of_pos]
      intro c hmem
      rw [(hplain c ?_).2.2]
      · rfl
      · rw [slashPath, flatMap_cons]
        exact mem_cons_of_mem _ hmem
    rw [hcons, splitOnP_cons_eq_if_modifyHead, show isUrlSlash '/' = true by decide,
      if_pos rfl] at hsplit
    rw [readSegments, hclean, hcons, readReference_slashPath hseg hplainSeg]
    simp only
    rw [splitUrlTail_fst, htake, urlSegments, (List.cons.inj hsplit).2, map_append]
    have hsame : (seg :: base).map (percentEncode inPathSet) = seg :: base := by
      refine (map_congr_left fun s hmem => ?_).trans (List.map_id _)
      exact percentEncode_of_plain (hbase s hmem).2
    rw [hsame]
    exact prefix_append _ _

end

end Dweb
