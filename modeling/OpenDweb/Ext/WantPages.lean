import OpenDweb.Ext.GitObjects

/-!
# OpenDweb — what is missing of a commit

The `want` handler of `opendweb-ext-sync/src/endpoint.mjs`, which walks the closure of a commit, and
`wantClosure` of `engine.mjs`, which asks for it page by page.

* **`wantClosure`** — the answers for the pages of a list, cut with each other.
* **`headNext`** — what an object names by its format: a commit in its header, a tree in entries
  that are whole.
* **`StrayName`** — the walk finds a name that is none of these.
* **`missing_exact_iff`** — without one, what is asked for is what is missing.
-/

namespace Dweb

open List Option

/-! ## The two sides -/

inductive WantError where
  | badRequest
  | internal (missing : List String)
  deriving DecidableEq

/-- The `want` handler. -/
def wantAnswer (store : List (String × GitObject)) (commit : String) (have' : List String) :
    Except WantError (List String) :=
  let haveSet := have'.filter (isOid ·.toList)
  if isOid commit.toList then
    match walkClosure (store.lookup ·) (store.map Prod.fst) commit with
    | .error missing => .error (.internal missing)
    | .ok closure => .ok (closure.filter (· ∉ haveSet))
  else .error .badRequest

section

variable {ε : Type*} (want : List String → Except ε (List String)) (page : Nat)

/-- The loop of `wantClosure`, for what is left of the list. -/
def wantLoop : Nat → List String → Option (List String) → Option (Except ε (List String))
  | 0, _, _ => none
  | turns + 1, have', missing =>
    match want (have'.take page) with
    | .error e => some (.error e)
    | .ok r =>
      let missing := missing.elim r fun missing => missing.filter (· ∈ r)
      if have'.length ≤ page then some (.ok missing)
      else wantLoop turns (have'.drop page) (some missing)

/-- `wantClosure`, with turns for every name. -/
def WantPages.wantClosure (have' : List String) : Option (Except ε (List String)) :=
  wantLoop want page (have'.length + 1) have' none

end

/-! ## What the format says -/

def headerLines (bs : Bytes) : List (List Char) :=
  (linesAt (· = '\n') (fromUtf8Lossy bs)).takeWhile (· ≠ [])

def headCommit (bs : Bytes) : List String :=
  ((linesAt isTerminator (fromUtf8Lossy bs)).findSome? (oidLine "tree")).toList ++
    (headerLines bs).filterMap (oidLine "parent")

def headTree : Nat → Bytes → List String
  | 0, _ => []
  | fuel + 1, bs =>
    match (spanNul bs).2 with
    | none => []
    | some rest =>
      if rest.length < 20 then [] else hexStr (rest.take 20) :: headTree fuel (rest.drop 20)

def headRefs (o : GitObject) : List String :=
  match o.kind with
  | .commit => headCommit o.bytes
  | .tree => headTree o.bytes.length o.bytes
  | .blob => []

def headNext (view : String → Option GitObject) (oid : String) : List String :=
  (view oid).elim [] headRefs

/-- The walk comes upon a name that leads out of the closure: a line in the message of a commit, or
an entry that is cut short. -/
def StrayName (view : String → Option GitObject) (start : String) : Prop :=
  ∃ x o y, Reaches (headNext view) start x ∧ view x = some o ∧ y ∈ walkRefs o ∧
    ¬Reaches (headNext view) start y

theorem mem_walkTree_of_head {fuel : Nat} {bs : Bytes} {oid : String}
    (h : oid ∈ headTree fuel bs) : oid ∈ walkTree fuel bs := by
  induction fuel generalizing bs with
  | zero => cases h
  | succ fuel ih =>
    cases hnul : (spanNul bs).2 with
    | none =>
      rw [headTree, hnul] at h
      cases h
    | some rest =>
      rw [walkTree, hnul]
      rw [headTree, hnul] at h
      dsimp only at h
      split at h
      · cases h
      · rcases mem_cons.mp h with rfl | h
        · exact mem_cons_self
        · exact mem_cons_of_mem _ (ih h)

/-- **The walk misses no name.** -/
theorem mem_walkRefs_of_head {o : GitObject} {oid : String} (h : oid ∈ headRefs o) :
    oid ∈ walkRefs o := by
  obtain ⟨kind, bytes⟩ := o
  cases kind with
  | blob => cases h
  | tree => exact mem_walkTree_of_head h
  | commit =>
    rcases mem_append.mp h with h | h
    · exact mem_append_left _ h
    · obtain ⟨line, hline, hoid⟩ := mem_filterMap.mp h
      have hline := (takeWhile_sublist _).subset hline
      obtain ⟨first, rest, first', rest', hp, hq, hhead, htail⟩ :=
        linesAt_sub (p := (· = '\n')) (q := isTerminator) (by simp [isTerminator])
          (fromUtf8Lossy bytes)
      have hclean := oidLine_clean hoid (by decide)
      refine mem_append_right _ (mem_filterMap.mpr ⟨line, ?_, hoid⟩)
      rw [hp] at hline
      rw [hq]
      rcases mem_cons.mp hline with rfl | hline
      · rw [← hhead hclean]
        exact mem_cons_self
      · exact mem_cons_of_mem _ (htail line hline hclean)

section

variable {view : String → Option GitObject} {start oid : String}

theorem walkNext_eq (oid : String) : walkNext view oid = (view oid).elim [] walkRefs := by
  unfold walkNext
  cases view oid <;> rfl

theorem reaches_walk_of_head (h : Reaches (headNext view) start oid) :
    Reaches (walkNext view) start oid := by
  refine h.mono fun x y hy => ?_
  rw [walkNext_eq]
  rw [headNext] at hy
  cases hview : view x with
  | none =>
    rw [hview] at hy
    cases hy
  | some o =>
    rw [hview] at hy
    exact mem_walkRefs_of_head hy

/-- **The walk goes where the format goes**, and nowhere else, unless it finds a stray name. -/
theorem reaches_iff_not_strayName :
    (∀ x, Reaches (walkNext view) start x ↔ Reaches (headNext view) start x) ↔
      ¬StrayName view start := by
  constructor
  · rintro hsame ⟨x, o, y, hx, ho, hy, hstray⟩
    refine hstray ((hsame y).mp (((hsame x).mpr hx).trans (Reaches.of_mem ?_)))
    rw [walkNext_eq, ho]
    exact hy
  · intro hstray x
    refine ⟨fun h => ?_, reaches_walk_of_head⟩
    refine h.closed (.refl start) fun x hx y hy => ?_
    rw [walkNext_eq] at hy
    cases ho : view x with
    | none =>
      rw [ho] at hy
      cases hy
    | some o =>
      rw [ho] at hy
      by_contra hnot
      exact hstray ⟨x, o, y, hx, ho, hy, hnot⟩

end

/-! ## The walk -/

theorem bfs_nodup {α : Type*} [DecidableEq α] {next : α → List α} {fuel : Nat}
    {queue order out : List α} (h : bfs next fuel queue order = some out) (horder : order.Nodup) :
    out.Nodup := by
  induction fuel generalizing queue order with
  | zero =>
    cases queue with
    | nil =>
      cases h
      exact horder
    | cons a queue => cases h
  | succ fuel ih =>
    cases queue with
    | nil =>
      cases h
      exact horder
    | cons a queue =>
      rw [bfs] at h
      split at h
      · exact ih h horder
      · next hnew =>
        exact ih h (nodup_append.mpr ⟨horder, nodup_singleton a, fun x hx y hy heq =>
          hnew (mem_singleton.mp hy ▸ heq ▸ hx)⟩)

section

variable {store : List (String × GitObject)} {start oid : String}

def walkVisited (store : List (String × GitObject)) (start : String) : Option (List String) :=
  let next := walkNext (store.lookup ·)
  bfs next (1 + bfsLeft next [] (ObjectGraph.around next (store.map Prod.fst) start)) [start] []

/-- What the walk returns when it has come to some names. -/
def walkOutcome (store : List (String × GitObject)) (visited : List String) :
    Except (List String) (List String) :=
  let missing := visited.filter fun oid => (store.lookup oid).isNone
  if missing = [] then .ok visited else .error missing

theorem walkClosure_eq (store : List (String × GitObject)) (start : String) :
    walkClosure (store.lookup ·) (store.map Prod.fst) start
      = (walkVisited store start).elim (.error []) (walkOutcome store) := by
  unfold walkClosure walkVisited
  dsimp only
  cases bfs (walkNext (store.lookup ·)) _ [start] [] <;> rfl

/-- **The walk ends**, and comes to each name once. -/
theorem exists_visited (store : List (String × GitObject)) (start : String) :
    ∃ visited, walkVisited store start = some visited ∧ visited.Nodup ∧
      ∀ x, x ∈ visited ↔ Reaches (walkNext (store.lookup ·)) start x := by
  have hnext : ∀ oid, oid ∉ store.map Prod.fst → walkNext (store.lookup ·) oid = [] := by
    intro oid hoid
    have hnone : store.lookup oid = none := by
      rw [lookup_eq_none_iff]
      intro x hx
      rw [bne_iff_ne]
      intro heq
      apply hoid
      rw [heq]
      exact List.mem_map_of_mem hx
    rw [walkNext, hnone]
  obtain ⟨visited, hvisited⟩ := ObjectGraph.bfs_around hnext start
  exact ⟨visited, hvisited, bfs_nodup hvisited nodup_nil, fun x => mem_bfs_iff hvisited⟩

theorem isOid_hexStr {bytes : Bytes} (h : bytes.length = 20) :
    isOid (hexStr bytes).toList = true := by
  let digit (c : Char) : Bool := ('0' ≤ c && c ≤ '9') || ('a' ≤ c && c ≤ 'f')
  have hbyte : ∀ n < 256, (hexByte (UInt8.ofNat n)).toList.length = 2 ∧
      (hexByte (UInt8.ofNat n)).toList.all digit = true := by decide +kernel
  have hdigits : ∀ bytes : Bytes, (hexStr bytes).toList.length = 2 * bytes.length ∧
      (hexStr bytes).toList.all digit = true := by
    intro bytes
    induction bytes with
    | nil => exact ⟨rfl, rfl⟩
    | cons b bytes ih =>
      obtain ⟨hlen, hall⟩ := hbyte b.toNat b.toNat_lt
      rw [UInt8.ofNat_toNat] at hlen hall
      rw [hexStr_cons, String.toList_append, length_append, hlen, ih.1, length_cons,
        all_append, hall, ih.2]
      exact ⟨by omega, rfl⟩
  obtain ⟨hlen, hall⟩ := hdigits bytes
  rw [isOid, hlen, h, hall]
  rfl

theorem isOid_of_oidLine {tag : String} {line : List Char} (h : oidLine tag line = some oid) :
    isOid oid.toList = true := by
  simp only [oidLine] at h
  split at h
  · next hline =>
    cases h
    rw [String.toList_ofList]
    exact (Bool.and_eq_true_iff.mp hline).2
  · cases h

theorem isOid_of_headRefs {o : GitObject} (h : oid ∈ headRefs o) : isOid oid.toList = true := by
  obtain ⟨kind, bytes⟩ := o
  cases kind with
  | blob => cases h
  | commit =>
    rcases mem_append.mp h with h | h
    · obtain ⟨line, -, hline⟩ := exists_of_findSome?_eq_some (mem_toList.mp h)
      exact isOid_of_oidLine hline
    · obtain ⟨line, -, hline⟩ := mem_filterMap.mp h
      exact isOid_of_oidLine hline
  | tree =>
    have htree : ∀ (fuel : Nat) (bs : Bytes), oid ∈ headTree fuel bs → isOid oid.toList = true := by
      intro fuel
      induction fuel with
      | zero => exact fun _ h => nomatch h
      | succ fuel ih =>
        intro bs h
        rw [headTree] at h
        split at h
        · cases h
        · next rest _ =>
          split at h
          · cases h
          · next hlen =>
            rcases mem_cons.mp h with rfl | h
            · exact isOid_hexStr (by rw [length_take]; omega)
            · exact ih _ h
    exact htree _ _ h

theorem isOid_of_reaches {view : String → Option GitObject} (hstart : isOid start.toList = true)
    (h : Reaches (headNext view) start oid) : isOid oid.toList = true := by
  refine h.closed (P := fun x => isOid x.toList = true) hstart fun x _ y hy => ?_
  rw [headNext] at hy
  cases hview : view x with
  | none =>
    rw [hview] at hy
    cases hy
  | some o =>
    rw [hview] at hy
    exact isOid_of_headRefs hy

/-! ## Page by page -/

/-- **The answers for the pages, cut with each other**, are the answer for the whole list. -/
theorem wantLoop_eq {ε : Type*} {want : List String → Except ε (List String)}
    {closure : String → Prop} {page turns : Nat} {have' : List String}
    {missing : Option (List String)} (hpage : 1 ≤ page)
    (hwant : ∀ names, ∃ r, want names = .ok r ∧ ∀ x, x ∈ r ↔ closure x ∧ x ∉ names)
    (hturns : have'.length < turns) :
    ∃ result, wantLoop want page turns have' missing = some (.ok result) ∧
      ∀ x, x ∈ result ↔ (∀ m ∈ missing, x ∈ m) ∧ closure x ∧ x ∉ have' := by
  induction turns generalizing have' missing with
  | zero => omega
  | succ turns ih =>
    obtain ⟨r, hr, hmem⟩ := hwant (have'.take page)
    have hcut : ∀ x, x ∈ missing.elim r (fun missing => missing.filter (· ∈ r)) ↔
        (∀ m ∈ missing, x ∈ m) ∧ closure x ∧ x ∉ have'.take page := by
      intro x
      cases missing with
      | none => simp [hmem]
      | some m => simp [hmem]
    rw [wantLoop, hr]
    dsimp only
    split
    · next hlast =>
      refine ⟨_, rfl, fun x => ?_⟩
      rw [hcut, take_of_length_le hlast]
    · next hmore =>
      obtain ⟨result, hresult, hin⟩ := @ih (have'.drop page)
        (some (missing.elim r fun missing => missing.filter (· ∈ r)))
        (by rw [length_drop]; omega)
      refine ⟨result, hresult, fun x => ?_⟩
      rw [hin]
      have hsplit : x ∉ have' ↔ x ∉ have'.take page ∧ x ∉ have'.drop page := by
        rw [← not_or, ← mem_append, take_append_drop]
      simp only [mem_some_iff, forall_eq', hcut, hsplit]
      constructor
      · rintro ⟨⟨hm, hc, hfirst⟩, -, hrest⟩
        exact ⟨hm, hc, hfirst, hrest⟩
      · rintro ⟨hm, hc, hfirst, hrest⟩
        exact ⟨⟨hm, hc, hfirst⟩, hc, hrest⟩

def HeadComplete (store : List (String × GitObject)) (commit : String) : Prop :=
  ∀ x, Reaches (headNext (store.lookup ·)) commit x → (store.lookup x).isSome = true

def VisitsExactly (store : List (String × GitObject)) (start : String) : Prop :=
  ∃ visited, walkVisited store start = some visited ∧ visited.Nodup ∧
    ∀ x, x ∈ visited ↔ Reaches (headNext (store.lookup ·)) start x

/-- What is asked for, page by page, is what is missing. -/
def AsksExactly (store : List (String × GitObject)) (commit : String) : Prop :=
  isOid commit.toList = true → HeadComplete store commit →
    ∀ (have' : List String) (page : Nat), have'.Pairwise (· < ·) → 1 ≤ page →
      ∃ missing, WantPages.wantClosure (wantAnswer store commit) page have' = some (.ok missing) ∧
        ∀ x, x ∈ missing ↔ Reaches (headNext (store.lookup ·)) commit x ∧ x ∉ have'

theorem asksExactly (hstray : ¬StrayName (store.lookup ·) start) : AsksExactly store start := by
  intro hoid hcomplete have' page _ hpage
  obtain ⟨visited, hvisited, -, hmem⟩ := exists_visited store start
  have hsame := reaches_iff_not_strayName.mpr hstray
  have hnone : visited.filter (fun oid => (store.lookup oid).isNone) = [] := by
    rw [filter_eq_nil_iff]
    intro oid hin
    have hsome := hcomplete oid ((hsame oid).mp ((hmem oid).mp hin))
    simpa [isSome_iff_ne_none] using hsome
  have hwalk : walkClosure (store.lookup ·) (store.map Prod.fst) start = .ok visited := by
    rw [walkClosure_eq, hvisited, elim_some, walkOutcome, if_pos hnone]
  have hwant : ∀ names, ∃ r, wantAnswer store start names = .ok r ∧
      ∀ x, x ∈ r ↔ Reaches (headNext (store.lookup ·)) start x ∧ x ∉ names := by
    intro names
    refine ⟨visited.filter (· ∉ names.filter (isOid ·.toList)), ?_, fun x => ?_⟩
    · rw [wantAnswer, if_pos hoid, hwalk]
    · rw [mem_filter, hmem, hsame, decide_eq_true_eq, mem_filter]
      refine and_congr_right fun hreach => not_congr ?_
      rw [and_iff_left (isOid_of_reaches hoid hreach)]
  obtain ⟨missing, hmissing, hin⟩ :=
    @wantLoop_eq _ _ _ page _ have' none hpage hwant (Nat.lt_succ_self have'.length)
  refine ⟨missing, hmissing, fun x => ?_⟩
  rw [hin, and_iff_right nofun]

/-- **What is missing of a commit**: the walk always ends, having come to each name once; it comes
to the closure and the pages ask for what is missing of it, exactly if no name leads astray. -/
theorem missing_exact_iff (store : List (String × GitObject)) (start : String) :
    (∃ visited, walkVisited store start = some visited ∧ visited.Nodup) ∧
      (VisitsExactly store start ∧ AsksExactly store start ↔
        ¬StrayName (store.lookup ·) start) := by
  obtain ⟨visited, hvisited, hnodup, hmem⟩ := exists_visited store start
  refine ⟨⟨visited, hvisited, hnodup⟩, ?_⟩
  constructor
  · rintro ⟨⟨visited', hvisited', -, hmem'⟩, -⟩
    rw [← reaches_iff_not_strayName]
    intro x
    rw [hvisited] at hvisited'
    cases hvisited'
    exact (hmem x).symm.trans (hmem' x)
  · intro hstray
    have hsame := reaches_iff_not_strayName.mpr hstray
    exact ⟨⟨visited, hvisited, hnodup, fun x => (hmem x).trans (hsame x)⟩, asksExactly hstray⟩

end

/-- A commit whose message has a line that looks like one of its header. -/
def messageCommit : GitObject where
  kind := .commit
  bytes := ("tree 2222222222222222222222222222222222222222\nauthor a\n\nrevert\n" ++
    "parent 3333333333333333333333333333333333333333\n").toList.map fun c => c.toNat.toUInt8

def messageStore : List (String × GitObject) :=
  [("1111111111111111111111111111111111111111", messageCommit),
    ("2222222222222222222222222222222222222222", { kind := .tree, bytes := [] })]

/-- The closure of the commit is there, and yet it is refused: a parent of which its message speaks
is missing. -/
theorem message_line_refused :
    HeadComplete messageStore "1111111111111111111111111111111111111111" ∧
      ¬AsksExactly messageStore "1111111111111111111111111111111111111111" := by
  have hcommit : headNext (messageStore.lookup ·) "1111111111111111111111111111111111111111"
      = ["2222222222222222222222222222222222222222"] := by decide +kernel
  have htree : headNext (messageStore.lookup ·) "2222222222222222222222222222222222222222"
      = [] := by decide +kernel
  have hcomplete : HeadComplete messageStore "1111111111111111111111111111111111111111" := by
    intro x hx
    have hname : x = "1111111111111111111111111111111111111111" ∨
        x = "2222222222222222222222222222222222222222" := by
      refine hx.closed (P := fun x => x = "1111111111111111111111111111111111111111" ∨
        x = "2222222222222222222222222222222222222222") (Or.inl rfl) fun x hx y hy => ?_
      rcases hx with rfl | rfl
      · rw [hcommit] at hy
        exact Or.inr (mem_singleton.mp hy)
      · rw [htree] at hy
        cases hy
    rcases hname with rfl | rfl <;> decide
  refine ⟨hcomplete, fun h => ?_⟩
  obtain ⟨missing, hmissing, -⟩ := h (by decide) hcomplete [] 1 List.Pairwise.nil le_rfl
  have hrefused : WantPages.wantClosure
      (wantAnswer messageStore "1111111111111111111111111111111111111111")
      1 [] = some (.error (.internal ["3333333333333333333333333333333333333333"])) := by
    decide +kernel
  rw [hrefused] at hmissing
  cases hmissing

end Dweb
