import OpenDweb.Continuity.Session

/-!
# OpenDweb — the order of a replay (`dweb-fabric/src/continuity/session.rs`)

`interleave_replay` keeps a cursor in each batch, and goes over the cursors in rounds until a round
gives nothing. What it pushes is told here by the two indices `i` and `j` of the source.

* **`cursorLoop`** — the loop over the cursors; **`replayIndices`** is the call.
* **`Earlier`** — the order of the pushes: by round, then by batch, then by segment.
* **`interleave_replay_order`** — the loop ends; every segment of every batch is pushed once, those
  of a batch in their order, and no batch gets more than a round's share while another one waits.
-/

namespace Dweb

open List Option

/-- One of the `cursors`, a `Range<usize>`. -/
structure ReplayCursor where
  start : Nat
  stop : Nat

/-- `(range.start + REPLAY_PER_ROUND).min(range.end)`. -/
def ReplayCursor.turnEnd (range : ReplayCursor) : Nat :=
  min (range.start + replayPerRound) range.stop

/-- One round: the pairs `(i, j)` that are pushed. -/
def cursorRound (cursors : List ReplayCursor) : List (Nat × Nat) :=
  cursors.zipIdx.flatMap fun (range, i) =>
    (List.range' range.start (range.turnEnd - range.start)).map fun j => (i, j)

/-- The loop; `none` while it has not returned. -/
def cursorLoop : Nat → List ReplayCursor → Option (List (Nat × Nat))
  | 0, _ => none
  | turns + 1, cursors =>
    match cursorRound cursors with
    | [] => some []
    | round =>
      (cursorLoop turns (cursors.map fun range => { range with start := range.turnEnd })).map
        (round ++ ·)

/-- The pushes of `interleave_replay`, once it has returned. -/
def replayIndices (turns : Nat) (batches : List (Nat × List (Nat × Bytes))) :
    Option (List (Nat × Nat)) :=
  cursorLoop turns (batches.map fun b => { start := 0, stop := b.2.length })

/-- `(batches[i].0, batches[i].1[j].0, batches[i].1[j].1)`. -/
def segmentAt (batches : List (Nat × List (Nat × Bytes))) (p : Nat × Nat) :
    Option (Nat × Nat × Bytes) :=
  batches[p.1]?.bind fun b => b.2[p.2]?.map fun seg => (b.1, seg.1, seg.2)

/-! ## The order of the pushes -/

def Earlier (p q : Nat × Nat) : Prop :=
  p.2 / replayPerRound < q.2 / replayPerRound ∨
    p.2 / replayPerRound = q.2 / replayPerRound ∧ (p.1 < q.1 ∨ p.1 = q.1 ∧ p.2 < q.2)

variable {p : Nat × Nat} {i : Nat} {lens : List Nat}

theorem Earlier.asymm {q : Nat × Nat} (h : Earlier p q) : ¬Earlier q p := by
  unfold Earlier at *
  omega

theorem Earlier.irrefl (h : Earlier p p) : False := h.asymm h

theorem Earlier.lt {j j' : Nat} (h : Earlier (i, j) (i, j')) : j < j' := by
  simp only [Earlier, replayPerRound] at h
  omega

/-- The cursors after `k` rounds over batches of these lengths. -/
def cursorsAt (lens : List Nat) (k : Nat) : List ReplayCursor :=
  lens.map fun n => { start := min (replayPerRound * k) n, stop := n }

theorem cursorsAt_succ (lens : List Nat) (k : Nat) :
    (cursorsAt lens k).map (fun range => { range with start := range.turnEnd })
      = cursorsAt lens (k + 1) := by
  unfold cursorsAt ReplayCursor.turnEnd
  rw [List.map_map]
  refine map_congr_left fun n _ => ?_
  simp only [Function.comp_apply, replayPerRound, ReplayCursor.mk.injEq, and_true]
  omega

theorem mem_cursorRound {k : Nat} :
    p ∈ cursorRound (cursorsAt lens k)
      ↔ (∃ n, lens[p.1]? = some n ∧ p.2 < n) ∧ p.2 / replayPerRound = k := by
  simp only [cursorRound, cursorsAt, mem_flatMap, Prod.exists, mem_zipIdx_iff_getElem?,
    getElem?_map, map_eq_some_iff, List.mem_map, mem_range'_1,
    ReplayCursor.turnEnd, replayPerRound]
  constructor
  · rintro ⟨_, i, ⟨n, hn, rfl⟩, j, hj, rfl⟩
    dsimp only at hj ⊢
    exact ⟨⟨n, hn, by omega⟩, by omega⟩
  · rintro ⟨⟨n, hn, hlt⟩, hround⟩
    refine ⟨_, p.1, ⟨n, hn, rfl⟩, p.2, ?_, rfl⟩
    dsimp only
    omega

theorem earlier_cursorRound (lens : List Nat) (k : Nat) :
    (cursorRound (cursorsAt lens k)).Pairwise Earlier := by
  suffices h : (cursorRound (cursorsAt lens k)).Pairwise
      fun p q => p.1 < q.1 ∨ p.1 = q.1 ∧ p.2 < q.2 from
    (List.Pairwise.and_mem.mp h).imp fun ⟨hp, hq, hlex⟩ =>
      Or.inr ⟨(mem_cursorRound.mp hp).2.trans (mem_cursorRound.mp hq).2.symm, hlex⟩
  unfold cursorRound
  refine pairwise_flatMap.mpr ⟨fun r _ => ?_, ?_⟩
  · have hlt : (List.range' r.1.start (r.1.turnEnd - r.1.start)).Pairwise (· < ·) :=
      pairwise_lt_range'
    exact pairwise_map.mpr (hlt.imp fun hlt => Or.inr ⟨rfl, hlt⟩)
  · have hidx : ((cursorsAt lens k).zipIdx.map Prod.snd).Pairwise (· < ·) := by
      rw [zipIdx_map_snd]
      exact pairwise_lt_range'
    refine (pairwise_map.mp hidx).imp fun hlt p hp q hq => Or.inl ?_
    obtain ⟨_, -, rfl⟩ := List.mem_map.mp hp
    obtain ⟨_, -, rfl⟩ := List.mem_map.mp hq
    exact hlt

/-- **The loop from round `k` on** pushes what is left, in order; the longest batch bounds the
number of rounds. -/
theorem cursorLoop_spec (turns : Nat) : ∀ k,
    (∀ n ∈ lens, n ≤ replayPerRound * (k + turns)) →
    ∃ order, cursorLoop (turns + 1) (cursorsAt lens k) = some order ∧ order.Pairwise Earlier
      ∧ ∀ p : Nat × Nat, p ∈ order
        ↔ (∃ n, lens[p.1]? = some n ∧ p.2 < n) ∧ k ≤ p.2 / replayPerRound := by
  induction turns with
  | zero =>
    intro k hlens
    have hnone : ∀ p : Nat × Nat,
        ¬((∃ n, lens[p.1]? = some n ∧ p.2 < n) ∧ k ≤ p.2 / replayPerRound) := by
      rintro p ⟨⟨n, hn, hlt⟩, hk⟩
      have hle := hlens n (mem_of_getElem? hn)
      simp only [replayPerRound] at hle hk
      omega
    have hround : cursorRound (cursorsAt lens k) = [] :=
      eq_nil_iff_forall_not_mem.mpr fun p hp =>
        hnone p ((mem_cursorRound.mp hp).imp_right fun heq => heq.ge)
    refine ⟨[], ?_, .nil, fun p => iff_of_false not_mem_nil (hnone p)⟩
    rw [cursorLoop, hround]
  | succ turns ih =>
    intro k hlens
    obtain ⟨rest, hrest, hsorted, hmem⟩ := ih (k + 1) fun n hn => by
      rw [Nat.add_assoc, Nat.add_comm 1]
      exact hlens n hn
    have hsplit : ∀ p : Nat × Nat, p ∈ cursorRound (cursorsAt lens k) ++ rest
        ↔ (∃ n, lens[p.1]? = some n ∧ p.2 < n) ∧ k ≤ p.2 / replayPerRound := fun p => by
      rw [mem_append, mem_cursorRound, hmem, ← and_or_left]
      exact and_congr_right fun _ => by omega
    have happend : (cursorRound (cursorsAt lens k) ++ rest).Pairwise Earlier :=
      pairwise_append.mpr ⟨earlier_cursorRound lens k, hsorted, fun p hp q hq =>
        Or.inl ((mem_cursorRound.mp hp).2 ▸ ((hmem q).mp hq).2)⟩
    cases hround : cursorRound (cursorsAt lens k) with
    | nil =>
      -- a batch that has nothing in this round has nothing in a later one
      have hempty : rest = [] := eq_nil_iff_forall_not_mem.mpr fun p hp => by
        obtain ⟨⟨n, hn, hlt⟩, hk⟩ := (hmem p).mp hp
        have hlast : (p.1, replayPerRound * k) ∈ cursorRound (cursorsAt lens k) :=
          mem_cursorRound.mpr ⟨⟨n, hn, by simp only [replayPerRound] at hk ⊢; omega⟩,
            by simp only [replayPerRound]; omega⟩
        rw [hround] at hlast
        cases hlast
      rw [hround, hempty] at hsplit
      exact ⟨[], by rw [cursorLoop, hround], .nil, hsplit⟩
    | cons p round =>
      rw [hround] at hsplit happend
      refine ⟨_, ?_, happend, hsplit⟩
      rw [cursorLoop, hround]
      dsimp only
      rw [cursorsAt_succ, hrest]
      rfl

/-! ## No batch waits for more than a round -/

/-- Five pushes of one batch are of more than one round, and in between every other batch that has
something left has its turn. -/
theorem fair_of_earlier {order before window after : List (Nat × Nat)}
    (hsorted : order.Pairwise Earlier)
    (hmem : ∀ p : Nat × Nat, p ∈ order ↔ ∃ n, lens[p.1]? = some n ∧ p.2 < n)
    (hsplit : order = before ++ window ++ after) {i' j' : Nat} (hne : i ≠ i')
    (hmany : replayPerRound < (window.filter fun p => p.1 = i).length) (hleft : (i', j') ∈ after) :
    ∃ j, (i', j) ∈ window := by
  rw [hsplit] at hsorted
  obtain ⟨hfront, -, hback⟩ := pairwise_append.mp hsorted
  obtain ⟨-, hwindow, hmid⟩ := pairwise_append.mp hfront
  obtain ⟨a, e, ha, he, hae⟩ : ∃ a e, (i, a) ∈ window ∧ (i, e) ∈ window
      ∧ a + replayPerRound ≤ e := by
    have hown : ∀ p ∈ window.filter fun p => p.1 = i, p ∈ window ∧ p.1 = i := fun p hp => by
      simpa using hp
    have hlt : (window.filter fun p => p.1 = i).Pairwise fun p q => p.2 < q.2 := by
      refine (List.Pairwise.and_mem.mp (hwindow.filter _)).imp ?_
      rintro ⟨_, j⟩ ⟨_, l⟩ ⟨hp, hq, h⟩
      obtain rfl := (hown _ hp).2
      obtain rfl := (hown _ hq).2
      exact h.lt
    generalize window.filter (fun p => p.1 = i) = own at hmany hown hlt
    match own with
    | p :: q :: r :: s :: t :: _ =>
      have hp := hown p (by simp)
      have ht := hown t (by simp)
      simp only [pairwise_cons, mem_cons, forall_eq_or_imp] at hlt
      refine ⟨p.2, t.2, hp.2 ▸ hp.1, ht.2 ▸ ht.1, ?_⟩
      simp only [replayPerRound]
      omega
    | [] | [_] | [_, _] | [_, _, _] | [_, _, _, _] => simp [replayPerRound] at hmany
  -- the first segment of `i'` in the round of `(i, a)` or in the next one
  obtain ⟨n, hn, hlt⟩ := (hmem (i', j')).mp (hsplit ▸ mem_append_right _ hleft)
  have hlate := hback _ (mem_append_right _ he) _ hleft
  obtain ⟨j, hj, hafter, hbefore⟩ :
      ∃ j, j < n ∧ Earlier (i, a) (i', j) ∧ Earlier (i', j) (i, e) := by
    refine ⟨replayPerRound * (a / replayPerRound + if i < i' then 0 else 1), ?_⟩
    simp only [Earlier, replayPerRound] at hlate hae hlt ⊢
    split <;> omega
  refine ⟨j, ?_⟩
  have hin : (i', j) ∈ before ++ window ++ after := hsplit ▸ (hmem (i', j)).mpr ⟨n, hn, hj⟩
  rcases mem_append.mp hin with hin | hin
  · rcases mem_append.mp hin with hin | hin
    · exact absurd hafter (hmid _ hin _ ha).asymm
    · exact hin
  · exact absurd hbefore (hback _ (mem_append_right _ he) _ hin).asymm

/-! ## What is pushed -/

theorem cursorTurn_eq {batches : List (Nat × List (Nat × Bytes))} {b : Nat × List (Nat × Bytes)}
    (hb : batches[i]? = some b) (k : Nat) {range : ReplayCursor}
    (hrange : range = { start := min (replayPerRound * k) b.2.length, stop := b.2.length }) :
    (List.range' range.start (range.turnEnd - range.start)).map (fun j => segmentAt batches (i, j))
      = (((b.2.drop (replayPerRound * k)).take replayPerRound).map fun seg =>
        (b.1, seg.1, seg.2)).map some := by
  subst hrange
  refine ext_getElem? fun j => ?_
  simp only [getElem?_map, getElem?_take, getElem?_drop, segmentAt, hb,
    bind_some, ReplayCursor.turnEnd, replayPerRound]
  by_cases hin : 4 * k + j < b.2.length ∧ j < 4
  · rw [getElem?_range' (by omega), if_pos hin.2, map_some, Nat.one_mul,
      Nat.min_eq_left (by omega : 4 * k ≤ b.2.length), getElem?_eq_getElem hin.1]
    rfl
  · rw [getElem?_eq_none (by rw [length_range']; omega)]
    split
    · rw [getElem?_eq_none (by omega)]
      rfl
    · rfl

theorem interleaveRound_eq (batches : List (Nat × List (Nat × Bytes))) (k : Nat) :
    (cursorRound (cursorsAt (batches.map fun b => b.2.length) k)).map (segmentAt batches)
      = (interleaveRound (batches.map fun b => (b.1, b.2.drop (replayPerRound * k)))).map some := by
  unfold cursorRound interleaveRound cursorsAt
  conv_rhs => rw [← zipIdx_map_fst 0 batches]
  simp only [List.map_map, zipIdx_map, flatMap_map, map_flatMap]
  refine flatMap_congr fun r hr => ?_
  have hturn := cursorTurn_eq (mem_zipIdx_iff_getElem?.mp hr) k rfl
  rwa [List.map_map] at hturn

theorem interleaveLoop_eq {batches : List (Nat × List (Nat × Bytes))} (turns : Nat) :
    ∀ {k : Nat} {order : List (Nat × Nat)},
      cursorLoop turns (cursorsAt (batches.map fun b => b.2.length) k) = some order →
      ∀ fuel, turns ≤ fuel →
        order.map (segmentAt batches)
          = (interleaveLoop fuel (batches.map fun b =>
            (b.1, b.2.drop (replayPerRound * k)))).map some := by
  induction turns with
  | zero => exact nofun
  | succ turns ih =>
    intro k order hloop fuel hfuel
    obtain ⟨fuel, rfl⟩ := Nat.exists_eq_add_of_le' hfuel
    have hround := interleaveRound_eq batches k
    rw [cursorLoop] at hloop
    rw [← Nat.add_assoc, interleaveLoop]
    split at hloop
    · next hnil =>
      cases hloop
      rw [hnil] at hround
      rw [map_eq_nil_iff.mp hround.symm]
      rfl
    · next hne =>
      rw [cursorsAt_succ] at hloop
      obtain ⟨rest, hrest, rfl⟩ := map_eq_some_iff.mp hloop
      have hnext := ih hrest (fuel + turns) (Nat.le_add_left _ _)
      split
      · next hnil =>
        rw [hnil] at hround
        exact absurd (map_eq_nil_iff.mp hround) hne
      · rw [map_append, hround, hnext, map_append, List.map_map]
        simp only [Function.comp_def, drop_drop, Nat.mul_succ]

/-- **A replay is in order, complete, and fair**: the loop returns; each segment of each batch is
pushed once, those of a batch one after the other; and where a batch is pushed more than a round's
share, every other batch with something left is pushed in between. -/
theorem interleave_replay_order (batches : List (Nat × List (Nat × Bytes))) :
    ∃ order : List (Nat × Nat),
      (∃ turns, replayIndices turns batches = some order)
      ∧ order.map (segmentAt batches) = (interleaveReplay batches).map some
      ∧ order.Nodup
      ∧ (∀ i j, (i, j) ∈ order ↔ ∃ b, batches[i]? = some b ∧ j < b.2.length)
      ∧ (∀ i, (order.filter fun p => p.1 = i).Pairwise fun p q => p.2 < q.2)
      ∧ ∀ before window after, order = before ++ window ++ after → ∀ i i', i ≠ i' →
        replayPerRound < (window.filter fun p => p.1 = i).length →
        (∃ j, (i', j) ∈ window ++ after) → ∃ j, (i', j) ∈ window := by
  have hstart : (batches.map fun b => (⟨0, b.2.length⟩ : ReplayCursor))
      = cursorsAt (batches.map fun b => b.2.length) 0 := by
    rw [cursorsAt, List.map_map]
    exact map_congr_left fun b _ => by simp
  have hlens : ∀ n ∈ batches.map fun b => b.2.length,
      n ≤ replayPerRound * (0 + (batches.map fun b => b.2.length).sum) := fun n hn => by
    have hle := le_sum_of_mem hn
    simp only [replayPerRound]
    omega
  obtain ⟨order, hloop, hsorted, hmem⟩ := cursorLoop_spec _ 0 hlens
  replace hmem : ∀ p : Nat × Nat, p ∈ order
      ↔ ∃ n, (batches.map fun b => b.2.length)[p.1]? = some n ∧ p.2 < n := fun p =>
    (hmem p).trans (and_iff_left (Nat.zero_le _))
  refine ⟨order, ⟨_, by rw [replayIndices, hstart, hloop]⟩, ?_, ?_, fun i j => ?_, fun i => ?_, ?_⟩
  · have hmap := interleaveLoop_eq _ hloop _ (Nat.le_refl _)
    rw [interleaveReplay]
    simpa only [Nat.mul_zero, drop_zero, List.map_id'] using hmap
  · refine List.Pairwise.imp ?_ hsorted
    rintro p _ h rfl
    exact h.irrefl
  · rw [hmem]
    simp only [getElem?_map, map_eq_some_iff, exists_exists_and_eq_and]
  · refine (List.Pairwise.and_mem.mp (hsorted.filter _)).imp ?_
    rintro ⟨a, j⟩ ⟨b, l⟩ ⟨hp, hq, h⟩
    obtain rfl : a = i := by simpa using (mem_filter.mp hp).2
    obtain rfl : b = a := by simpa using (mem_filter.mp hq).2
    exact h.lt
  · rintro before window after hsplit i i' hne hmany ⟨j, hj⟩
    rcases mem_append.mp hj with hj | hj
    · exact ⟨j, hj⟩
    · exact fair_of_earlier hsorted hmem hsplit hne hmany hj

end Dweb
