import OpenDweb.Continuity.WindowLaws
import OpenDweb.Lib.Machine

/-!
# OpenDweb — reassembling a string from arbitrary pieces

The window is fed pieces of one string, cut anywhere, in any order and any number of times. It
keys its gaps by where they begin and drains only one that begins exactly where it stands.

* **`Slices`** — what holds after any pieces: what was delivered is the string's beginning, and
  what was accepted is that and the gaps.
* **`PassesNoStart`** — the delivery that begins at a place passes over the start of no gap.
* **`reassembly_iff`** — a run reassembles the string at every point exactly if no piece meets
  another at its start with a different end and no delivery passes over a start.
-/

namespace Dweb

open Std (ExtTreeMap)
open List Option Std.ExtTreeMap

/-! ## Runs of pieces -/

/-- A piece of `S`, with the caps of the call. -/
structure Piece (S : Bytes) where
  offset : Nat
  length : Nat
  end_le : offset + length ≤ S.length
  end_lt : offset + length < 2 ^ 64
  gapCap : Nat
  gapByteCap : Nat

def Piece.payload {S : Bytes} (c : Piece S) : Bytes := slice S c.offset (c.offset + c.length)

def SegmentAction.isMismatch : SegmentAction → Bool
  | .overlapMismatch _ _ => true
  | .deliver _ | .duplicate | .buffered => false

def isAccepted : Except GapOverflow SegmentAction → Bool
  | .ok action => !action.isMismatch
  | .error _ => false

structure Reassembly where
  window : RecvWindow
  delivered : Bytes
  accepted : List (Nat × Nat)
  mismatches : List SegmentAction
  passed : List Nat

def Reassembly.start : Reassembly where
  window := .new
  delivered := []
  accepted := []
  mismatches := []
  passed := []

/-- The offset `x` lies in an accepted piece. -/
def Reassembly.Covered (s : Reassembly) (x : Nat) : Prop := ∃ c ∈ s.accepted, c.1 ≤ x ∧ x < c.2

def reassemblyMachine (S : Bytes) : Machine Reassembly (Piece S) where
  init s := s = .start
  step s c :=
    let r := s.window.feedWithLimits c.offset c.payload c.gapCap c.gapByteCap
    some {
      window := r.1
      delivered := s.delivered ++ deliveredBytes r.2
      accepted :=
        if isAccepted r.2 then (c.offset, c.offset + c.length) :: s.accepted else s.accepted
      mismatches := (r.2.toOption.filter SegmentAction.isMismatch).toList ++ s.mismatches
      passed := s.window.expectedOffset :: s.passed }

/-- The string is being put together: what the calls so far promise. -/
structure Reassembled (S : Bytes) (s : Reassembly) : Prop where
  agreed : s.mismatches = []
  delivered : s.delivered = S.take s.window.expectedOffset
  forward : ∀ e ∈ s.passed, e ≤ s.window.expectedOffset
  covered : ∀ x < s.window.expectedOffset, s.Covered x
  longest : ¬s.Covered s.window.expectedOffset
  ahead : ∀ off ∈ s.window.gaps, s.window.expectedOffset < off
  gapBytes : s.window.gapBytes = mapSum s.window.gaps List.length

/-! ## The condition -/

/-- Where a delivery from `e` on comes by: the end of each gap that begins where it stands. -/
inductive ReachesFrom (gaps : ExtTreeMap Nat Bytes) (e : Nat) : Nat → Prop where
  | start : ReachesFrom gaps e e
  | next {x : Nat} {q : Bytes} (hx : ReachesFrom gaps e x) (hq : gaps[x]? = some q) :
      ReachesFrom gaps e (x + q.length)

/-- A gap that begins before a place the delivery comes by begins at such a place. -/
def PassesNoStart (gaps : ExtTreeMap Nat Bytes) (e : Nat) : Prop :=
  ∀ g ∈ gaps, ∀ x, ReachesFrom gaps e x → g < x → ReachesFrom gaps e g

structure FitsGaps {S : Bytes} (s : Reassembly) (c : Piece S) : Prop where
  identical : s.window.expectedOffset < c.offset →
    ∀ q, s.window.gaps[c.offset]? = some q → q = c.payload
  clear : c.offset ≤ s.window.expectedOffset →
    PassesNoStart s.window.gaps (c.offset + c.length)

/-! ## Deliveries and the starts of gaps -/

variable {gaps : ExtTreeMap Nat Bytes} {e x : Nat}

theorem ReachesFrom.le (h : ReachesFrom gaps e x) : e ≤ x := by
  induction h with
  | start => exact Nat.le_refl e
  | next hx hq ih => exact Nat.le_trans ih (Nat.le_add_right _ _)

variable {p : Bytes} {off n : Nat}

theorem reachesFrom_iff_erase (hp : gaps[e]? = some p) :
    ReachesFrom gaps e x ↔ x = e ∨ ReachesFrom (gaps.erase e) (e + p.length) x := by
  constructor
  · intro h
    induction h with
    | start => exact .inl rfl
    | @next x q hx hq ih =>
      right
      by_cases heq : x = e
      · subst heq
        obtain rfl := some.inj (hp.symm.trans hq)
        exact .start
      · refine .next (ih.resolve_left heq) ?_
        rw [getElem?_erase, if_neg (fun h => heq (compare_eq_iff_eq.mp h).symm)]
        exact hq
  · intro h
    rcases h with rfl | h
    · exact .start
    · induction h with
      | start => exact .next .start hp
      | @next x q hx hq ih =>
        refine .next ih ?_
        obtain ⟨-, hq⟩ := getElem?_erase_some hq
        exact hq

theorem passesNoStart_of_ahead (h : ∀ off ∈ gaps, e < off) : PassesNoStart gaps e := by
  have honly : ∀ x, ReachesFrom gaps e x → x = e := by
    intro x hx
    induction hx with
    | start => rfl
    | @next x q hx hq ih =>
      have hmem : x ∈ gaps := mem_iff_isSome_getElem?.mpr (hq ▸ rfl)
      have := h x hmem
      omega
  intro g hg x hx hlt
  have hgt := h g hg
  have hxe := honly x hx
  omega

theorem passesNoStart_iff_erase (hp : gaps[e]? = some p) (hfirst : ∀ g ∈ gaps, e ≤ g) :
    PassesNoStart gaps e ↔ PassesNoStart (gaps.erase e) (e + p.length) := by
  constructor
  · intro h g hg x hx hlt
    obtain ⟨hne, hmem⟩ := mem_erase.mp hg
    have hreach := h g hmem x ((reachesFrom_iff_erase hp).mpr (.inr hx)) hlt
    exact ((reachesFrom_iff_erase hp).mp hreach).resolve_left
      fun heq => hne (compare_eq_iff_eq.mpr heq.symm)
  · intro h g hg x hx hlt
    rcases (reachesFrom_iff_erase hp).mp hx with rfl | hx
    · have := hfirst g hg
      omega
    · refine (reachesFrom_iff_erase hp).mpr ?_
      by_cases heq : g = e
      · exact .inl heq
      · exact .inr (h g (mem_erase.mpr
          ⟨fun h => heq (compare_eq_iff_eq.mp h).symm, hg⟩) x hx hlt)

/-- **The drain loop** leaves all gaps ahead exactly if it passes over no start. -/
theorem drainLoop_ahead_iff {fuel : Nat} {w : RecvWindow} (hfuel : w.gaps.size ≤ fuel) :
    (∀ off ∈ (RecvWindow.drainLoop fuel w).1.gaps,
        (RecvWindow.drainLoop fuel w).1.expectedOffset < off)
      ↔ PassesNoStart w.gaps w.expectedOffset := by
  induction fuel generalizing w with
  | zero =>
    have hempty : w.gaps = ∅ := eq_empty_iff_size_eq_zero.mpr (Nat.le_zero.mp hfuel)
    have hnone : ∀ off ∈ w.gaps, w.expectedOffset < off := by simp [hempty]
    exact iff_of_true hnone (passesNoStart_of_ahead hnone)
  | succ fuel ih =>
    cases hdue : w.dueGap with
    | none =>
      rw [drainLoop_of_dueGap hdue]
      show (∀ off ∈ w.gaps, w.expectedOffset < off) ↔ PassesNoStart w.gaps w.expectedOffset
      refine ⟨passesNoStart_of_ahead, fun hclear off hoff => ?_⟩
      -- a gap at or below where the window stands is passed over, and not come by
      by_contra hle
      obtain ⟨first, hmem, hfirst, hne⟩ := exists_first_of_dueGap hdue hoff
      have hreach := hclear first hmem w.expectedOffset .start (by omega)
      have hafter := hreach.le
      omega
    | some due =>
      obtain ⟨off, payload⟩ := due
      obtain ⟨rfl, hp⟩ := dueGap_eq_some hdue
      have hsize := size_takeGap hp
      rw [passesNoStart_iff_erase hp (first_of_dueGap hdue), RecvWindow.drainLoop, hdue]
      exact ih (w := w.takeGap w.expectedOffset payload) (by omega)

/-! ## What any pieces leave -/

/-- `x` lies in a gap. -/
def InGap (gaps : ExtTreeMap Nat Bytes) (x : Nat) : Prop :=
  ∃ (off : Nat) (q : Bytes), gaps[off]? = some q ∧ off ≤ x ∧ x < off + q.length

/-- What the window delivered of `S`, and what it keeps of it. -/
structure SliceWindow (S D : Bytes) (w : RecvWindow) : Prop extends Tracks D w where
  delivered : D = S.take w.expectedOffset
  expected_le : w.expectedOffset ≤ S.length
  slices : ∀ (off : Nat) (q : Bytes), w.gaps[off]? = some q →
    q = slice S off (off + q.length) ∧ off + q.length ≤ S.length

variable {S D : Bytes} {w : RecvWindow}

theorem SliceWindow.takeGap (h : SliceWindow S D w) (hp : w.gaps[w.expectedOffset]? = some p) :
    SliceWindow S (D ++ p) (w.takeGap w.expectedOffset p) := by
  obtain ⟨hslice, hend⟩ := h.slices _ _ hp
  have hnext : (w.takeGap w.expectedOffset p).expectedOffset = w.expectedOffset + p.length := by
    rw [RecvWindow.takeGap_eq]
  have hgaps : (w.takeGap w.expectedOffset p).gaps = w.gaps.erase w.expectedOffset := by
    rw [RecvWindow.takeGap_eq]
  refine ⟨h.toTracks.takeGap hp, ?_, ?_, fun off q hq => ?_⟩
  · rw [hnext, h.delivered]
    calc S.take w.expectedOffset ++ p
        = S.take w.expectedOffset ++ (S.drop w.expectedOffset).take p.length := by
          conv_lhs => rw [hslice, slice, Nat.add_sub_cancel_left]
      _ = S.take (w.expectedOffset + p.length) := take_add.symm
  · rw [hnext]
    exact hend
  · rw [hgaps] at hq
    obtain ⟨-, hq⟩ := getElem?_erase_some hq
    exact h.slices off q hq

theorem covered_erase {gaps : ExtTreeMap Nat Bytes} {e x : Nat} (hp : gaps[e]? = some p) :
    (x < e + p.length ∨ InGap (gaps.erase e) x) ↔ (x < e ∨ InGap gaps x) := by
  constructor
  · rintro (hlt | ⟨off, q, hq, hle, hlt⟩)
    · by_cases hx : x < e
      · exact .inl hx
      · exact .inr ⟨e, p, hp, by omega, hlt⟩
    · obtain ⟨-, hq⟩ := getElem?_erase_some hq
      exact .inr ⟨off, q, hq, hle, hlt⟩
  · rintro (hlt | ⟨off, q, hq, hle, hlt⟩)
    · exact .inl (by omega)
    · by_cases heq : e = off
      · subst heq
        obtain rfl := some.inj (hp.symm.trans hq)
        exact .inl hlt
      · refine .inr ⟨off, q, ?_, hle, hlt⟩
        rw [getElem?_erase, if_neg fun h => heq (compare_eq_iff_eq.mp h)]
        exact hq

theorem inGap_insert {gaps : ExtTreeMap Nat Bytes} {x : Nat} (hnew : gaps[off]? = none) :
    InGap (gaps.insert off p) x ↔ (off ≤ x ∧ x < off + p.length) ∨ InGap gaps x := by
  constructor
  · rintro ⟨o, q, hq, hle, hlt⟩
    rcases getElem?_insert_cases hq with ⟨rfl, rfl⟩ | ⟨-, hq⟩
    · exact .inl ⟨hle, hlt⟩
    · exact .inr ⟨o, q, hq, hle, hlt⟩
  · rintro (⟨hle, hlt⟩ | ⟨o, q, hq, hle, hlt⟩)
    · exact ⟨off, p, getElem?_insert_self, hle, hlt⟩
    · refine ⟨o, q, ?_, hle, hlt⟩
      rw [ExtTreeMap.getElem?_insert, if_neg fun h => ?_]
      · exact hq
      · rw [compare_eq_iff_eq.mp h, hq] at hnew
        cases hnew

theorem SliceWindow.drainLoop (h : SliceWindow S D w) (fuel : Nat) :
    SliceWindow S (D ++ (RecvWindow.drainLoop fuel w).2.flatten) (RecvWindow.drainLoop fuel w).1
      ∧ w.expectedOffset ≤ (RecvWindow.drainLoop fuel w).1.expectedOffset
      ∧ ∀ x, (x < (RecvWindow.drainLoop fuel w).1.expectedOffset
          ∨ InGap (RecvWindow.drainLoop fuel w).1.gaps x)
        ↔ (x < w.expectedOffset ∨ InGap w.gaps x) := by
  refine drainLoop_keeps (I := fun D v => SliceWindow S D v ∧ w.expectedOffset ≤ v.expectedOffset
    ∧ ∀ x, (x < v.expectedOffset ∨ InGap v.gaps x) ↔ (x < w.expectedOffset ∨ InGap w.gaps x))
    (fun D v p hI hp => ?_) ⟨h, Nat.le_refl _, fun _ => Iff.rfl⟩
  obtain ⟨hslice, hle, hcovered⟩ := hI
  have hnext : (v.takeGap v.expectedOffset p).expectedOffset = v.expectedOffset + p.length := by
    rw [RecvWindow.takeGap_eq]
  have hgaps : (v.takeGap v.expectedOffset p).gaps = v.gaps.erase v.expectedOffset := by
    rw [RecvWindow.takeGap_eq]
  refine ⟨hslice.takeGap hp, ?_, fun x => ?_⟩
  · rw [hnext]
    omega
  · rw [hnext, hgaps]
    exact (covered_erase hp).trans (hcovered x)

theorem drop_slice_of_le {S : Bytes} {e : Nat} (hle : off ≤ e) :
    (slice S off (off + n)).drop (e - off) = slice S e (off + n) := by
  rw [drop_slice, Nat.add_sub_cancel' hle]

/-- **Delivering a piece** up to its end, and the gaps that makes due. -/
theorem SliceWindow.deliverTo (h : SliceWindow S D w) (hle : off ≤ w.expectedOffset)
    (hreach : w.expectedOffset ≤ off + n) (hend : off + n ≤ S.length) (hfits : off + n < 2 ^ 64)
    {w' : RecvWindow} {segments : List Bytes}
    (hdeliver : w.deliverTo ((slice S off (off + n)).drop (w.expectedOffset - off)) (off + n) = (w', .deliver segments)) :
    SliceWindow S (D ++ segments.flatten) w'
      ∧ w.expectedOffset ≤ w'.expectedOffset
      ∧ (∀ x, (x < w'.expectedOffset ∨ InGap w'.gaps x) ↔ (x < off + n ∨ InGap w.gaps x))
      ∧ ((∀ g ∈ w'.gaps, w'.expectedOffset < g) ↔ PassesNoStart w.gaps (off + n)) := by
  rw [drop_slice_of_le hle] at hdeliver
  have hexp := h.toTracks.expectedOffset
  have hlen : (slice S w.expectedOffset (off + n)).length = off + n - w.expectedOffset :=
    length_slice hend
  have htracks : Tracks (D ++ slice S w.expectedOffset (off + n))
      { w.appendDelivered (slice S w.expectedOffset (off + n)) with expectedOffset := off + n } :=
    h.toTracks.deliverStart (by omega) hfits
  have hgaps := RecvWindow.appendDelivered_gaps w (slice S w.expectedOffset (off + n))
  unfold RecvWindow.deliverTo at hdeliver
  generalize w.appendDelivered (slice S w.expectedOffset (off + n)) = delivered
    at htracks hgaps hdeliver
  have hstart : SliceWindow S (D ++ slice S w.expectedOffset (off + n))
      { delivered with expectedOffset := off + n } := by
    refine ⟨htracks, ?_, hend, fun g q hq => h.slices g q (hgaps ▸ hq)⟩
    show D ++ slice S w.expectedOffset (off + n) = S.take (off + n)
    rw [h.delivered, slice, ← take_add, Nat.add_sub_cancel' hreach]
  obtain ⟨hafter, hforward, hcovered⟩ := hstart.drainLoop delivered.gaps.size
  have hahead := drainLoop_ahead_iff (w := { delivered with expectedOffset := off + n })
    (Nat.le_refl _)
  obtain ⟨rfl, hseg⟩ := Prod.mk.inj hdeliver
  obtain rfl := SegmentAction.deliver.inj hseg
  refine ⟨?_, Nat.le_trans hreach hforward, fun x => ?_, ?_⟩
  · rw [flatten_cons, ← append_assoc]
    exact hafter
  · rw [← hgaps]
    exact hcovered x
  · rw [← hgaps]
    exact hahead

theorem SliceWindow.overlapAgrees (h : SliceWindow S D w) :
    w.overlapAgrees off (slice S off (off + n)) (off + n) = true := by
  have hexp := h.toTracks.expectedOffset
  have hle := h.expected_le
  unfold RecvWindow.overlapAgrees
  dsimp only
  split
  · next hlt =>
    have hhist : w.history = slice S w.historyStart w.expectedOffset := by
      rw [h.toTracks.history, h.delivered, slice, drop_take]
    rw [beq_iff_eq, hhist, slice_slice (by omega), slice_slice (by omega)]
    congr 1 <;> omega
  · rfl

theorem Piece.length_payload (c : Piece S) : c.payload.length = c.length := by
  rw [payload, length_slice c.end_le, Nat.add_sub_cancel_left]

theorem SliceWindow.of_tracks (h : SliceWindow S D w) {w' : RecvWindow} (htracks : Tracks D w')
    (hexp : w'.expectedOffset = w.expectedOffset)
    (hslices : ∀ (off : Nat) (q : Bytes), w'.gaps[off]? = some q →
      q = slice S off (off + q.length) ∧ off + q.length ≤ S.length) :
    SliceWindow S D w' :=
  ⟨htracks, hexp ▸ h.delivered, hexp ▸ h.expected_le, hslices⟩

/-- **Feeding a piece**: what is covered grows by the piece if it is accepted. -/
theorem SliceWindow.fedAs (h : SliceWindow S D w) (c : Piece S)
    {r : RecvWindow × Except GapOverflow SegmentAction}
    (hr : w.FedAs c.offset c.payload c.gapCap c.gapByteCap r) :
    SliceWindow S (D ++ deliveredBytes r.2) r.1
      ∧ w.expectedOffset ≤ r.1.expectedOffset
      ∧ ∀ x, (x < r.1.expectedOffset ∨ InGap r.1.gaps x)
        ↔ (isAccepted r.2 = true ∧ c.offset ≤ x ∧ x < c.offset + c.length)
          ∨ (x < w.expectedOffset ∨ InGap w.gaps x) := by
  have htracks := h.toTracks.fedAs hr
  have hlen := c.length_payload
  have hnothing : ∀ {w' : RecvWindow}, Tracks (D ++ []) w' →
      w'.expectedOffset = w.expectedOffset → w'.gaps = w.gaps → SliceWindow S (D ++ []) w' := by
    intro w' ht hexp hgaps
    rw [append_nil] at ht ⊢
    exact h.of_tracks ht hexp (hgaps ▸ h.slices)
  cases hr with
  | beyond | tampered | taken | overflow =>
    refine ⟨hnothing htracks rfl rfl, Nat.le_refl _, fun x => ?_⟩
    simp [isAccepted, SegmentAction.isMismatch]
  | repeated n hold hend hagrees =>
    refine ⟨hnothing htracks rfl rfl, Nat.le_refl _, fun x => ⟨.inr, fun hx => ?_⟩⟩
    rcases hx with ⟨-, -, hlt⟩ | hx
    · -- the piece lies below what was delivered
      exact .inl (by show x < w.expectedOffset; omega)
    · exact hx
  | delivered n w' segments hend hle hreach hagrees hdeliver =>
    rw [hlen] at hend hreach hdeliver
    have hcounted : SliceWindow S D { w with unverifiableDuplicates := n } :=
      h.of_tracks (h.toTracks.recount n) rfl h.slices
    obtain ⟨hafter, hforward, hcovered, -⟩ := hcounted.deliverTo hle hreach c.end_le hend hdeliver
    refine ⟨hafter, hforward, fun x => (hcovered x).trans ⟨fun hx => ?_, fun hx => ?_⟩⟩
    · rcases hx with hlt | hgap
      · by_cases hold : x < w.expectedOffset
        · exact .inr (.inl hold)
        · exact .inl ⟨rfl, by omega, hlt⟩
      · exact .inr (.inr hgap)
    · rcases hx with ⟨-, -, hlt⟩ | hlt | hgap
      · exact .inl hlt
      · exact .inl (by omega)
      · exact .inr hgap
  | held hend hahead hheld =>
    refine ⟨hnothing htracks rfl rfl, Nat.le_refl _, fun x => ⟨.inr, fun hx => ?_⟩⟩
    rcases hx with ⟨-, hle, hlt⟩ | hx
    · exact .inr ⟨c.offset, c.payload, hheld, hle, hlen ▸ hlt⟩
    · exact hx
  | buffered hend hahead hnew hsize hbytes =>
    refine ⟨?_, Nat.le_refl _, fun x => ?_⟩
    · rw [deliveredBytes, append_nil] at htracks ⊢
      · refine h.of_tracks htracks rfl fun off q hq => ?_
        rcases getElem?_insert_cases hq with ⟨rfl, rfl⟩ | ⟨-, hq⟩
        · rw [hlen]
          exact ⟨rfl, c.end_le⟩
        · exact h.slices off q hq
      all_goals simp
    · show (x < w.expectedOffset ∨ InGap (w.gaps.insert c.offset c.payload) x) ↔ _
      rw [inGap_insert hnew, hlen]
      tauto

/-! ## One piece after the other -/

structure Slices (S : Bytes) (s : Reassembly) : Prop where
  window : SliceWindow S s.delivered s.window
  covered : ∀ x, s.Covered x ↔ (x < s.window.expectedOffset ∨ InGap s.window.gaps x)
  forward : ∀ e ∈ s.passed, e ≤ s.window.expectedOffset

theorem Slices.start (S : Bytes) : Slices S .start where
  window := {
    toTracks := .new
    delivered := rfl
    expected_le := Nat.zero_le _
    slices := fun off q hq => by simp [Reassembly.start, RecvWindow.new] at hq }
  covered x := by
    simp [Reassembly.Covered, Reassembly.start, RecvWindow.new, InGap]
  forward e he := by cases he

variable {s s' : Reassembly}

theorem Slices.reassembled_iff (h : Slices S s) :
    Reassembled S s
      ↔ s.mismatches = [] ∧ ∀ off ∈ s.window.gaps, s.window.expectedOffset < off := by
  constructor
  · intro hall
    exact ⟨hall.agreed, hall.ahead⟩
  · rintro ⟨hagreed, hahead⟩
    refine ⟨hagreed, h.window.delivered, h.forward, fun x hx => (h.covered x).mpr (.inl hx),
      fun hcovered => ?_, hahead, h.window.toTracks.gapBytes⟩
    rcases (h.covered _).mp hcovered with hlt | ⟨off, q, hq, hle, -⟩
    · exact Nat.lt_irrefl _ hlt
    · have hmem : off ∈ s.window.gaps := mem_iff_isSome_getElem?.mpr (hq ▸ rfl)
      have := hahead off hmem
      omega

theorem Slices.step (h : Slices S s) {c : Piece S} (hs : (reassemblyMachine S).step s c = some s') :
    Slices S s' := by
  obtain ⟨hwindow, hforward, hcovered⟩ := h.window.fedAs c
    (s.window.feedWithLimits_fedAs c.offset c.payload c.gapCap c.gapByteCap)
  obtain rfl := some.inj hs
  refine ⟨hwindow, fun x => ?_, ?_⟩
  · rw [hcovered x, ← h.covered x]
    unfold Reassembly.Covered
    dsimp only
    split
    · next hacc => simp [hacc, mem_cons, exists_eq_or_imp]
    · next hacc => simp [hacc]
  · refine forall_mem_cons.mpr ⟨hforward, fun e he => Nat.le_trans (h.forward e he) hforward⟩

/-- **The step.** From a reassembled string, exactly the pieces that fit the gaps leave it so. -/
theorem Slices.step_iff (h : Slices S s) (hagreed : s.mismatches = [])
    (hahead : ∀ g ∈ s.window.gaps, s.window.expectedOffset < g) {c : Piece S}
    (hs : (reassemblyMachine S).step s c = some s') :
    (s'.mismatches = [] ∧ ∀ g ∈ s'.window.gaps, s'.window.expectedOffset < g)
      ↔ FitsGaps s c := by
  have hfed := s.window.feedWithLimits_fedAs c.offset c.payload c.gapCap c.gapByteCap
  have hlen := c.length_payload
  obtain rfl := some.inj hs
  show ((_ ++ s.mismatches = []) ∧ _) ↔ _
  generalize s.window.feedWithLimits c.offset c.payload c.gapCap c.gapByteCap = r at hfed ⊢
  rw [hagreed, append_nil]
  cases hfed with
  | beyond hend =>
    have := c.end_lt
    omega
  | tampered n hold hdiffers =>
    have hagrees : s.window.overlapAgrees c.offset c.payload (c.offset + c.length) = true :=
      h.window.overlapAgrees
    rw [hlen, hagrees] at hdiffers
    cases hdiffers
  | repeated n hold hend hagrees =>
    refine iff_of_true ⟨rfl, hahead⟩ ⟨fun hgt => by omega, fun _ => ?_⟩
    refine passesNoStart_of_ahead fun g hg => ?_
    have := hahead g hg
    omega
  | delivered n w' segments hend hle hreach hagrees hdeliver =>
    rw [hlen] at hend hreach hdeliver
    have hcounted : SliceWindow S s.delivered
        { s.window with unverifiableDuplicates := n } :=
      h.window.of_tracks (h.window.toTracks.recount n) rfl h.window.slices
    obtain ⟨-, -, -, hiff⟩ := hcounted.deliverTo hle hreach c.end_le hend hdeliver
    constructor
    · rintro ⟨-, hafter⟩
      exact ⟨fun hgt => by omega, fun _ => hiff.mp hafter⟩
    · intro hfits
      exact ⟨rfl, hiff.mpr (hfits.clear hle)⟩
  | held hend hafter hheld =>
    refine iff_of_true ⟨rfl, hahead⟩ ⟨fun _ q hq => ?_, fun hle => by omega⟩
    exact some.inj (hq.symm.trans hheld)
  | taken hafter q hheld hne =>
    refine iff_of_false (fun hall => ?_) fun hfits => hne (hfits.identical hafter q hheld)
    cases hall.1
  | overflow e hafter hnew hfull =>
    refine iff_of_true ⟨rfl, hahead⟩ ⟨fun _ q hq => ?_, fun hle => by omega⟩
    rw [hnew] at hq
    cases hq
  | buffered hend hafter hnew hsize hbytes =>
    refine iff_of_true ⟨rfl, fun g hg => ?_⟩ ⟨fun _ q hq => ?_, fun hle => by omega⟩
    · rcases ExtTreeMap.mem_insert.mp hg with heq | hmem
      · exact compare_eq_iff_eq.mp heq ▸ hafter
      · exact hahead g hmem
    · rw [hnew] at hq
      cases hq

open Classical in
/-- **Reassembly.** In a run over any pieces of `S`, the string is being put together at every
point exactly if each piece fits the gaps it meets. -/
theorem reassembly_iff {cs : List (Piece S)} (hrun : (reassemblyMachine S).run .start cs = some s) :
    (∀ k t, (reassemblyMachine S).run .start (cs.take k) = some t → Reassembled S t)
      ↔ (reassemblyMachine S).runUnder FitsGaps .start cs = some s := by
  have hstart : Reassembled S .start :=
    (Slices.start S).reassembled_iff.mpr ⟨rfl, fun g hg => by
      simp [Reassembly.start, RecvWindow.new] at hg⟩
  refine Machine.forall_take_iff (I := fun t => Slices S t ∧ Reassembled S t)
    (fun t c t' ht hstep => ?_) (fun t c t' ht hstep hgood => ⟨ht.1.step hstep, hgood⟩)
    ⟨.start S, hstart⟩ hstart hrun
  obtain ⟨hslices, hgood⟩ := ht
  rw [(hslices.step hstep).reassembled_iff]
  exact hslices.step_iff hgood.agreed hgood.ahead hstep

/-! ## Two starts, two ends -/

namespace SamplePieces

def text : Bytes := [1, 2, 3, 4]

def piece (offset length : Nat) (h : offset + length ≤ 4) : Piece text where
  offset := offset
  length := length
  end_le := h
  end_lt := Nat.lt_of_le_of_lt h (by decide)
  gapCap := 64
  gapByteCap := 64

def after (cs : List (Piece text)) : Reassembly :=
  ((reassemblyMachine text).run .start cs).getD .start

/-- Bytes 1..2, then bytes 1..3 of one string: a mismatch. Bytes 2..4, then bytes 0..3: the
window stands at 3 for good, with all four bytes accepted and the gap behind it. -/
theorem pieces_lost :
    (after [piece 1 1 (by decide), piece 1 2 (by decide)]).mismatches = [.overlapMismatch 0 1]
    ∧ (after [piece 2 2 (by decide), piece 0 3 (by decide)]).window.expectedOffset = 3
    ∧ (after [piece 2 2 (by decide), piece 0 3 (by decide)]).accepted = [(0, 3), (2, 4)]
    ∧ (after [piece 2 2 (by decide), piece 0 3 (by decide)]).window.gaps.keys = [2]
    ∧ ¬Reassembled text (after [piece 2 2 (by decide), piece 0 3 (by decide)]) := by
  refine ⟨by decide, by decide, by decide, by decide, fun h => ?_⟩
  have hgap : 2 ∈ (after [piece 2 2 (by decide), piece 0 3 (by decide)]).window.gaps := by
    decide
  have hahead := h.ahead 2 hgap
  have hexp : (after [piece 2 2 (by decide), piece 0 3 (by decide)]).window.expectedOffset = 3 := by
    decide
  omega

theorem halves_reassembled :
    Reassembled text (after [piece 2 2 (by decide), piece 0 2 (by decide)]) := by
  classical
  have hrun : (reassemblyMachine text).run .start [piece 2 2 (by decide), piece 0 2 (by decide)]
      = some (after [piece 2 2 (by decide), piece 0 2 (by decide)]) := rfl
  have hnone : ∀ g, g ∉ Reassembly.start.window.gaps := fun g => not_mem_empty
  have hkeys : (after [piece 2 2 (by decide)]).window.gaps.keys = [2] := by decide
  have hgap : (after [piece 2 2 (by decide)]).window.gaps[2]? = some [3, 4] := by decide
  have honly : ∀ g ∈ (after [piece 2 2 (by decide)]).window.gaps, g = 2 := fun g hg => by
    have hmem := ExtTreeMap.mem_keys.mpr hg
    rw [hkeys] at hmem
    exact mem_singleton.mp hmem
  have hfirst : FitsGaps .start (piece 2 2 (by decide)) := by
    refine ⟨fun _ q hq => ?_, fun hle => absurd hle (by decide)⟩
    exact absurd (mem_iff_isSome_getElem?.mpr (hq ▸ rfl)) (hnone 2)
  have hsecond : FitsGaps (after [piece 2 2 (by decide)]) (piece 0 2 (by decide)) := by
    refine ⟨fun hgt => absurd hgt (Nat.not_lt_zero _), fun _ => ?_⟩
    refine (passesNoStart_iff_erase hgap fun g hg => (honly g hg).ge).mpr ?_
    refine passesNoStart_of_ahead fun g hg => ?_
    obtain ⟨hne, hmem⟩ := mem_erase.mp hg
    exact absurd (compare_eq_iff_eq.mpr (honly g hmem).symm) hne
  refine (reassembly_iff hrun).mpr ?_ 2 _ hrun
  rw [Machine.runUnder, if_pos hfirst]
  show Machine.runUnder _ _ (after [piece 2 2 (by decide)]) _ = _
  rw [Machine.runUnder, if_pos hsecond]
  rfl

end SamplePieces

end Dweb
