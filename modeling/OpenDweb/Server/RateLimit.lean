import OpenDweb.Lib.Machine

/-!
# OpenDweb — token buckets, one for each address

Embedding of `dweb-server/src/access/ratelimit.rs`. Instants are nanoseconds; the refill is
computed in milliseconds, in `u64`, and added as `u32`.

* **`IpRateLimiter.takeAt`** — prune, refill, take.
* **`limiterRuns`** — calls of any addresses in the order of the clock, with what was granted.
* **`Budget`** — the invariant of one window: what was granted in it and what is left in the
  bucket are paid for by the burst and the time of the window.
* **`rate_limited`** — the bound, and the grant after a pause, in every run whose refills are
  counted as they are computed.
-/

namespace Dweb

open Std (ExtTreeMap)
open List Option

def PRUNE_THRESHOLD : Nat := 4096

def MILLI : Nat := 1000000

/-- `Bucket`; `updated` is when it was last refilled. -/
structure Bucket where
  tokens : UInt32
  updated : Nat
  deriving DecidableEq

structure IpRateLimiter (κ : Type*) [LinearOrder κ] where
  ratePerMin : UInt32
  burst : UInt32
  buckets : ExtTreeMap κ Bucket

/-- `u32::saturating_add`. -/
def saturatingAdd32 (a b : UInt32) : UInt32 := if a + b < a then 4294967295 else a + b

namespace IpRateLimiter

variable {κ : Type*} [LinearOrder κ]

def new (ratePerMin burst : UInt32) : IpRateLimiter κ where
  ratePerMin := max ratePerMin 1
  burst := max burst 1
  buckets := ∅

/-- `refill_window() * 2`. -/
def idleWindow : Nat := 2 * (60000 * MILLI)

def elapsedMs (b : Bucket) (now : Nat) : Nat := (now - b.updated) / MILLI

/-- The tokens due, as `u64` arithmetic has them. -/
def refill (s : IpRateLimiter κ) (b : Bucket) (now : Nat) : UInt64 :=
  UInt64.ofNat (elapsedMs b now) * s.ratePerMin.toUInt64 / 60000

/-- Buckets that were idle for long go, once there are many. -/
def prune (s : IpRateLimiter κ) (now : Nat) : IpRateLimiter κ :=
  if PRUNE_THRESHOLD < s.buckets.size then
    { s with buckets := s.buckets.filter fun _ b => now - b.updated < idleWindow }
  else s

def refilled (s : IpRateLimiter κ) (b : Bucket) (now : Nat) : Bucket :=
  let due := s.refill b now
  if 0 < due then ⟨min (saturatingAdd32 b.tokens due.toUInt32) s.burst, now⟩ else b

def takeAt (s : IpRateLimiter κ) (ip : κ) (now : Nat) : IpRateLimiter κ × Bool :=
  let s := s.prune now
  let bucket := (s.buckets[ip]?).getD ⟨s.burst, now⟩
  let bucket := s.refilled bucket now
  if 0 < bucket.tokens then
    ({ s with buckets := s.buckets.insert ip { bucket with tokens := bucket.tokens - 1 } }, true)
  else ({ s with buckets := s.buckets.insert ip bucket }, false)

/-! ## One call -/

/-- What a call leaves of a bucket, and what it answers. -/
inductive Taken (s : IpRateLimiter κ) (now : Nat) : Option Bucket → Bucket → Bool → Prop where
  | fresh : Taken s now none ⟨s.burst - 1, now⟩ true
  | kept {b : Bucket} (hdue : s.refill b now = 0) (htokens : b.tokens ≠ 0) :
    Taken s now (some b) ⟨b.tokens - 1, b.updated⟩ true
  | empty {b : Bucket} (hdue : s.refill b now = 0) (htokens : b.tokens = 0) :
    Taken s now (some b) b false
  | refilled {b : Bucket} {tokens : UInt32} (hdue : s.refill b now ≠ 0)
    (htokens : tokens = min (saturatingAdd32 b.tokens (s.refill b now).toUInt32) s.burst)
    (hpos : tokens ≠ 0) :
    Taken s now (some b) ⟨tokens - 1, now⟩ true
  /-- Something was due, and nothing of it was left as `u32`. -/
  | narrowed {b : Bucket} (hdue : s.refill b now ≠ 0)
    (htokens : min (saturatingAdd32 b.tokens (s.refill b now).toUInt32) s.burst = 0) :
    Taken s now (some b) ⟨0, now⟩ false

theorem prune_burst (s : IpRateLimiter κ) (now : Nat) : (s.prune now).burst = s.burst := by
  unfold prune
  split <;> rfl

theorem prune_ratePerMin (s : IpRateLimiter κ) (now : Nat) :
    (s.prune now).ratePerMin = s.ratePerMin := by
  unfold prune
  split <;> rfl

theorem refill_prune (s : IpRateLimiter κ) (b : Bucket) (now now' : Nat) :
    (s.prune now).refill b now' = s.refill b now' := by
  rw [refill, refill, prune_ratePerMin]

theorem prune_bucket (s : IpRateLimiter κ) (now : Nat) (ip : κ) :
    (s.prune now).buckets[ip]? = s.buckets[ip]? ∨
      (s.prune now).buckets[ip]? = none ∧
        ∀ b, s.buckets[ip]? = some b → idleWindow ≤ now - b.updated := by
  unfold prune
  split
  · show (s.buckets.filter _)[ip]? = _ ∨ (s.buckets.filter _)[ip]? = none ∧ _
    rw [ExtTreeMap.getElem?_filter']
    cases hb : s.buckets[ip]? with
    | none => exact .inl rfl
    | some b =>
      by_cases hidle : now - b.updated < idleWindow
      · left
        rw [filter_some, if_pos (decide_eq_true hidle)]
      · right
        rw [filter_some, if_neg (by simpa using hidle)]
        refine ⟨rfl, fun b' hb' => ?_⟩
        cases hb'
        omega
  · exact .inl rfl

theorem refill_fresh (s : IpRateLimiter κ) (tokens : UInt32) (now : Nat) :
    s.refill ⟨tokens, now⟩ now = 0 := by
  simp [refill, elapsedMs]

theorem refilled_of_none {s : IpRateLimiter κ} {b : Bucket} {now : Nat} (h : s.refill b now = 0) :
    s.refilled b now = b := by
  unfold refilled
  rw [h]
  exact if_neg (by decide)

theorem refilled_of_due {s : IpRateLimiter κ} {b : Bucket} {now : Nat} (h : s.refill b now ≠ 0) :
    s.refilled b now =
      ⟨min (saturatingAdd32 b.tokens (s.refill b now).toUInt32) s.burst, now⟩ :=
  if_pos (UInt64.pos_iff_ne_zero.mpr h)

/-- **One call** moves one bucket, besides what is pruned. -/
theorem takeAt_taken {s : IpRateLimiter κ} (hburst : s.burst ≠ 0) (ip : κ) (now : Nat) :
    ∃ bucket, (s.takeAt ip now).1 =
        { s.prune now with buckets := (s.prune now).buckets.insert ip bucket } ∧
      Taken s now (s.prune now).buckets[ip]? bucket (s.takeAt ip now).2 := by
  have htake : ∀ b, (s.prune now).refilled (((s.prune now).buckets[ip]?).getD
        ⟨(s.prune now).burst, now⟩) now = b →
      s.takeAt ip now = if b.tokens = 0 then
        ({ s.prune now with buckets := (s.prune now).buckets.insert ip b }, false)
      else ({ s.prune now with
        buckets := (s.prune now).buckets.insert ip { b with tokens := b.tokens - 1 } }, true) := by
    intro b hb
    unfold takeAt
    dsimp only
    rw [hb]
    by_cases htokens : b.tokens = 0
    · rw [if_pos htokens, if_neg (by rw [htokens]; decide)]
    · rw [if_neg htokens, if_pos (UInt32.pos_iff_ne_zero.mpr htokens)]
  cases hb : (s.prune now).buckets[ip]? with
  | none =>
    rw [hb, getD_none, refilled_of_none (refill_fresh ..), prune_burst] at htake
    rw [htake _ rfl, if_neg hburst]
    exact ⟨_, rfl, .fresh⟩
  | some b =>
    rw [hb, getD_some] at htake
    by_cases hdue : s.refill b now = 0
    · rw [htake b (refilled_of_none ((refill_prune ..).trans hdue))]
      by_cases htokens : b.tokens = 0
      · rw [if_pos htokens]
        exact ⟨_, rfl, .empty hdue htokens⟩
      · rw [if_neg htokens]
        exact ⟨_, rfl, .kept hdue htokens⟩
    · have hdue' : (s.prune now).refill b now ≠ 0 := by
        rw [refill_prune]
        exact hdue
      rw [refilled_of_due hdue', refill_prune, prune_burst] at htake
      rw [htake _ rfl]
      by_cases htokens : min (saturatingAdd32 b.tokens (s.refill b now).toUInt32) s.burst = 0
      · rw [if_pos htokens, htokens]
        exact ⟨_, rfl, .narrowed hdue htokens⟩
      · rw [if_neg htokens]
        exact ⟨_, rfl, .refilled hdue rfl htokens⟩

/-! ## What is due -/

/-- What the rate gives for the time since the last refill, times 60000. -/
def owed (s : IpRateLimiter κ) (b : Bucket) (now : Nat) : Nat :=
  elapsedMs b now * s.ratePerMin.toNat

/-- The product fits into `u64`, and where a token is needed, something is left of it as `u32`. -/
def Counts (s : IpRateLimiter κ) (b : Bucket) (now : Nat) : Prop :=
  s.owed b now < 2 ^ 64 ∧
    (60000 ≤ s.owed b now → b.tokens ≠ 0 ∨ s.owed b now / 60000 % 2 ^ 32 ≠ 0)

instance (s : IpRateLimiter κ) (b : Bucket) (now : Nat) : Decidable (s.Counts b now) :=
  inferInstanceAs (Decidable (_ ∧ _))

theorem refill_toNat {s : IpRateLimiter κ} {b : Bucket} {now : Nat} (hrate : s.ratePerMin ≠ 0)
    (h : s.owed b now < 2 ^ 64) : (s.refill b now).toNat = s.owed b now / 60000 := by
  have hpos : 1 ≤ s.ratePerMin.toNat :=
    Nat.one_le_iff_ne_zero.mpr fun h0 => hrate (UInt32.toNat_inj.mp h0)
  have hms : elapsedMs b now < 2 ^ 64 :=
    Nat.lt_of_le_of_lt (Nat.le_mul_of_pos_right _ hpos) h
  rw [refill, UInt64.toNat_div, UInt64.toNat_mul, UInt64.toNat_ofNat', UInt32.toNat_toUInt64,
    Nat.mod_eq_of_lt hms]
  show s.owed b now % 2 ^ 64 / 60000 = _
  rw [Nat.mod_eq_of_lt h]

theorem toNat_saturatingAdd32_le (a b : UInt32) :
    (saturatingAdd32 a b).toNat ≤ a.toNat + b.toNat := by
  unfold saturatingAdd32
  split
  · next h =>
    -- the sum has wrapped, so it was at least 2^32
    have hwrap := UInt32.lt_iff_toNat_lt.mp h
    rw [UInt32.toNat_add] at hwrap
    show 4294967295 ≤ _
    have := a.toNat_lt
    omega
  · rw [UInt32.toNat_add]
    exact Nat.mod_le _ _

theorem toNat_tokens_le (tokens burst : UInt32) (due : UInt64) :
    (min (saturatingAdd32 tokens due.toUInt32) burst).toNat ≤ tokens.toNat + due.toNat ∧
      (min (saturatingAdd32 tokens due.toUInt32) burst).toNat ≤ burst.toNat := by
  have hsum := toNat_saturatingAdd32_le tokens due.toUInt32
  have hdue : due.toUInt32.toNat ≤ due.toNat := by
    rw [UInt64.toNat_toUInt32]
    exact Nat.mod_le _ _
  show (if _ ≤ _ then _ else _ : UInt32).toNat ≤ _ ∧ (if _ ≤ _ then _ else _ : UInt32).toNat ≤ _
  split
  · next h =>
    have hle := UInt32.le_iff_toNat_le.mp h
    omega
  · next h =>
    have hlt := UInt32.lt_iff_toNat_lt.mp (UInt32.not_le.mp h)
    omega

theorem saturatingAdd32_ne_zero {a b : UInt32} (h : a ≠ 0 ∨ b ≠ 0) : saturatingAdd32 a b ≠ 0 := by
  unfold saturatingAdd32
  split
  · decide
  · next hwrap =>
    intro hzero
    have hle := UInt32.le_iff_toNat_le.mp (UInt32.not_lt.mp hwrap)
    rw [hzero] at hle
    have ha : a = 0 := UInt32.toNat_inj.mp (Nat.le_zero.mp hle)
    rw [ha, UInt32.zero_add] at hzero
    exact h.elim (fun h => h ha) fun h => h hzero

/-! ## One window

`n` permits were given to an address since `lo`. -/

/-- What was given since `lo` and what is left are paid for: by the burst, and by the time from an
anchor at or before `lo` on, less the time from the anchor to `lo`. -/
inductive Paid (rate burst lo n clock : Nat) : Option Bucket → Prop where
  | nothing (bucket : Option Bucket) (hn : n = 0) : Paid rate burst lo n clock bucket
  | full {anchor : Nat} (hanchor : anchor ≤ lo) (hlo : lo ≤ clock)
    (hpaid : 60000 * n + rate * ((lo - anchor) / MILLI) ≤ rate * ((clock - anchor) / MILLI)) :
    Paid rate burst lo n clock none
  | within {b : Bucket} {anchor : Nat} (hanchor : anchor ≤ lo) (hlo : lo ≤ b.updated)
    (hclock : b.updated ≤ clock)
    (hpaid : 60000 * (n + b.tokens.toNat) + rate * ((lo - anchor) / MILLI) ≤
      60000 * burst + rate * ((b.updated - anchor) / MILLI)) :
    Paid rate burst lo n clock (some b)
  /-- Not refilled since `lo`: less than one token was due there, and one token is missing. -/
  | before {b : Bucket} (hlo : b.updated < lo) (hclock : lo ≤ clock)
    (hdue : rate * ((lo - b.updated) / MILLI) < 60000) (hpaid : n + b.tokens.toNat + 1 ≤ burst) :
    Paid rate burst lo n clock (some b)

section

variable {rate burst lo n clock now : Nat} {bucket bucket' : Option Bucket}

theorem Paid.le (h : Paid rate burst lo n clock bucket) {d : Nat}
    (hclock : clock ≤ lo + d * MILLI) : 60000 * n ≤ 60000 * burst + rate * d := by
  have hspan : ∀ a u, a ≤ lo → u ≤ clock →
      rate * ((u - a) / MILLI) ≤ rate * ((lo - a) / MILLI) + rate * d := by
    intro a u ha hu
    rw [← Nat.mul_add]
    refine Nat.mul_le_mul_left rate ?_
    unfold MILLI at hclock ⊢
    omega
  cases h with
  | nothing _ hn => omega
  | full hanchor _ hpaid =>
    have hle := hspan _ clock hanchor (Nat.le_refl clock)
    omega
  | within hanchor _ hupdated hpaid =>
    have hle := hspan _ _ hanchor hupdated
    omega
  | before => omega

theorem add_div_milli_le {a u now : Nat} (hu : a ≤ u) (hnow : u ≤ now) :
    (u - a) / MILLI + (now - u) / MILLI ≤ (now - a) / MILLI := by
  unfold MILLI
  omega

theorem mul_add_div_milli_le (rate : Nat) {a u now : Nat} (hu : a ≤ u) (hnow : u ≤ now) :
    rate * ((u - a) / MILLI) + rate * ((now - u) / MILLI) ≤ rate * ((now - a) / MILLI) := by
  rw [← Nat.mul_add]
  exact Nat.mul_le_mul_left rate (add_div_milli_le hu hnow)

theorem burst_le_of_idle (hburst : burst ≤ 2 * rate) {u now : Nat} (hidle : idleWindow ≤ now - u) :
    60000 * burst ≤ rate * ((now - u) / MILLI) := by
  have hms : 120000 ≤ (now - u) / MILLI := by
    unfold idleWindow at hidle
    unfold MILLI at hidle ⊢
    omega
  have hmul := Nat.mul_le_mul_left rate hms
  omega

theorem Paid.prune (h : Paid rate burst lo n clock bucket) (hclock : clock ≤ now)
    (hburst : burst ≤ 2 * rate)
    (hprune : bucket' = bucket ∨
      bucket' = none ∧ ∀ b, bucket = some b → idleWindow ≤ now - b.updated) :
    Paid rate burst lo n now bucket' := by
  cases h with
  | nothing _ hn => exact .nothing _ hn
  | @full anchor hanchor hlo hpaid =>
    have hnone : bucket' = none := hprune.elim id And.left
    subst hnone
    refine .full hanchor (Nat.le_trans hlo hclock) ?_
    have hgrows := mul_add_div_milli_le rate (Nat.le_trans hanchor hlo) hclock
    omega
  | @within b anchor hanchor hlo hupdated hpaid =>
    rcases hprune with rfl | ⟨rfl, hidle⟩
    · exact .within hanchor hlo (Nat.le_trans hupdated hclock) hpaid
    · have hfull := burst_le_of_idle hburst (hidle b rfl)
      have hgrows := mul_add_div_milli_le rate (Nat.le_trans hanchor hlo)
        (Nat.le_trans hupdated hclock)
      refine .full hanchor (Nat.le_trans hlo (Nat.le_trans hupdated hclock)) ?_
      omega
  | @before b hlo hlo' hdue hpaid =>
    rcases hprune with rfl | ⟨rfl, hidle⟩
    · exact .before hlo (Nat.le_trans hlo' hclock) hdue hpaid
    · -- the anchor is the last refill, before the window
      have hfull := burst_le_of_idle hburst (hidle b rfl)
      refine .full (Nat.le_of_lt hlo) (Nat.le_trans hlo' hclock) ?_
      omega

end

theorem toNat_sub_one {tokens : UInt32} (h : tokens ≠ 0) :
    (tokens - 1).toNat + 1 = tokens.toNat := by
  have hpos : 1 ≤ tokens.toNat :=
    Nat.one_le_iff_ne_zero.mpr fun h0 => h (UInt32.toNat_inj.mp h0)
  have hle : (1 : UInt32) ≤ tokens := by
    rw [UInt32.le_iff_toNat_le]
    exact hpos
  rw [UInt32.toNat_sub_of_le _ _ hle]
  exact Nat.sub_add_cancel hpos

/-- What a call does to the permits given and the tokens left together. -/
inductive Moved (rate burst sum now : Nat) (sum' : Nat) : Option Bucket → Bucket → Prop where
  | fresh {b' : Bucket} (hupdated : b'.updated = now) (hsum : sum' = sum + burst) :
    Moved rate burst sum now sum' none b'
  | same {b b' : Bucket} (hupdated : b'.updated = b.updated)
    (hdue : rate * ((now - b.updated) / MILLI) < 60000) (hsum : sum' = sum + b.tokens.toNat) :
    Moved rate burst sum now sum' (some b) b'
  | more {b b' : Bucket} (hupdated : b'.updated = now)
    (hdue : 60000 * sum' ≤ 60000 * (sum + b.tokens.toNat) +
      rate * ((now - b.updated) / MILLI))
    (hburst : sum' ≤ sum + burst) : Moved rate burst sum now sum' (some b) b'

theorem Taken.moved {s : IpRateLimiter κ} {n now : Nat} {bucket : Option Bucket} {b' : Bucket}
    {granted : Bool} (hrate : s.ratePerMin ≠ 0) (hburst : s.burst ≠ 0)
    (hcounts : ∀ b, bucket = some b → s.owed b now < 2 ^ 64)
    (htaken : Taken s now bucket b' granted) :
    Moved s.ratePerMin.toNat s.burst.toNat n now
      ((if granted then n + 1 else n) + b'.tokens.toNat) bucket b' := by
  have hrefill : ∀ b, bucket = some b →
      (s.refill b now).toNat = s.ratePerMin.toNat * ((now - b.updated) / MILLI) / 60000 := by
    intro b hb
    rw [refill_toNat hrate (hcounts b hb), Nat.mul_comm s.ratePerMin.toNat]
    rfl
  have hnone : ∀ b, bucket = some b → s.refill b now = 0 →
      s.ratePerMin.toNat * ((now - b.updated) / MILLI) < 60000 := by
    intro b hb hzero
    have hdiv := hrefill b hb
    rw [hzero] at hdiv
    exact (Nat.div_eq_zero_iff_lt (by decide)).mp hdiv.symm
  cases htaken with
  | fresh =>
    have hlast := toNat_sub_one hburst
    refine .fresh rfl ?_
    show n + 1 + (s.burst - 1).toNat = _
    omega
  | kept hdue htokens =>
    have hlast := toNat_sub_one htokens
    refine .same rfl (hnone _ rfl hdue) ?_
    show n + 1 + (_ - 1 : UInt32).toNat = _
    omega
  | empty hdue => exact .same rfl (hnone _ rfl hdue) rfl
  | @refilled b tokens _ htokens hpos =>
    have hlast := toNat_sub_one hpos
    have hle := toNat_tokens_le b.tokens s.burst (s.refill b now)
    rw [← htokens, hrefill b rfl] at hle
    refine .more rfl ?_ ?_
    · show 60000 * (n + 1 + (tokens - 1).toNat) ≤ _
      omega
    · show n + 1 + (tokens - 1).toNat ≤ _
      omega
  | narrowed =>
    refine .more rfl ?_ ?_
    · show 60000 * (n + 0) ≤ _
      omega
    · show n + 0 ≤ _
      omega

theorem Taken.tokens_lt {s : IpRateLimiter κ} {now : Nat} {bucket : Option Bucket} {b' : Bucket}
    {granted : Bool} (hburst : s.burst ≠ 0)
    (hbucket : ∀ b, bucket = some b → b.tokens.toNat < s.burst.toNat)
    (h : Taken s now bucket b' granted) : b'.tokens.toNat < s.burst.toNat := by
  have hlast := toNat_sub_one hburst
  cases h with
  | fresh =>
    show (s.burst - 1).toNat < _
    omega
  | @kept b _ htokens =>
    have htokens := toNat_sub_one htokens
    have hb := hbucket b rfl
    show (b.tokens - 1).toNat < _
    omega
  | empty => exact hbucket _ rfl
  | @refilled b tokens _ htokens hpos =>
    have hpos := toNat_sub_one hpos
    have hle := (toNat_tokens_le b.tokens s.burst (s.refill b now)).2
    rw [← htokens] at hle
    show (tokens - 1).toNat < _
    omega
  | narrowed =>
    show 0 < _
    omega

theorem Taken.updated_le {s : IpRateLimiter κ} {now : Nat} {bucket : Option Bucket} {b' : Bucket}
    {granted : Bool} (hbucket : ∀ b, bucket = some b → b.updated ≤ now)
    (h : Taken s now bucket b' granted) : b'.updated ≤ now := by
  cases h with
  | fresh => exact Nat.le_refl now
  | @kept b => exact hbucket b rfl
  | empty => exact hbucket _ rfl
  | refilled => exact Nat.le_refl now
  | narrowed => exact Nat.le_refl now

/-- **One call is paid for.** -/
theorem Paid.take {rate burst lo n n' now : Nat} {bucket : Option Bucket} {b' : Bucket}
    (hburst : ∀ b, bucket = some b → b.tokens.toNat < burst ∧ b.updated ≤ now)
    (h : Paid rate burst lo n now bucket) (hlo : lo ≤ now)
    (hmoved : Moved rate burst n now (n' + b'.tokens.toNat) bucket b') :
    Paid rate burst lo n' now (some b') := by
  cases hmoved with
  | fresh hupdated hsum =>
    cases h with
    | nothing _ hn =>
      subst hn
      refine .within (Nat.le_refl lo) (hupdated ▸ hlo) (Nat.le_of_eq hupdated) ?_
      rw [Nat.sub_self, Nat.zero_div]
      omega
    | full hanchor _ hpaid =>
      refine .within hanchor (hupdated ▸ hlo) (Nat.le_of_eq hupdated) ?_
      rw [hupdated, hsum]
      omega
  | @same b _ hupdated hdue hsum =>
    obtain ⟨hfree, hpast⟩ := hburst b rfl
    cases h with
    | nothing _ hn =>
      subst hn
      by_cases hin : lo ≤ b.updated
      · refine .within (Nat.le_refl lo) (hupdated ▸ hin) (hupdated ▸ hpast) ?_
        rw [Nat.sub_self, Nat.zero_div]
        omega
      · -- the window starts between the last refill and now
        have hms : (lo - b.updated) / MILLI ≤ (now - b.updated) / MILLI :=
          Nat.div_le_div_right (by omega)
        have hmul := Nat.mul_le_mul_left rate hms
        refine .before (by omega) hlo ?_ (by omega)
        rw [hupdated]
        omega
    | within hanchor hin _ hpaid =>
      refine .within hanchor (hupdated ▸ hin) (hupdated ▸ hpast) ?_
      rw [hupdated, hsum]
      exact hpaid
    | before hbefore _ hdue' hpaid =>
      refine .before (hupdated ▸ hbefore) hlo ?_ (by omega)
      rw [hupdated]
      exact hdue'
  | @more b _ hupdated hdue hfits =>
    obtain ⟨hfree, hpast⟩ := hburst b rfl
    cases h with
    | nothing _ hn =>
      subst hn
      refine .within (Nat.le_refl lo) (hupdated ▸ hlo) (Nat.le_of_eq hupdated) ?_
      rw [Nat.sub_self, Nat.zero_div]
      omega
    | @within _ anchor hanchor hin _ hpaid =>
      have hgrows := mul_add_div_milli_le rate (Nat.le_trans hanchor hin) hpast
      refine .within hanchor (hupdated ▸ hlo) (Nat.le_of_eq hupdated) ?_
      rw [hupdated]
      omega
    | before hbefore _ hdue' hpaid =>
      -- the refill reaches back before the window, by less than the token that was missing
      refine .within (Nat.le_of_lt hbefore) (hupdated ▸ hlo) (Nat.le_of_eq hupdated) ?_
      rw [hupdated]
      omega

end IpRateLimiter

/-! ## Runs -/

/-- A limiter with the calls it has answered, the last one first. -/
structure LimiterRun (κ : Type*) [LinearOrder κ] where
  limiter : IpRateLimiter κ
  clock : Nat
  calls : List (κ × Nat × Bool)

namespace LimiterRun

variable {κ : Type*} [LinearOrder κ]

def step (s : LimiterRun κ) (call : κ × Nat) : Option (LimiterRun κ) :=
  if s.clock ≤ call.2 then
    some
      { limiter := (s.limiter.takeAt call.1 call.2).1
        clock := call.2
        calls := (call.1, call.2, (s.limiter.takeAt call.1 call.2).2) :: s.calls }
  else none

/-- How often the address was let through between `start` and `d` milliseconds later. -/
def permits (s : LimiterRun κ) (ip : κ) (start d : Nat) : Nat :=
  (s.calls.filter fun c => c.1 = ip ∧ start ≤ c.2.1 ∧ c.2.1 ≤ start + d * MILLI ∧ c.2.2).length

def lastTouch (s : LimiterRun κ) (ip : κ) : Option Nat :=
  (s.calls.find? fun c => c.1 = ip).map fun c => c.2.1

def CountsRefill (s : LimiterRun κ) (call : κ × Nat) : Prop :=
  match (s.limiter.prune call.2).buckets[call.1]? with
  | some b => s.limiter.Counts b call.2
  | none => True

instance (s : LimiterRun κ) (call : κ × Nat) : Decidable (s.CountsRefill call) := by
  unfold CountsRefill
  split <;> infer_instance

end LimiterRun

/-- A limiter whose burst is at most twice its rate, from its start on. -/
def limiterRuns (κ : Type*) [LinearOrder κ] : Machine (LimiterRun κ) (κ × Nat) where
  init s := (∃ ratePerMin burst, s.limiter = .new ratePerMin burst) ∧
    s.limiter.burst.toNat ≤ 2 * s.limiter.ratePerMin.toNat ∧ s.calls = []
  step := LimiterRun.step

namespace LimiterRun

variable {κ : Type*} [LinearOrder κ] {s : LimiterRun κ}

/-- The permits since `lo`. -/
def since (calls : List (κ × Nat × Bool)) (ip : κ) (lo : Nat) : Nat :=
  (calls.filter fun c => c.1 = ip ∧ lo ≤ c.2.1 ∧ c.2.2).length

structure Budget (s : LimiterRun κ) : Prop where
  rate_ne : s.limiter.ratePerMin ≠ 0
  burst_ne : s.limiter.burst ≠ 0
  burst_le : s.limiter.burst.toNat ≤ 2 * s.limiter.ratePerMin.toNat
  past : ∀ c ∈ s.calls, c.2.1 ≤ s.clock
  stored : ∀ (ip : κ) (b : Bucket), s.limiter.buckets[ip]? = some b →
    b.tokens.toNat < s.limiter.burst.toNat ∧ ∃ t, s.lastTouch ip = some t ∧ b.updated ≤ t
  paid : ∀ ip lo, IpRateLimiter.Paid s.limiter.ratePerMin.toNat s.limiter.burst.toNat lo
    (since s.calls ip lo) s.clock s.limiter.buckets[ip]?

theorem lastTouch_le (h : ∀ c ∈ s.calls, c.2.1 ≤ s.clock) {ip : κ} {t : Nat}
    (ht : s.lastTouch ip = some t) : t ≤ s.clock := by
  obtain ⟨c, hc, rfl⟩ := map_eq_some_iff.mp ht
  exact h c (mem_of_find?_eq_some hc)

theorem budget_init (h : (limiterRuns κ).init s) : s.Budget := by
  obtain ⟨⟨ratePerMin, burst, hnew⟩, hle, hcalls⟩ := h
  have hone : ∀ a : UInt32, max a 1 ≠ 0 := by
    intro a hzero
    have hle : (1 : UInt32) ≤ max a 1 := by
      show 1 ≤ if _ ≤ _ then _ else _
      split
      · exact UInt32.le_refl 1
      · next h => exact UInt32.le_of_lt (UInt32.not_le.mp h)
    rw [hzero] at hle
    exact absurd hle (by decide)
  refine
    { rate_ne := by rw [hnew]; exact hone _
      burst_ne := by rw [hnew]; exact hone _
      burst_le := hle
      past := fun c hc => ?_
      stored := fun ip b hb => ?_
      paid := fun ip lo => .nothing _ ?_ }
  · rw [hcalls] at hc
    cases hc
  · rw [hnew] at hb
    simp [IpRateLimiter.new] at hb
  · rw [hcalls]
    rfl

theorem since_cons (c : κ × Nat × Bool) (calls : List (κ × Nat × Bool)) (ip : κ) (lo : Nat) :
    since (c :: calls) ip lo =
      if c.1 = ip ∧ lo ≤ c.2.1 ∧ c.2.2 then since calls ip lo + 1 else since calls ip lo := by
  unfold since
  rw [filter_cons]
  by_cases h : c.1 = ip ∧ lo ≤ c.2.1 ∧ c.2.2
  · rw [if_pos (by simpa using h), if_pos h, length_cons]
  · rw [if_neg (by simpa using h), if_neg h]

/-- **One call keeps the invariant.** -/
theorem Budget.step (h : s.Budget) {call : κ × Nat} (hcounts : s.CountsRefill call)
    {s' : LimiterRun κ} (hstep : (limiterRuns κ).step s call = some s') : s'.Budget := by
  obtain ⟨ip, now⟩ := call
  obtain ⟨hclock, hs'⟩ : s.clock ≤ now ∧ s' =
      ⟨(s.limiter.takeAt ip now).1, now, (ip, now, (s.limiter.takeAt ip now).2) :: s.calls⟩ := by
    simp only [limiterRuns, LimiterRun.step] at hstep
    split at hstep
    · next hle =>
      cases hstep
      exact ⟨hle, rfl⟩
    · cases hstep
  obtain ⟨bucket, htable, htaken⟩ := IpRateLimiter.takeAt_taken h.burst_ne ip now
  have hrate : s'.limiter.ratePerMin = s.limiter.ratePerMin := by
    rw [hs']
    show (s.limiter.takeAt ip now).1.ratePerMin = _
    rw [htable]
    exact IpRateLimiter.prune_ratePerMin ..
  have hburst : s'.limiter.burst = s.limiter.burst := by
    rw [hs']
    show (s.limiter.takeAt ip now).1.burst = _
    rw [htable]
    exact IpRateLimiter.prune_burst ..
  have hbuckets : ∀ ip', s'.limiter.buckets[ip']? =
      if ip = ip' then some bucket else (s.limiter.prune now).buckets[ip']? := by
    intro ip'
    rw [hs']
    show (s.limiter.takeAt ip now).1.buckets[ip']? = _
    rw [htable]
    show ((s.limiter.prune now).buckets.insert ip bucket)[ip']? = _
    rw [ExtTreeMap.getElem?_insert]
    by_cases heq : ip = ip'
    · rw [if_pos (compare_eq_iff_eq.mpr heq), if_pos heq]
    · rw [if_neg fun hc => heq (compare_eq_iff_eq.mp hc), if_neg heq]
  -- a bucket that is left was there before
  have hleft : ∀ (ip' : κ) (b : Bucket), (s.limiter.prune now).buckets[ip']? = some b →
      s.limiter.buckets[ip']? = some b := by
    intro ip' b hb
    rcases s.limiter.prune_bucket now ip' with hsame | ⟨hnone, -⟩
    · rw [← hsame, hb]
    · rw [hnone] at hb
      cases hb
  have hpast : ∀ b : Bucket, (s.limiter.prune now).buckets[ip]? = some b →
      b.tokens.toNat < s.limiter.burst.toNat ∧ b.updated ≤ now := by
    intro b hb
    obtain ⟨hfree, t, ht, hle⟩ := h.stored ip b (hleft ip b hb)
    exact ⟨hfree, Nat.le_trans hle (Nat.le_trans (lastTouch_le h.past ht) hclock)⟩
  have howed : ∀ b : Bucket, (s.limiter.prune now).buckets[ip]? = some b →
      s.limiter.owed b now < 2 ^ 64 := by
    intro b hb
    rw [CountsRefill, hb] at hcounts
    exact hcounts.1
  have hpruned : ∀ ip' lo, IpRateLimiter.Paid s.limiter.ratePerMin.toNat s.limiter.burst.toNat lo
      (since s.calls ip' lo) now (s.limiter.prune now).buckets[ip']? := fun ip' lo =>
    (h.paid ip' lo).prune hclock h.burst_le (s.limiter.prune_bucket now ip')
  refine
    { rate_ne := hrate ▸ h.rate_ne
      burst_ne := hburst ▸ h.burst_ne
      burst_le := by rw [hburst, hrate]; exact h.burst_le
      past := ?_
      stored := ?_
      paid := fun ip' lo => ?_ }
  · rw [hs']
    intro c hc
    rcases mem_cons.mp hc with rfl | hc
    · exact Nat.le_refl now
    · exact Nat.le_trans (h.past c hc) hclock
  · intro ip' b hb
    rw [hburst]
    rw [hbuckets] at hb
    by_cases heq : ip = ip'
    · rw [if_pos heq, some.injEq] at hb
      subst hb heq
      have htouch : s'.lastTouch ip = some now := by
        rw [hs', lastTouch, find?_cons_of_pos (by simp)]
        rfl
      refine ⟨?_, now, htouch, ?_⟩
      · exact htaken.tokens_lt h.burst_ne fun b hb => (hpast b hb).1
      · exact htaken.updated_le fun b hb => (hpast b hb).2
    · rw [if_neg heq] at hb
      obtain ⟨hfree, t, ht, hle⟩ := h.stored ip' b (hleft ip' b hb)
      refine ⟨hfree, t, ?_, hle⟩
      rw [hs', lastTouch, find?_cons_of_neg (by simpa using heq)]
      exact ht
  · rw [hrate, hburst, hbuckets, hs', since_cons]
    by_cases heq : ip = ip'
    · subst heq
      rw [if_pos rfl]
      by_cases hlo : lo ≤ now
      · have hmoved := htaken.moved (n := since s.calls ip lo) h.rate_ne h.burst_ne howed
        refine (hpruned ip lo).take hpast hlo ?_
        simpa [hlo] using hmoved
      · -- nothing was given since, nor is now
        rw [if_neg fun hc => hlo hc.2.1]
        refine .nothing _ ?_
        refine length_eq_zero_iff.mpr (filter_eq_nil_iff.mpr fun c hc => ?_)
        have hle := h.past c hc
        simp only [decide_eq_true_eq, not_and]
        intro _ hlo'
        omega
    · rw [if_neg heq, if_neg fun hc => heq hc.1]
      exact hpruned ip' lo

def Bounded (s : LimiterRun κ) : Prop :=
  ∀ ip start d, 60000 * s.permits ip start d ≤
    60000 * s.limiter.burst.toNat + s.limiter.ratePerMin.toNat * d

theorem Budget.permits_le (h : s.Budget) (ip : κ) {start d : Nat}
    (hclock : s.clock ≤ start + d * MILLI) :
    60000 * s.permits ip start d ≤
      60000 * s.limiter.burst.toNat + s.limiter.ratePerMin.toNat * d := by
  have hsince : s.permits ip start d = since s.calls ip start := by
    unfold permits since
    refine congrArg List.length (filter_congr fun c hc => ?_)
    have hle := Nat.le_trans (h.past c hc) hclock
    simp [hle]
  rw [hsince]
  exact (h.paid ip start).le hclock

theorem Bounded.step (hbudget : s.Budget) (h : s.Bounded) {call : κ × Nat}
    (hcounts : s.CountsRefill call) {s' : LimiterRun κ}
    (hstep : (limiterRuns κ).step s call = some s') : s'.Bounded := by
  have hbudget' := hbudget.step hcounts hstep
  intro ip start d
  by_cases hclock : s'.clock ≤ start + d * MILLI
  · exact hbudget'.permits_le ip hclock
  · simp only [limiterRuns, LimiterRun.step] at hstep
    split at hstep
    · cases hstep
      have hout : ¬call.2 ≤ start + d * MILLI := hclock
      obtain ⟨bucket, htable, -⟩ :=
        IpRateLimiter.takeAt_taken hbudget.burst_ne call.1 call.2
      show 60000 * (List.filter _ (_ :: s.calls)).length ≤
        60000 * (s.limiter.takeAt call.1 call.2).1.burst.toNat +
          (s.limiter.takeAt call.1 call.2).1.ratePerMin.toNat * d
      rw [htable, filter_cons_of_neg (by simp [hout])]
      show _ ≤ 60000 * (s.limiter.prune call.2).burst.toNat +
        (s.limiter.prune call.2).ratePerMin.toNat * d
      rw [IpRateLimiter.prune_burst, IpRateLimiter.prune_ratePerMin]
      exact h ip start d
    · cases hstep

/-- **After a pause of one token** a call is granted. -/
theorem Budget.granted (h : s.Budget) {ip : κ} {t now : Nat} (htouch : s.lastTouch ip = some t)
    (hpause : t + (60000 + s.limiter.ratePerMin.toNat - 1) / s.limiter.ratePerMin.toNat * MILLI
      ≤ now)
    (hcounts : s.CountsRefill (ip, now)) : (s.limiter.takeAt ip now).2 = true := by
  obtain ⟨bucket, -, htaken⟩ := IpRateLimiter.takeAt_taken h.burst_ne ip now
  have hrate : 0 < s.limiter.ratePerMin.toNat :=
    Nat.pos_of_ne_zero fun h0 => h.rate_ne (UInt32.toNat_inj.mp h0)
  -- at least one token is due
  have howed : ∀ b : Bucket, (s.limiter.prune now).buckets[ip]? = some b →
      60000 ≤ s.limiter.owed b now := by
    intro b hb
    have hb' : s.limiter.buckets[ip]? = some b := by
      rcases s.limiter.prune_bucket now ip with hsame | ⟨hnone, -⟩
      · rw [← hsame, hb]
      · rw [hnone] at hb
        cases hb
    obtain ⟨-, t', ht', hle⟩ := h.stored ip b hb'
    rw [htouch, some.injEq] at ht'
    subst ht'
    have hms : (60000 + s.limiter.ratePerMin.toNat - 1) / s.limiter.ratePerMin.toNat ≤
        IpRateLimiter.elapsedMs b now := by
      rw [IpRateLimiter.elapsedMs, Nat.le_div_iff_mul_le (by decide)]
      omega
    have hceil : 60000 ≤ (60000 + s.limiter.ratePerMin.toNat - 1) / s.limiter.ratePerMin.toNat *
        s.limiter.ratePerMin.toNat := by
      have hdiv := Nat.div_add_mod (60000 + s.limiter.ratePerMin.toNat - 1)
        s.limiter.ratePerMin.toNat
      have hmod := Nat.mod_lt (60000 + s.limiter.ratePerMin.toNat - 1) hrate
      rw [Nat.mul_comm] at hdiv
      omega
    exact Nat.le_trans hceil (Nat.mul_le_mul_right _ hms)
  generalize hb : (s.limiter.prune now).buckets[ip]? = found at htaken howed
  generalize hgranted : (s.limiter.takeAt ip now).2 = granted at htaken
  rw [CountsRefill] at hcounts
  simp only [hb] at hcounts
  cases htaken with
  | fresh => rfl
  | kept => rfl
  | refilled => rfl
  | empty hdue _ =>
    have hdiv := IpRateLimiter.refill_toNat h.rate_ne hcounts.1
    have hone := howed _ rfl
    rw [hdue] at hdiv
    have hlt := (Nat.div_eq_zero_iff_lt (by decide)).mp hdiv.symm
    omega
  | @narrowed b _ hzero =>
    refine absurd hzero fun hzero => ?_
    have hdiv := IpRateLimiter.refill_toNat h.rate_ne hcounts.1
    have hsum : saturatingAdd32 b.tokens (s.limiter.refill b now).toUInt32 ≠ 0 := by
      refine IpRateLimiter.saturatingAdd32_ne_zero
        ((hcounts.2 (howed b rfl)).imp_right fun hlow hcast => hlow ?_)
      rw [← hdiv, ← UInt64.toNat_toUInt32, hcast]
      rfl
    revert hzero
    show (if _ ≤ _ then _ else _) = (0 : UInt32) → False
    split
    · exact hsum
    · exact h.burst_ne

end LimiterRun

/-- **The limiter keeps its rate.** In every run whose refills count, every address gets at most
the burst and the rate for the time in any window, and is let through after a pause long enough
for one token, however long it was. -/
theorem rate_limited {κ : Type*} [LinearOrder κ] {s : LimiterRun κ}
    (h : (limiterRuns κ).ReachableUnder LimiterRun.CountsRefill s) (ip : κ) :
    (∀ start d, 60000 * s.permits ip start d ≤
      60000 * s.limiter.burst.toNat + s.limiter.ratePerMin.toNat * d) ∧
    ∀ t now, s.lastTouch ip = some t →
      t + (60000 + s.limiter.ratePerMin.toNat - 1) / s.limiter.ratePerMin.toNat * MILLI ≤ now →
      s.CountsRefill (ip, now) → (s.limiter.takeAt ip now).2 = true := by
  have hboth : s.Budget ∧ s.Bounded := by
    refine h.invariant (I := fun s => s.Budget ∧ s.Bounded) (fun s hinit => ?_) ?_
    · refine ⟨LimiterRun.budget_init hinit, fun ip start d => ?_⟩
      rw [LimiterRun.permits, hinit.2.2]
      exact Nat.zero_le _
    · rintro s call s' ⟨hbudget, hbounded⟩ hcounts hstep
      exact ⟨hbudget.step hcounts hstep, hbounded.step hbudget hcounts hstep⟩
  exact ⟨hboth.2 ip, fun t now htouch hpause hcounts => hboth.1.granted htouch hpause hcounts⟩

/-! ## Two limiters -/

namespace SampleLimiter

def start (ratePerMin burst : UInt32) : LimiterRun Nat where
  limiter := .new ratePerMin burst
  clock := 0
  calls := []

theorem start_init {ratePerMin burst : UInt32}
    (h : (max burst 1).toNat ≤ 2 * (max ratePerMin 1).toNat) :
    (limiterRuns Nat).init (start ratePerMin burst) :=
  ⟨⟨ratePerMin, burst, rfl⟩, h, rfl⟩

theorem third_call_denied :
    ∃ s, (limiterRuns Nat).run (start 10 2) [(7, 0), (7, 0), (7, 0)] = some s ∧
      60000 * s.permits 7 0 0 ≤ 60000 * 2 + 10 * 0 ∧
      (s.limiter.takeAt 7 (6000 * MILLI)).2 = true := by
  have hrun : ∃ s, (limiterRuns Nat).run (start 10 2) [(7, 0), (7, 0), (7, 0)] = some s ∧
      (limiterRuns Nat).runUnder LimiterRun.CountsRefill (start 10 2) [(7, 0), (7, 0), (7, 0)] =
        some s ∧
      s.limiter.burst = 2 ∧ s.limiter.ratePerMin = 10 ∧ s.lastTouch 7 = some 0 ∧
      s.CountsRefill (7, 6000 * MILLI) := ⟨_, rfl, rfl, rfl, rfl, rfl, by decide +kernel⟩
  obtain ⟨s, hrun, hunder, hburst, hrate, htouch, hcounts⟩ := hrun
  obtain ⟨hbound, hgrant⟩ := rate_limited
    (Machine.reachableUnder_runUnder (.init (start_init (by decide))) hunder) 7
  have hle := hbound 0 0
  rw [hburst, hrate] at hle
  rw [hrate] at hgrant
  exact ⟨s, hrun, hle, hgrant 0 _ htouch (by decide) hcounts⟩

/-- The refill of two minutes at 2^31 a minute is 2^32, which is zero as `u32`: the address is
denied although a token was due within a millisecond. -/
theorem idle_address_denied :
    ∃ s, (limiterRuns Nat).run (start 2147483648 1) [(7, 0)] = some s ∧
      s.lastTouch 7 = some 0 ∧
      (60000 + s.limiter.ratePerMin.toNat - 1) / s.limiter.ratePerMin.toNat = 1 ∧
      (s.limiter.takeAt 7 (120000 * MILLI)).2 = false :=
  ⟨_, rfl, rfl, by decide +kernel, by decide +kernel⟩

end SampleLimiter

end Dweb
