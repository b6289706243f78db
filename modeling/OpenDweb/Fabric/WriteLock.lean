import OpenDweb.Lib.Keys

/-!
# OpenDweb — how long `Roster::write_lock` waits (`dweb-fabric/src/roster.rs`)

`write_lock` tries the file lock until it has it, an error ends it, or five seconds have passed. A
lock that another process holds shows as `Ok(false)` or as an error of kind `WouldBlock`.

* **`WriteLockCall`** — what a call meets: the answers of `try_lock_exclusive`, and a clock.
* **`bounded_wait_iff`** — the wait is bounded, with a sleep between the attempts, if and only if
  the call never gets to an attempt that is answered `Ok(false)`: that arm looks at no clock.
-/

namespace Dweb

/-- What `file.try_lock_exclusive()` answers: `Ok(true)`, `Ok(false)`, an error of kind
`WouldBlock`, or another error. -/
inductive TryLock (ε : Type) where
  | acquired
  | contended
  | wouldBlock
  | failed (err : ε)
deriving DecidableEq

/-- The `source` of a `RosterError::Persistence`, whose path is that of `roster.lock`. -/
inductive LockError (ε : Type) where
  | os (err : ε)
  | timedOut (text : String)
deriving DecidableEq

inductive LockTurn (ε : Type) where
  | return (result : Except (LockError ε) Unit)
  | again (slept : Bool)
deriving DecidableEq

inductive LockEvent where
  | attempt (i : Nat)
  | sleep (ns : Nat)
deriving DecidableEq

/-- One call: whether `roster.lock` opens, what its attempts are answered, and what the clock
shows. The deadline is computed at moment 0, attempt `i` is made at moment `2 * i + 1`, and its
answer is dealt with at the moment after that. -/
structure WriteLockCall (ε : Type) where
  openError : Option ε
  answers : Nat → TryLock ε
  clock : Nat → Nat
  monotone : Monotone clock

namespace WriteLockCall

variable {ε : Type} (c : WriteLockCall ε)

/-- `Duration::from_secs(5)` and `Duration::from_millis(20)`, in nanoseconds. -/
def wait : Nat := 5000000000

def retrySleep : Nat := 20000000

def deadline : Nat := c.clock 0 + wait

def attemptedAt (i : Nat) : Nat := c.clock (2 * i + 1)

def answeredAt (i : Nat) : Nat := c.clock (2 * i + 2)

/-- One turn of the loop. `Ok(false) => {}` goes round at once. -/
def turn (i : Nat) : LockTurn ε :=
  match c.answers i with
  | .acquired => .return (.ok ())
  | .contended => .again false
  | .wouldBlock =>
    if c.answeredAt i ≥ c.deadline then .return (.error (.timedOut "write lock contention timeout"))
    else .again true
  | .failed err => .return (.error (.os err))

/-- The loop from attempt `i` on: what it does in so many turns, and what it has returned. -/
def loop : Nat → Nat → List LockEvent × Option (Except (LockError ε) Unit)
  | 0, _ => ([], none)
  | turns + 1, i =>
    match c.turn i with
    | .return result => ([.attempt i], some result)
    | .again slept =>
      let rest := loop turns (i + 1)
      (.attempt i :: (if slept then [.sleep retrySleep] else []) ++ rest.1, rest.2)

/-- `write_lock`, as far as it gets in so many turns of its loop. -/
def writeLock (turns : Nat) : List LockEvent × Option (Except (LockError ε) Unit) :=
  match c.openError with
  | some err => ([], some (.error (.os err)))
  | none => c.loop turns 0

/-- The call returns no later than its first attempt at or after the deadline, and between two
attempts it sleeps. -/
structure BoundedWait : Prop where
  returns : ∀ i, c.deadline ≤ c.attemptedAt i → (c.writeLock (i + 1)).2.isSome = true
  sleeps : ∀ turns,
    (c.writeLock turns).1.IsChain fun e f => e = .sleep retrySleep ∨ f = .sleep retrySleep

/-- Attempt `i` is answered `WouldBlock`, with the clock before the deadline. -/
def Blocked (i : Nat) : Prop := c.answers i = .wouldBlock ∧ c.answeredAt i < c.deadline

/-- From attempt `i` on, `Ok(false)` comes after an attempt that is not blocked. -/
def Clear (i : Nat) : Prop :=
  ∀ j, i ≤ j → (∀ k, i ≤ k → k < j → c.Blocked k) → c.answers j ≠ .contended

variable {c}

variable {i : Nat} {slept : Bool}

theorem Clear.succ (h : c.Clear i) (hi : c.Blocked i) : c.Clear (i + 1) := by
  refine fun j hj hblocked => h j (Nat.le_of_succ_le hj) fun k hk hkj => ?_
  rcases Nat.eq_or_lt_of_le hk with rfl | hlt
  · exact hi
  · exact hblocked k hlt hkj

theorem turn_of_blocked (h : c.Blocked i) : c.turn i = .again true := by
  rw [turn, h.1]
  exact if_neg (Nat.not_le.mpr h.2)

/-- An attempt that the loop goes on from was answered by one of the two signs of contention. -/
theorem turn_eq_again (h : c.turn i = .again slept) :
    (c.answers i = .contended ∧ slept = false) ∨ (c.Blocked i ∧ slept = true) := by
  unfold turn at h
  split at h
  · cases h
  · next hanswer =>
    cases h
    exact Or.inl ⟨hanswer, rfl⟩
  · next hanswer =>
    split at h
    · cases h
    · next hlate =>
      cases h
      exact Or.inr ⟨⟨hanswer, Nat.not_le.mp hlate⟩, rfl⟩
  · cases h

/-- While nothing is answered `Ok(false)` the loop goes on only from an attempt that is blocked. -/
theorem Clear.of_again (h : c.Clear i) (hturn : c.turn i = .again slept) :
    c.Blocked i ∧ slept = true := by
  rcases turn_eq_again hturn with ⟨hanswer, -⟩ | hblocked
  · exact absurd hanswer (h i (Nat.le_refl i) fun k hk hki => absurd hk (Nat.not_le.mpr hki))
  · exact hblocked

theorem loop_again {turns : Nat} (h : c.turn i = .again slept) :
    c.loop (turns + 1) i
      = (.attempt i :: (if slept then [.sleep retrySleep] else []) ++ (c.loop turns (i + 1)).1,
        (c.loop turns (i + 1)).2) := by
  rw [loop, h]

theorem loop_return {turns : Nat} {result : Except (LockError ε) Unit}
    (h : c.turn i = .return result) : c.loop (turns + 1) i = ([.attempt i], some result) := by
  rw [loop, h]

theorem loop_cons (turns i : Nat) : ∃ rest, (c.loop (turns + 1) i).1 = .attempt i :: rest := by
  cases h : c.turn i with
  | «return» result => exact ⟨[], by rw [loop_return h]⟩
  | again slept => exact ⟨_, by rw [loop_again h, List.cons_append]⟩

/-- An attempt that is answered `Ok(false)` is followed by another at once. -/
theorem loop_of_contended {n : Nat} (hn : c.answers n = .contended) :
    ∀ k i, i + k = n → (∀ j, i ≤ j → j < n → c.Blocked j) →
      ∃ before after, (c.loop (k + 2) i).1
        = before ++ .attempt n :: .attempt (n + 1) :: after := by
  intro k
  induction k with
  | zero =>
    intro i hi _
    obtain rfl : i = n := hi
    obtain ⟨after, hafter⟩ := loop_cons (c := c) 0 (i + 1)
    have hturn : c.turn i = .again false := by rw [turn, hn]
    exact ⟨[], after, by rw [loop_again hturn, hafter]; rfl⟩
  | succ k ih =>
    intro i hi hblocked
    obtain ⟨before, after, hloop⟩ := ih (i + 1) (by omega) fun j hj => hblocked j (by omega)
    have hturn := turn_of_blocked (hblocked i (Nat.le_refl i) (by omega))
    refine ⟨.attempt i :: .sleep retrySleep :: before, after, ?_⟩
    rw [Nat.add_right_comm, loop_again hturn, hloop]
    rfl

theorem loop_sleeps (turns : Nat) : ∀ i, c.Clear i →
    (c.loop turns i).1.IsChain fun e f => e = .sleep retrySleep ∨ f = .sleep retrySleep := by
  induction turns with
  | zero => exact fun _ _ => .nil
  | succ turns ih =>
    intro i hclear
    cases hturn : c.turn i with
    | «return» result =>
      rw [loop_return hturn]
      exact .singleton _
    | again slept =>
      obtain ⟨hblocked, rfl⟩ := hclear.of_again hturn
      rw [loop_again hturn]
      exact List.isChain_cons_cons.mpr ⟨Or.inr rfl,
        List.isChain_cons.mpr ⟨fun _ _ => Or.inl rfl, ih (i + 1) (hclear.succ hblocked)⟩⟩

/-- Without `Ok(false)` the attempt at or after the deadline is the last. -/
theorem loop_returns {late : Nat} (hlate : c.deadline ≤ c.attemptedAt late) :
    ∀ k i, i + k = late → c.Clear i → (c.loop (k + 1) i).2.isSome = true := by
  intro k
  induction k with
  | zero =>
    intro i hi hclear
    obtain rfl : i = late := hi
    cases hturn : c.turn i with
    | «return» result => rw [loop_return hturn]; rfl
    | again slept =>
      -- what is read after the attempt is not less than the time of the attempt
      have hread : c.attemptedAt i ≤ c.answeredAt i := c.monotone (Nat.le_succ _)
      exact absurd (hclear.of_again hturn).1.2 (Nat.not_lt.mpr (Nat.le_trans hlate hread))
  | succ k ih =>
    intro i hi hclear
    cases hturn : c.turn i with
    | «return» result => rw [loop_return hturn]; rfl
    | again slept =>
      rw [loop_again hturn]
      exact ih (i + 1) (by omega) (hclear.succ (hclear.of_again hturn).1)

/-- **The wait is bounded if and only if no attempt that the call comes to is answered
`Ok(false)`.** -/
theorem bounded_wait_iff (c : WriteLockCall ε) :
    c.BoundedWait ↔ (c.openError = none → ∀ i, (∀ j < i, c.Blocked j) →
      c.answers i ≠ .contended) := by
  constructor
  · intro h hopen i hblocked hanswer
    obtain ⟨before, after, hloop⟩ :=
      loop_of_contended hanswer i 0 (Nat.zero_add i) fun j _ hj => hblocked j hj
    have hchain := h.sleeps (i + 2)
    rw [writeLock, hopen] at hchain
    replace hchain := (List.isChain_append.mp (hloop ▸ hchain)).2.1
    rcases (List.isChain_cons_cons.mp hchain).1 with heq | heq <;> cases heq
  · intro h
    cases hopen : c.openError with
    | some err =>
      refine ⟨fun i _ => ?_, fun turns => ?_⟩ <;> rw [writeLock, hopen]
      · rfl
      · exact .nil
    | none =>
      have hclear : c.Clear 0 := fun j _ hblocked =>
        h hopen j fun k hk => hblocked k (Nat.zero_le k) hk
      refine ⟨fun i hlate => ?_, fun turns => ?_⟩ <;> rw [writeLock, hopen]
      · exact loop_returns hlate i 0 (Nat.zero_add i) hclear
      · exact loop_sleeps turns 0 hclear

/-- Another process keeps the lock, which shows as `Ok(false)`; a moment is half a second. -/
def held : WriteLockCall Unit where
  openError := none
  answers _ := .contended
  clock moment := moment * 500000000
  monotone _ _ h := Nat.mul_le_mul_right _ h

/-- No number of turns ends the call, the first attempt after the deadline included. -/
theorem held_endless : (∀ turns, (held.writeLock turns).2 = none) ∧ ¬held.BoundedWait := by
  have hloop : ∀ turns i, (held.loop turns i).2 = none := by
    intro turns
    induction turns with
    | zero => exact fun _ => rfl
    | succ turns ih => exact fun i => ih (i + 1)
  refine ⟨fun turns => hloop turns 0, fun h => ?_⟩
  have hsome := h.returns 5 (by decide)
  rw [show (held.writeLock 6).2 = none from hloop 6 0] at hsome
  cases hsome

end WriteLockCall

end Dweb
