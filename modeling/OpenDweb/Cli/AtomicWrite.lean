import OpenDweb.Lib.Bytes
import OpenDweb.Lib.Machine
import OpenDweb.Lib.Updates

/-!
# OpenDweb — `atomicWrite0600` (`opendweb/src/leases.mjs`, `opendweb-ext-ai/src/fsutil.mjs`)

Both modules write a file in the same way: a temporary file is made with `O_EXCL`, written, synced
and renamed; whatever throws on the way, the name of the temporary file is removed. The name is
made of the file, the process id and `Date.now()`.

* **`WriteState.step`** — calls of any processes on one file, a system call at a time.
* **`NoSharedName`** — a step away from the defect: a call neither makes nor removes a temporary
  file where there is one that is not its own.
* **`atomic_write`** — in such runs the file is what it was at the start or the data of a call;
  only a `rename` changes it; and no call fails because of another one.
-/

namespace Dweb

open Option
open Function (update update_of_ne update_self)

/-- Call `i` is made by process `pid i`, to write `data i`. -/
structure WriteCalls where
  pid : Nat → Nat
  data : Nat → Bytes

/-- `ms` is what `Date.now()` gave, `ino` the file that the call has made and opened. -/
inductive WritePhase where
  | idle
  | named (ms : Nat)
  | writing (ms ino written : Nat)
  | synced (ms ino : Nat)
  /-- In the `catch`, with the file it made if it came to that. -/
  | failing (ms : Nat) (ino : Option Nat)
  | returned
  | threw
  | crashed
deriving DecidableEq

/-- The directory, by inodes: the file, and the temporary files by process id and time. -/
structure WriteState where
  file : Option Nat
  tmps : Nat × Nat → Option Nat
  content : Nat → Bytes
  next : Nat
  calls : Nat → WritePhase

inductive WriteLabel where
  /-- `mkdir`, `lstat` and `Date.now()`. -/
  | begin (i ms : Nat)
  /-- `mkdir` fails, or the file is a symbolic link. -/
  | refuse (i : Nat)
  | open (i : Nat)
  /-- `n` more bytes of the data are written. -/
  | write (i n : Nat)
  /-- `sync` and `close`. -/
  | sync (i : Nat)
  | rename (i : Nat)
  /-- The system call that is due fails. -/
  | fail (i : Nat)
  /-- `rm(tmp, { force: true })`, which may fail as well. -/
  | remove (i : Nat) (done : Bool)
  | crash (process : Nat)
deriving DecidableEq

/-- The temporary file that a call has made: its time and its inode. -/
def WritePhase.own : WritePhase → Option (Nat × Nat)
  | .writing ms ino _ | .synced ms ino | .failing ms (some ino) => some (ms, ino)
  | _ => none

def WritePhase.over : WritePhase → Bool
  | .idle | .returned | .threw | .crashed => true
  | _ => false

namespace WriteState

variable (w : WriteCalls)

def setCall (s : WriteState) (i : Nat) (phase : WritePhase) : WriteState :=
  { s with calls := update s.calls i phase }

def setTmp (s : WriteState) (name : Nat × Nat) (ino : Option Nat) : WriteState :=
  { s with tmps := update s.tmps name ino }

/-- `open(tmp, "wx")` where there is no such file. -/
def create (s : WriteState) (i ms : Nat) : WriteState :=
  { s with
    tmps := update s.tmps (w.pid i, ms) (some s.next)
    content := update s.content s.next []
    next := s.next + 1
    calls := update s.calls i (.writing ms s.next 0) }

def afterCrash (s : WriteState) (process i : Nat) : WritePhase :=
  if w.pid i = process ∧ (s.calls i).over = false then .crashed else s.calls i

def step (s : WriteState) : WriteLabel → Option WriteState
  | .begin i ms => if s.calls i = .idle then some (s.setCall i (.named ms)) else none
  | .refuse i => if s.calls i = .idle then some (s.setCall i .threw) else none
  | .open i =>
    match s.calls i with
    | .named ms =>
      match s.tmps (w.pid i, ms) with
      | none => some (s.create w i ms)
      | some _ => some (s.setCall i (.failing ms none))
    | _ => none
  | .write i n =>
    match s.calls i with
    | .writing ms ino written =>
      if written + n ≤ (w.data i).length then
        some { s.setCall i (.writing ms ino (written + n)) with
          content := update s.content ino
            (s.content ino ++ ((w.data i).drop written).take n) }
      else none
    | _ => none
  | .sync i =>
    match s.calls i with
    | .writing ms ino written =>
      if written = (w.data i).length then some (s.setCall i (.synced ms ino)) else none
    | _ => none
  | .rename i =>
    match s.calls i with
    | .synced ms ino =>
      match s.tmps (w.pid i, ms) with
      | some renamed =>
        some { (s.setTmp (w.pid i, ms) none).setCall i .returned with file := some renamed }
      | none => some (s.setCall i (.failing ms (some ino)))
    | _ => none
  | .fail i =>
    match s.calls i with
    | .named ms => some (s.setCall i (.failing ms none))
    | .writing ms ino _ | .synced ms ino => some (s.setCall i (.failing ms (some ino)))
    | _ => none
  | .remove i done =>
    match s.calls i with
    | .failing ms _ =>
      some ((if done then s.setTmp (w.pid i, ms) none else s).setCall i .threw)
    | _ => none
  | .crash process => some { s with calls := s.afterCrash w process }

/-- What somebody who opens the file reads. -/
def fileContent (s : WriteState) : Option Bytes := s.file.map s.content

/-- A call neither makes its file where there is one, nor removes the file of another call. -/
def NoSharedName (s : WriteState) : WriteLabel → Prop
  | .open i => ∀ ms, s.calls i = .named ms → s.tmps (w.pid i, ms) = none
  | .remove i done => ∀ ms, s.calls i = .failing ms none → done = true →
    ∀ j ms' ino, (s.calls j).own = some (ms', ino) → (w.pid j, ms') ≠ (w.pid i, ms)
  | _ => True

/-- What a step may do: only the rename of a call changes the file, and puts all its data in
place; and neither `open` nor `rename` fails on account of what is there. -/
structure Atomic (s : WriteState) (l : WriteLabel) (s' : WriteState) : Prop where
  keeps : (∀ i, l ≠ .rename i) → s'.fileContent = s.fileContent
  places : ∀ i, l = .rename i → s'.calls i = .returned ∧ s'.fileContent = some (w.data i)
  returns : ∀ i, s'.calls i = .returned → s.calls i ≠ .returned → l = .rename i
  opens : ∀ i, l = .open i → (s'.calls i).own.isSome = true

/-- The temporary file of a call holds what the call has written. -/
def Fits (s : WriteState) (i : Nat) : WritePhase → Prop
  | .writing ms ino written =>
    s.tmps (w.pid i, ms) = some ino ∧ s.content ino = (w.data i).take written
  | .synced ms ino => s.tmps (w.pid i, ms) = some ino ∧ s.content ino = w.data i
  | .failing ms (some ino) => s.tmps (w.pid i, ms) = some ino
  | _ => True

/-- The temporary files are files of their own, and each belongs to one call. -/
structure Apart (s : WriteState) : Prop where
  single : ∀ name name' ino, s.tmps name = some ino → s.tmps name' = some ino → name = name'
  unnamed : ∀ name ino, s.tmps name = some ino → s.file ≠ some ino ∧ ino < s.next
  old : ∀ ino, s.file = some ino → ino < s.next

structure Inv (s : WriteState) : Prop extends s.Apart where
  fits : ∀ i, s.Fits w i (s.calls i)
  owner : ∀ i j ms ms' ino, (s.calls i).own = some (ms, ino) → (s.calls j).own = some (ms', ino) →
    i = j

end WriteState

/-- At the start nobody writes; temporary files may be left of before. -/
def writeMachine (w : WriteCalls) (start : WriteState) : Machine WriteState WriteLabel where
  init s := s = start ∧ (∀ i, s.calls i = .idle) ∧ s.Apart
  step := WriteState.step w

namespace WriteState

variable {w : WriteCalls} {s s' : WriteState}

variable {i ms ino : Nat} {phase : WritePhase} {l : WriteLabel}

theorem Fits.tmps (h : s.Fits w i phase) (hown : phase.own = some (ms, ino)) :
    s.tmps (w.pid i, ms) = some ino := by
  unfold WritePhase.own at hown
  split at hown
  · cases hown
    exact h.1
  · cases hown
    exact h.1
  · cases hown
    exact h
  · cases hown

theorem Fits.keep (h : s.Fits w i phase)
    (hkeep : ∀ ms ino, phase.own = some (ms, ino) → s'.tmps (w.pid i, ms) = some ino ∧ s'.content ino = s.content ino) :
    s'.Fits w i phase := by
  cases phase with
  | writing ms ino written => exact (hkeep ms ino rfl).imp_right fun heq => heq.trans h.2
  | synced ms ino => exact (hkeep ms ino rfl).imp_right fun heq => heq.trans h.2
  | failing ms ino =>
    cases ino with
    | some ino => exact (hkeep ms ino rfl).1
    | none => trivial
  | idle | named | returned | threw | crashed => trivial

/-! ## What each step keeps -/

/-- **One call goes on**, and leaves the temporary files of the others as they are. -/
theorem Inv.change (h : s.Inv w) (hcalls : s'.calls = update s.calls i phase)
    (hapart : s'.Apart) (hfits : s'.Fits w i phase)
    (hown : ∀ ms ino, phase.own = some (ms, ino) → (∃ ms, (s.calls i).own = some (ms, ino)) ∨ s.next ≤ ino)
    (hothers : ∀ j ms ino, j ≠ i → (s.calls j).own = some (ms, ino) → s'.tmps (w.pid j, ms) = some ino ∧ s'.content ino = s.content ino) :
    s'.Inv w := by
  have hback : ∀ j ms ino, (s'.calls j).own = some (ms, ino) →
      (∃ ms, (s.calls j).own = some (ms, ino)) ∨ j = i ∧ s.next ≤ ino := fun j ms ino hj => by
    by_cases hji : j = i
    · rw [hcalls, hji, update_self] at hj
      exact (hown ms ino hj).imp (hji ▸ ·) (⟨hji, ·⟩)
    · rw [hcalls, update_of_ne hji] at hj
      exact Or.inl ⟨ms, hj⟩
  have hlt : ∀ {j ms ino}, (s.calls j).own = some (ms, ino) → ino < s.next := fun hj =>
    (h.unnamed _ _ ((h.fits _).tmps hj)).2
  refine ⟨hapart, fun j => ?_, fun j k ms ms' ino hj hk => ?_⟩
  · rw [hcalls]
    by_cases hji : j = i
    · rw [hji, update_self]
      exact hfits
    · rw [update_of_ne hji]
      exact (h.fits j).keep fun ms ino => hothers j ms ino hji
  · rcases hback j ms ino hj with ⟨a, ha⟩ | ⟨hji, hnew⟩ <;>
      rcases hback k ms' ino hk with ⟨b, hb⟩ | ⟨hki, hnew'⟩
    · exact h.owner j k a b ino ha hb
    · exact absurd (hlt ha) (Nat.not_lt.mpr hnew')
    · exact absurd (hlt hb) (Nat.not_lt.mpr hnew)
    · exact hji.trans hki.symm

theorem Inv.setCall (h : s.Inv w) (hfits : s.Fits w i phase)
    (hown : ∀ p, phase.own = some p → (s.calls i).own = some p) : (s.setCall i phase).Inv w :=
  h.change rfl { h.toApart with } hfits (fun ms _ hp => Or.inl ⟨ms, hown _ hp⟩)
    fun j _ _ _ hj => ⟨(h.fits j).tmps hj, rfl⟩

theorem Apart.setTmp_none (h : s.Apart) (name : Nat × Nat) : (s.setTmp name none).Apart := by
  have hback : ∀ {n ino}, (s.setTmp name none).tmps n = some ino → s.tmps n = some ino := by
    intro n ino hn
    rcases update_cases hn with ⟨-, hn⟩ | ⟨-, hn⟩
    · cases hn
    · exact hn
  exact ⟨fun n n' ino hn hn' => h.single n n' ino (hback hn) (hback hn'),
    fun n ino hn => h.unnamed n ino (hback hn), h.old⟩

/-- Two calls that have made their files have made them under two names. -/
theorem Inv.names_ne (h : s.Inv w) {j ms' ino' : Nat} (hji : j ≠ i)
    (hi : (s.calls i).own = some (ms, ino)) (hj : (s.calls j).own = some (ms', ino')) :
    (w.pid j, ms') ≠ (w.pid i, ms) := by
  intro heq
  have htmp := (h.fits j).tmps hj
  rw [heq, (h.fits i).tmps hi] at htmp
  cases htmp
  exact hji (h.owner j i ms' ms ino hj hi)

/-- A call removes a name that is its own or nobody's. -/
theorem Inv.remove (h : s.Inv w)
    (hfree : ∀ j ms' ino, j ≠ i → (s.calls j).own = some (ms', ino) → (w.pid j, ms') ≠ (w.pid i, ms)) :
    ((s.setTmp (w.pid i, ms) none).setCall i .threw).Inv w :=
  h.change rfl { h.toApart.setTmp_none _ with } trivial nofun fun j ms' ino hji hj =>
    ⟨(update_of_ne (hfree j ms' ino hji hj) _ _).trans ((h.fits j).tmps hj), rfl⟩

theorem Inv.rename (h : s.Inv w) (hown : (s.calls i).own = some (ms, ino)) :
    ({ (s.setTmp (w.pid i, ms) none).setCall i .returned with
      file := some ino } : WriteState).Inv w := by
  have htmp := (h.fits i).tmps hown
  refine h.change rfl ⟨(h.toApart.setTmp_none _).single, fun name x hname => ⟨fun heq => ?_,
    ((h.toApart.setTmp_none _).unnamed name x hname).2⟩,
    fun x hx => some.inj hx ▸ (h.unnamed _ _ htmp).2⟩ trivial nofun fun j ms' x hji hj =>
    ⟨(update_of_ne (h.names_ne hji hown hj) _ _).trans ((h.fits j).tmps hj), rfl⟩
  -- the inode has no other name
  obtain rfl : ino = x := some.inj heq
  rcases update_cases hname with ⟨-, hname⟩ | ⟨hne, hname⟩
  · cases hname
  · exact hne (h.single _ _ ino hname htmp)

theorem Inv.write (h : s.Inv w) {written : Nat} (n : Nat)
    (hphase : s.calls i = .writing ms ino written) :
    ({ s.setCall i (.writing ms ino (written + n)) with
      content := update s.content ino
        (s.content ino ++ ((w.data i).drop written).take n) } : WriteState).Inv w := by
  have hown : (s.calls i).own = some (ms, ino) := by rw [hphase]; rfl
  obtain ⟨htmp, hcontent⟩ : s.Fits w i (.writing ms ino written) := hphase ▸ h.fits i
  refine h.change rfl { h.toApart with } ⟨htmp, ?_⟩
    (fun _ _ hp => by cases hp; exact Or.inl ⟨ms, hown⟩) fun j ms' x hji hj =>
    ⟨(h.fits j).tmps hj, update_of_ne (fun heq => ?_) _ _⟩
  · show update s.content ino _ ino = _
    rw [update_self, hcontent, List.take_add]
  · exact hji (h.owner j i ms' ms ino (heq ▸ hj) hown)

theorem Inv.create (h : s.Inv w) (hfree : s.tmps (w.pid i, ms) = none) :
    (s.create w i ms).Inv w := by
  have hlt : ∀ {name ino}, s.tmps name = some ino → ino < s.next := fun hname =>
    (h.unnamed _ _ hname).2
  refine h.change rfl ⟨fun name name' ino hn hn' => ?_, fun name ino hn => ?_,
    fun ino hino => Nat.lt_succ_of_lt (h.old ino hino)⟩
    ⟨update_self .., update_self ..⟩
    (fun _ _ hp => by cases hp; exact Or.inr (Nat.le_refl _)) fun j ms' ino _ hj => ?_
  · rcases update_cases hn with ⟨hname, hn⟩ | ⟨-, hn⟩ <;>
      rcases update_cases hn' with ⟨hname', hn'⟩ | ⟨-, hn'⟩
    · exact hname.trans hname'.symm
    · exact absurd (hlt hn') (some.inj hn ▸ Nat.lt_irrefl _)
    · exact absurd (hlt hn) (some.inj hn' ▸ Nat.lt_irrefl _)
    · exact h.single name name' ino hn hn'
  · rcases update_cases hn with ⟨-, hn⟩ | ⟨-, hn⟩
    · cases hn
      exact ⟨fun hfile => Nat.lt_irrefl _ (h.old _ hfile), Nat.lt_succ_self _⟩
    · exact (h.unnamed name ino hn).imp_right Nat.lt_succ_of_lt
  · have htmp := (h.fits j).tmps hj
    refine ⟨(update_of_ne (fun heq => ?_) _ _).trans htmp,
      update_of_ne (Nat.ne_of_lt (hlt htmp)) _ _⟩
    rw [heq, hfree] at htmp
    cases htmp

theorem afterCrash_cases (s : WriteState) (process i : Nat) :
    s.afterCrash w process i = .crashed ∨ s.afterCrash w process i = s.calls i := by
  unfold afterCrash
  split
  · exact Or.inl rfl
  · exact Or.inr rfl

theorem Inv.crash (h : s.Inv w) (process : Nat) :
    ({ s with calls := s.afterCrash w process } : WriteState).Inv w := by
  have hback : ∀ i p, (s.afterCrash w process i).own = some p → (s.calls i).own = some p := by
    intro i p hp
    rcases s.afterCrash_cases (w := w) process i with heq | heq
    · rw [heq] at hp
      cases hp
    · rwa [heq] at hp
  refine ⟨{ h.toApart with }, fun i => ?_,
    fun i j ms ms' ino hi hj => h.owner i j ms ms' ino (hback i _ hi) (hback j _ hj)⟩
  show Fits w _ i (s.afterCrash w process i)
  rcases s.afterCrash_cases (w := w) process i with heq | heq
  · rw [heq]
    trivial
  · rw [heq]
    exact (h.fits i).keep fun ms ino hown => ⟨(h.fits i).tmps hown, rfl⟩

/-! ## What each step does to the file -/

/-- A step that is not a rename, and leaves the file and its content. -/
theorem Atomic.quiet (hl : ∀ i, l ≠ .rename i) (hcalls : s'.calls = update s.calls i phase)
    (hphase : phase ≠ .returned) (hfile : s'.fileContent = s.fileContent)
    (hopens : ∀ j, l = .open j → j = i ∧ phase.own.isSome = true) : Atomic w s l s' where
  keeps _ := hfile
  places j hj := absurd hj (hl j)
  returns j hj hne := by
    rw [hcalls] at hj
    rcases update_cases hj with ⟨-, hj⟩ | ⟨-, hj⟩
    · exact absurd hj hphase
    · exact absurd hj hne
  opens j hj := by
    obtain ⟨rfl, hsome⟩ := hopens j hj
    rwa [hcalls, update_self]

theorem Atomic.setCall (hl : ∀ i, l ≠ .rename i) (hopen : ∀ i, l ≠ .open i)
    (hphase : phase ≠ .returned) : Atomic w s l (s.setCall i phase) :=
  .quiet hl rfl hphase rfl fun j hj => absurd hj (hopen j)

/-- What the file holds does not depend on another inode. -/
theorem fileContent_update (hne : s.file ≠ some ino) (bytes : Bytes) :
    s.file.map (update s.content ino bytes) = s.file.map s.content := by
  cases hfile : s.file with
  | none => rfl
  | some x =>
    rw [map_some, map_some, update_of_ne fun heq => hne (hfile.trans
      (congrArg some heq))]

/-- **The step lemma.** -/
theorem Inv.step (h : s.Inv w) (hguard : s.NoSharedName w l) (hstep : s.step w l = some s') :
    s'.Inv w ∧ Atomic w s l s' := by
  unfold WriteState.step at hstep
  split at hstep
  -- begin, refuse
  · split at hstep
    · cases hstep
      exact ⟨h.setCall trivial nofun, .setCall nofun nofun nofun⟩
    · cases hstep
  · split at hstep
    · cases hstep
      exact ⟨h.setCall trivial nofun, .setCall nofun nofun nofun⟩
    · cases hstep
  -- open
  · next i =>
    split at hstep
    · next ms hphase =>
      have hfree := hguard ms hphase
      rw [hfree] at hstep
      cases hstep
      refine ⟨h.create hfree, .quiet (i := i) nofun rfl nofun ?_ fun j hj => ?_⟩
      · exact fileContent_update (fun hfile => Nat.lt_irrefl _ (h.old _ hfile)) []
      · cases hj
        exact ⟨rfl, rfl⟩
    · cases hstep
  -- write
  · next i n =>
    split at hstep
    · next ms ino written hphase =>
      have hown : (s.calls i).own = some (ms, ino) := by rw [hphase]; rfl
      split at hstep
      · cases hstep
        exact ⟨h.write n hphase, .quiet (i := i) nofun rfl nofun (fileContent_update
          (h.unnamed _ _ ((h.fits i).tmps hown)).1 _) nofun⟩
      · cases hstep
    · cases hstep
  -- sync
  · next i =>
    split at hstep
    · next ms ino written hphase =>
      split at hstep
      · next hall =>
        cases hstep
        have hfits : s.Fits w i (.writing ms ino written) := hphase ▸ h.fits i
        refine ⟨h.setCall ⟨hfits.1, ?_⟩ fun p hp => by rw [hphase]; exact hp,
          .setCall nofun nofun nofun⟩
        rw [hfits.2, hall, List.take_length]
      · cases hstep
    · cases hstep
  -- rename
  · next i =>
    split at hstep
    · next ms ino hphase =>
      have hown : (s.calls i).own = some (ms, ino) := by rw [hphase]; rfl
      obtain ⟨htmp, hcontent⟩ : s.Fits w i (.synced ms ino) := hphase ▸ h.fits i
      rw [htmp] at hstep
      cases hstep
      refine ⟨h.rename hown, fun hl => absurd rfl (hl i), fun j hj => ?_, fun j hj hne => ?_, nofun⟩
      · cases hj
        exact ⟨update_self .., congrArg some hcontent⟩
      · rcases update_cases hj with ⟨hji, -⟩ | ⟨-, hj⟩
        · rw [hji]
        · exact absurd hj hne
    · cases hstep
  -- fail
  · next i =>
    split at hstep
    · cases hstep
      exact ⟨h.setCall trivial nofun, .setCall nofun nofun nofun⟩
    · next hphase =>
      cases hstep
      have hown : (s.calls i).own = _ := congrArg WritePhase.own hphase
      exact ⟨h.setCall ((h.fits i).tmps hown) fun p hp => hown.trans hp, .setCall nofun nofun nofun⟩
    · next hphase =>
      cases hstep
      have hown : (s.calls i).own = _ := congrArg WritePhase.own hphase
      exact ⟨h.setCall ((h.fits i).tmps hown) fun p hp => hown.trans hp, .setCall nofun nofun nofun⟩
    · cases hstep
  -- remove
  · next i done =>
    split at hstep
    · next ms made hphase =>
      cases hstep
      cases done with
      | false => exact ⟨h.setCall trivial nofun, .setCall nofun nofun nofun⟩
      | true =>
        refine ⟨h.remove fun j ms' ino hji hj => ?_, .quiet (i := i) nofun rfl nofun rfl nofun⟩
        cases made with
        | none => exact hguard ms hphase rfl j ms' ino hj
        | some made =>
          have hown : (s.calls i).own = some (ms, made) := by rw [hphase]; rfl
          exact h.names_ne hji hown hj
    · cases hstep
  -- crash
  · next process =>
    cases hstep
    refine ⟨h.crash process, fun _ => rfl, nofun, fun i hi hne => ?_, nofun⟩
    rcases s.afterCrash_cases (w := w) process i with heq | heq
    · cases heq.symm.trans hi
    · exact absurd (heq.symm.trans hi) hne

theorem inv_of_reachable {start : WriteState}
    (h : (writeMachine w start).ReachableUnder (NoSharedName w) s) : s.Inv w :=
  h.invariant (fun s ⟨_, hidle, hapart⟩ => ⟨hapart, fun i => hidle i ▸ trivial,
    fun i j ms ms' ino hi => by rw [hidle i] at hi; cases hi⟩)
    fun _ _ _ h hguard hstep => (h.step hguard hstep).1

end WriteState

open WriteState in
/-- **Writes are atomic where no name is shared**: the file is what it was at the start or the data
of a call, and every step is atomic. -/
theorem atomic_write (w : WriteCalls) (start : WriteState) :
    (∀ s, (writeMachine w start).ReachableUnder (NoSharedName w) s →
      s.fileContent = start.fileContent ∨ ∃ i, s.fileContent = some (w.data i))
    ∧ ∀ s l s', (writeMachine w start).ReachableUnder (NoSharedName w) s → s.NoSharedName w l →
      (writeMachine w start).step s l = some s' → Atomic w s l s' := by
  have hatomic : ∀ s l s', (writeMachine w start).ReachableUnder (NoSharedName w) s →
      s.NoSharedName w l → (writeMachine w start).step s l = some s' → Atomic w s l s' :=
    fun s l s' hreach hguard hstep => ((inv_of_reachable hreach).step hguard hstep).2
  refine ⟨fun s hreach => ?_, hatomic⟩
  induction hreach with
  | init hinit => exact Or.inl (hinit.1 ▸ rfl)
  | @step s s' l hreach hguard hstep ih =>
    have h := hatomic s l s' hreach hguard hstep
    by_cases hl : ∃ i, l = .rename i
    · obtain ⟨i, hi⟩ := hl
      exact Or.inr ⟨i, (h.places i hi).2⟩
    · rwa [h.keeps (not_exists.mp hl)]

namespace SampleWrites

/-- Three calls of one process. -/
def calls : WriteCalls where
  pid _ := 7
  data i := [UInt8.ofNat i, 1]

def nothing : WriteState where
  file := none
  tmps _ := none
  content _ := []
  next := 0
  calls _ := .idle

theorem nothing_init : (writeMachine calls nothing).init nothing :=
  ⟨rfl, fun _ => rfl, nofun, nofun, nofun⟩

theorem atomic_write_alone : ∃ s : WriteState, s.calls 0 = .returned
    ∧ (s.fileContent = nothing.fileContent ∨ ∃ i, s.fileContent = some (calls.data i)) :=
  ⟨_, rfl, (atomic_write calls nothing).1 _ (.step (l := .rename 0) (.step (l := .sync 0)
    (.step (l := .write 0 2) (.step (l := .open 0) (.step (l := .begin 0 5) (.init nothing_init)
    trivial rfl) (fun _ _ => rfl) rfl) trivial rfl) trivial rfl) trivial rfl)⟩

/-- In one millisecond: the second call fails and removes the file of the first, the third makes it
anew, and the first renames the empty file. -/
theorem empty_file_installed : ∃ s, (writeMachine calls nothing).Reachable s
    ∧ s.calls 0 = .returned ∧ s.fileContent ≠ nothing.fileContent
    ∧ ∀ i, s.fileContent ≠ some (calls.data i) := by
  obtain ⟨s, hreach, hs⟩ := Machine.exists_reachableUnder nothing_init
    (show ((writeMachine calls nothing).runUnder (fun _ _ => True) nothing
      [.begin 0 5, .open 0, .write 0 2, .sync 0, .begin 1 5, .open 1, .remove 1 true, .begin 2 5,
        .open 2, .rename 0]).any
      (fun s => s.calls 0 = .returned ∧ s.fileContent = some []) = true by decide)
  obtain ⟨hreturned, hempty⟩ := of_decide_eq_true hs
  refine ⟨s, hreach, hreturned, ?_, fun i => ?_⟩ <;> rw [hempty] <;> nofun

end SampleWrites

end Dweb
