import OpenDweb.Lib.Machine

/-!
# OpenDweb — file locks

The lock between processes, in its four copies: `acquireFileLock` of `opendweb/src/leases.mjs`, of
`opendweb-ext-files/src/fslock.mjs` and of `opendweb-ext-sync/src/util.mjs`, and the directory
`hub.lock` of `acquireHubLock` (`opendweb/src/hub.mjs`). One step is one call of the system.

* **`lockMachine`** — any number of acquisitions in any processes, crashes, and the value that the
  lock is for.
* **`BreaksJudged`** — a stale lock is broken only as long as it is still the one that was judged.
* **`lock_mutual_exclusion`** — then one live process at a time is inside, and no update is lost.
* **`SampleLock.two_inside`** — without it, two are.
-/

namespace Dweb

open List Option

/-! ## The four copies -/

inductive LockKind where
  | leases
  | hub
  | files
  | sync
deriving DecidableEq

def STALE_LOCK_MS : Nat := 10000

/-- `LOCK_RETRIES`; in the sync plugin, the length of `backoff`. -/
def LOCK_RETRIES : Nat := 3

namespace LockKind

/-- The lock is a directory, and its holder is in the file `info.json` of it. -/
def isDir : LockKind → Bool
  | hub => true
  | _ => false

/-- The lock is there, and its holder is not looked at any more. -/
def givesUp : LockKind → Nat → Bool
  | leases, attempt => LOCK_RETRIES ≤ attempt
  | hub, attempt => 1 ≤ attempt
  | files, attempt => LOCK_RETRIES ≤ attempt
  | sync, _ => false

/-- The holder is not stale, and there is no further attempt. -/
def givesUpLive : LockKind → Nat → Bool
  | leases, _ => false
  | hub, _ => true
  | files, _ => false
  | sync, attempt => LOCK_RETRIES ≤ attempt

end LockKind

/-! ## The state -/

structure Holder where
  pid : Nat
  ts : Nat
deriving DecidableEq

/-- The file or directory at the path of the lock. Each that is made there has a number of its own,
which no process can see. -/
structure LockEntry where
  gen : Nat
  content : Option Holder

inductive LockPhase where
  | idle (attempt : Nat)
  | creating (attempt : Nat) (token : Holder)
  | created (attempt gen : Nat) (token : Holder)
  | holding (gen : Nat) (token : Holder) (snapshot : Option (List Nat))
  | releasing (gen : Nat)
  /-- `EEXIST`. -/
  | found (attempt : Nat)
  | judging (attempt : Nat) (holder : Option (Nat × Holder))
  /-- Over `STALE_LOCK_MS` old. -/
  | aged (attempt gen : Nat) (holder : Holder)
  | breaking (attempt gen : Nat)
  | over

/-- The lock that the acquisition made and has not released. -/
def LockPhase.owns : LockPhase → Option Nat
  | created _ gen _ => some gen
  | holding gen _ _ => some gen
  | releasing gen => some gen
  | _ => none

structure LockState where
  clock : Nat
  dead : Finset Nat
  entry : Option LockEntry
  nextGen : Nat
  clients : Nat → LockPhase
  /-- What the lock is for: the updates that are in the file. -/
  value : List Nat
  committed : List Nat

inductive LockLabel where
  | begin (i : Nat)
  | create (i : Nat)
  | write (i : Nat)
  | look (i : Nat)
  | age (i : Nat)
  | probe (i : Nat)
  /-- `info.json` is removed. -/
  | unlink (i : Nat)
  | remove (i : Nat)
  | load (i : Nat)
  | store (i update : Nat)
  | release (i : Nat)
  | crash (pid : Nat)
  | tick (ms : Nat)

namespace LockState

def set (s : LockState) (i : Nat) (phase : LockPhase) : LockState :=
  { s with clients := Function.update s.clients i phase }

@[simp] theorem clients_set_self (s : LockState) (i : Nat) (phase : LockPhase) :
    (s.set i phase).clients i = phase := Function.update_self ..

theorem clients_set_of_ne (s : LockState) {i j : Nat} (h : j ≠ i) (phase : LockPhase) :
    (s.set i phase).clients j = s.clients j := Function.update_of_ne h ..

def keepOff (kind : LockKind) (s : LockState) (i attempt : Nat) : LockState :=
  s.set i (if kind.givesUpLive attempt then .over else .idle (attempt + 1))

/-- The entry after a removal, and whether the removal is done: a directory has to be empty. -/
def removal (kind : LockKind) : Option LockEntry → Option LockEntry × Bool
  | some e => if kind.isDir && e.content.isSome then (some e, false) else (none, true)
  | none => (none, true)

/-- A step of the acquisition `i`, of a process that lives. -/
def act (kind : LockKind) (pid : Nat → Nat) (s : LockState) : LockLabel → Option LockState
  | .begin i =>
    match s.clients i with
    | .idle attempt => some (s.set i (.creating attempt ⟨pid i, s.clock⟩))
    | _ => none
  | .create i =>
    match s.clients i with
    | .creating attempt token =>
      match s.entry with
      | none =>
        some { s.set i (.created attempt s.nextGen token) with
          entry := some ⟨s.nextGen, none⟩
          nextGen := s.nextGen + 1 }
      | some _ => some (s.set i (if kind.givesUp attempt then .over else .found attempt))
    | _ => none
  | .write i =>
    match s.clients i with
    | .created _ gen token =>
      match s.entry with
      | none => some (s.set i (if kind.isDir then .over else .holding gen token none))
      | some e =>
        -- the file is written through its descriptor, `info.json` by its path
        if kind.isDir ∨ e.gen = gen then
          some { s.set i (.holding gen token none) with entry := some ⟨e.gen, some token⟩ }
        else some (s.set i (.holding gen token none))
    | _ => none
  | .look i =>
    match s.clients i with
    | .found attempt =>
      some (s.set i (.judging attempt (s.entry.bind fun e => e.content.map fun h => (e.gen, h))))
    | _ => none
  | .age i =>
    match s.clients i with
    | .judging attempt (some (gen, holder)) =>
      if STALE_LOCK_MS < s.clock - holder.ts then some (s.set i (.aged attempt gen holder))
      else some (s.keepOff kind i attempt)
    | .judging attempt none => some (s.keepOff kind i attempt)
    | _ => none
  | .probe i =>
    match s.clients i with
    | .aged attempt gen holder =>
      if holder.pid ∈ s.dead then some (s.set i (.breaking attempt gen))
      else some (s.keepOff kind i attempt)
    | _ => none
  | .unlink i =>
    if kind.isDir then
      match s.clients i with
      | .breaking _ _ => some { s with entry := s.entry.map fun e => ⟨e.gen, none⟩ }
      | .releasing _ => some { s with entry := s.entry.map fun e => ⟨e.gen, none⟩ }
      | _ => none
    else none
  | .remove i =>
    let (entry, done) := removal kind s.entry
    match s.clients i with
    | .breaking attempt gen =>
      some { s.set i (if done then .idle (attempt + 1) else .breaking attempt gen) with entry }
    | .releasing gen => some { s.set i (if done then .over else .releasing gen) with entry }
    | _ => none
  | .load i =>
    match s.clients i with
    | .holding gen token _ => some (s.set i (.holding gen token (some s.value)))
    | _ => none
  | .store i update =>
    match s.clients i with
    | .holding gen token (some snapshot) =>
      some { s.set i (.holding gen token none) with
        value := snapshot ++ [update]
        committed := s.committed ++ [update] }
    | _ => none
  | .release i =>
    match s.clients i with
    | .holding gen token _ =>
      -- the hub does not compare
      if kind.isDir ∨ s.entry.bind LockEntry.content = some token then
        some (s.set i (.releasing gen))
      else some (s.set i .over)
    | _ => none
  | .crash _ => none
  | .tick _ => none

end LockState

def LockLabel.client : LockLabel → Option Nat
  | begin i => some i
  | create i => some i
  | write i => some i
  | look i => some i
  | age i => some i
  | probe i => some i
  | unlink i => some i
  | remove i => some i
  | load i => some i
  | store i _ => some i
  | release i => some i
  | crash _ => none
  | tick _ => none

def LockState.step (kind : LockKind) (pid : Nat → Nat) (s : LockState) (l : LockLabel) :
    Option LockState :=
  match l with
  | .crash p => some { s with dead := insert p s.dead }
  | .tick ms => some { s with clock := s.clock + ms }
  | l =>
    match l.client with
    | some i => if pid i ∈ s.dead then none else s.act kind pid l
    | none => none

/-- Acquisition `i` is of the process `pid i`. -/
def lockMachine (kind : LockKind) (pid : Nat → Nat) : Machine LockState LockLabel where
  init s := s.entry = none ∧ s.committed = [] ∧ ∀ i, s.clients i = .idle 0
  step := LockState.step kind pid

/-- The process lives, and is between its acquisition and the end of its release. -/
def LockState.Inside (pid : Nat → Nat) (s : LockState) (i : Nat) : Prop :=
  pid i ∉ s.dead ∧ ((∃ gen token snapshot, s.clients i = .holding gen token snapshot)
    ∨ ∃ gen, s.clients i = .releasing gen)

/-- The lock that the acquisition is about to break is still the one it judged. -/
def LockState.StillJudged (s : LockState) (i : Nat) : Prop :=
  match s.clients i with
  | .breaking _ gen => ∀ e ∈ s.entry, e.gen = gen
  | _ => True

instance (s : LockState) (i : Nat) : Decidable (s.StillJudged i) := by
  unfold LockState.StillJudged
  split <;> infer_instance

/-- A lock that is broken is still the lock whose holder was found dead. -/
def BreaksJudged (s : LockState) : LockLabel → Prop
  | .unlink i => s.StillJudged i
  | .remove i => s.StillJudged i
  | _ => True

instance (s : LockState) (l : LockLabel) : Decidable (BreaksJudged s l) := by
  cases l <;> unfold BreaksJudged <;> infer_instance

/-! ## The invariant -/

section

variable {kind : LockKind} {pid : Nat → Nat} {s s' : LockState}

/-- What an acquisition knows: its own token and lock, the holder of the lock that it judges, and,
as long as it lives, the value that it has read. -/
def LockPhase.Fine (pid : Nat → Nat) (s : LockState) (i : Nat) : LockPhase → Prop
  | creating _ token => token.pid = pid i
  | created _ gen token => gen < s.nextGen ∧ token.pid = pid i
  | holding gen token snapshot =>
    gen < s.nextGen ∧ token.pid = pid i ∧ (pid i ∉ s.dead → ∀ value ∈ snapshot, value = s.value)
  | releasing gen => gen < s.nextGen
  | judging _ (some (gen, holder)) =>
    gen < s.nextGen ∧ ∀ j, (s.clients j).owns = some gen → pid j = holder.pid
  | aged _ gen holder =>
    gen < s.nextGen ∧ ∀ j, (s.clients j).owns = some gen → pid j = holder.pid
  | breaking _ gen => gen < s.nextGen ∧ ∀ j, (s.clients j).owns = some gen → pid j ∈ s.dead
  | _ => True

def LockEntry.Fine (pid : Nat → Nat) (s : LockState) (e : LockEntry) : Prop :=
  e.gen < s.nextGen
    ∧ ∀ holder ∈ e.content, ∀ j, (s.clients j).owns = some e.gen → pid j = holder.pid

structure Locked (pid : Nat → Nat) (s : LockState) : Prop where
  phases : ∀ i, (s.clients i).Fine pid s i
  unique : ∀ i j gen, (s.clients i).owns = some gen → (s.clients j).owns = some gen → i = j
  live : ∀ i gen, (s.clients i).owns = some gen → pid i ∉ s.dead → ∃ e ∈ s.entry, e.gen = gen
  entry : ∀ e ∈ s.entry, e.Fine pid s
  kept : ∀ update ∈ s.committed, update ∈ s.value

variable {phase : LockPhase} {i j gen : Nat}

theorem LockPhase.Fine.mono (h : phase.Fine pid s i) (hgen : s.nextGen ≤ s'.nextGen)
    (howns : ∀ j gen, (s'.clients j).owns = some gen → gen < s.nextGen → (s.clients j).owns = some gen)
    (hdead : s.dead ⊆ s'.dead)
    (hvalue : (∃ gen, phase.owns = some gen) → pid i ∉ s'.dead → s'.value = s.value) :
    phase.Fine pid s' i := by
  cases phase with
  | created attempt gen token => exact ⟨h.1.trans_le hgen, h.2⟩
  | holding gen token snapshot =>
    refine ⟨h.1.trans_le hgen, h.2.1, fun hlive value hmem => ?_⟩
    rw [hvalue ⟨gen, rfl⟩ hlive]
    exact h.2.2 (fun hmem => hlive (hdead hmem)) value hmem
  | releasing gen => exact Nat.lt_of_lt_of_le h hgen
  | judging attempt judged =>
    cases judged with
    | none => trivial
    | some judged => exact ⟨h.1.trans_le hgen, fun j hj => h.2 j (howns j _ hj h.1)⟩
  | aged attempt gen holder => exact ⟨h.1.trans_le hgen, fun j hj => h.2 j (howns j _ hj h.1)⟩
  | breaking attempt gen =>
    exact ⟨h.1.trans_le hgen, fun j hj => hdead (h.2 j (howns j _ hj h.1))⟩
  | creating attempt token => exact h
  | _ => trivial

theorem LockEntry.Fine.mono {e : LockEntry} (h : e.Fine pid s) (hgen : s.nextGen ≤ s'.nextGen)
    (howns : ∀ j gen, (s'.clients j).owns = some gen → gen < s.nextGen →
      (s.clients j).owns = some gen) : e.Fine pid s' :=
  ⟨h.1.trans_le hgen, fun holder hholder j hj => h.2 holder hholder j (howns j _ hj h.1)⟩

theorem Locked.alone (h : Locked pid s) {gen' : Nat} (hi : (s.clients i).owns = some gen)
    (hj : (s.clients j).owns = some gen') (hilive : pid i ∉ s.dead) (hjlive : pid j ∉ s.dead) :
    i = j := by
  obtain ⟨e, he, hegen⟩ := h.live i gen hi hilive
  obtain ⟨e', he', hegen'⟩ := h.live j gen' hj hjlive
  have hsame : e = e' := mem_unique he he'
  refine h.unique i j gen hi ?_
  rw [hj, ← hegen, ← hegen', hsame]

theorem owns_set (howns : ∀ gen, phase.owns = some gen → (s.clients i).owns = some gen)
    (h : ((s.set i phase).clients j).owns = some gen) : (s.clients j).owns = some gen := by
  by_cases hji : j = i
  · rw [hji, LockState.clients_set_self] at h
    rw [hji]
    exact howns gen h
  · rwa [LockState.clients_set_of_ne s hji] at h

theorem Locked.set (h : Locked pid s)
    (howns : ∀ gen, phase.owns = some gen → (s.clients i).owns = some gen)
    (hfine : phase.Fine pid s i) : Locked pid (s.set i phase) where
  phases j := by
    have hmono : ∀ {phase' : LockPhase}, phase'.Fine pid s j → phase'.Fine pid (s.set i phase) j :=
      fun hphase => hphase.mono le_rfl (fun _ _ hj _ => owns_set howns hj) (Finset.Subset.refl _)
        (fun _ _ => rfl)
    by_cases hji : j = i
    · subst hji
      rw [LockState.clients_set_self]
      exact hmono hfine
    · rw [LockState.clients_set_of_ne s hji]
      exact hmono (h.phases j)
  unique j k gen hj hk := h.unique j k gen (owns_set howns hj) (owns_set howns hk)
  live j gen hj := h.live j gen (owns_set howns hj)
  entry e he := (h.entry e he).mono le_rfl fun _ _ hj _ => owns_set howns hj
  kept := h.kept

theorem Locked.setEntry (h : Locked pid s) {entry : Option LockEntry}
    (hlive : ∀ i gen, (s.clients i).owns = some gen → pid i ∉ s.dead → ∃ e ∈ entry, e.gen = gen)
    (hentry : ∀ e ∈ entry, e.Fine pid s) : Locked pid { s with entry } where
  phases := h.phases
  unique := h.unique
  live := hlive
  entry := hentry
  kept := h.kept

theorem Locked.create (h : Locked pid s) {attempt : Nat} {token : Holder}
    (hphase : s.clients i = .creating attempt token) (hnone : s.entry = none) :
    Locked pid { s.set i (.created attempt s.nextGen token) with
      entry := some ⟨s.nextGen, none⟩
      nextGen := s.nextGen + 1 } := by
  have htoken : token.pid = pid i := by
    have hfine := h.phases i
    rw [hphase] at hfine
    exact hfine
  -- who owns a lock now owns one of before, or is the one that made it
  have howned : ∀ j gen, ((s.set i (.created attempt s.nextGen token)).clients j).owns = some gen →
      j = i ∧ gen = s.nextGen ∨ j ≠ i ∧ (s.clients j).owns = some gen := by
    intro j gen hj
    by_cases hji : j = i
    · rw [hji, LockState.clients_set_self] at hj
      exact Or.inl ⟨hji, (some.inj hj).symm⟩
    · rw [LockState.clients_set_of_ne s hji] at hj
      exact Or.inr ⟨hji, hj⟩
  have hless : ∀ j gen, (s.clients j).owns = some gen → gen < s.nextGen := by
    intro j gen hj
    have hfine := h.phases j
    cases hclient : s.clients j with
    | created attempt gen' token' =>
      rw [hclient] at hfine hj
      exact some.inj hj ▸ hfine.1
    | holding gen' token' snapshot =>
      rw [hclient] at hfine hj
      exact some.inj hj ▸ hfine.1
    | releasing gen' =>
      rw [hclient] at hfine hj
      exact some.inj hj ▸ hfine
    | _ =>
      rw [hclient] at hj
      cases hj
  have hold : ∀ j gen, ((s.set i (.created attempt s.nextGen token)).clients j).owns = some gen →
      gen < s.nextGen → (s.clients j).owns = some gen := by
    intro j gen hj hlt
    obtain ⟨-, rfl⟩ | ⟨-, hbefore⟩ := howned j gen hj
    · exact absurd hlt (Nat.lt_irrefl _)
    · exact hbefore
  constructor
  · intro j
    by_cases hji : j = i
    · subst hji
      show (Function.update s.clients j _ j).Fine _ _ _
      rw [Function.update_self]
      exact ⟨Nat.lt_succ_self _, htoken⟩
    · show (Function.update s.clients i _ j).Fine _ _ _
      rw [Function.update_of_ne hji]
      exact (h.phases j).mono (Nat.le_succ _) hold (Finset.Subset.refl _) fun _ _ => rfl
  · intro j k gen hj hk
    obtain ⟨rfl, rfl⟩ | ⟨-, hj'⟩ := howned j gen hj
    · obtain ⟨rfl, -⟩ | ⟨-, hk'⟩ := howned k _ hk
      · rfl
      · exact absurd (hless k _ hk') (Nat.lt_irrefl _)
    · obtain ⟨rfl, rfl⟩ | ⟨-, hk'⟩ := howned k gen hk
      · exact absurd (hless j _ hj') (Nat.lt_irrefl _)
      · exact h.unique j k gen hj' hk'
  · intro j gen hj hlive
    obtain ⟨-, rfl⟩ | ⟨-, hj'⟩ := howned j gen hj
    · exact ⟨_, rfl, rfl⟩
    · obtain ⟨e, he, -⟩ := h.live j gen hj' hlive
      rw [hnone] at he
      cases he
  · rintro e ⟨⟩
    exact ⟨Nat.lt_succ_self _, nofun⟩
  · exact h.kept

theorem Locked.store (h : Locked pid s) {update : Nat} {token : Holder} {snapshot : List Nat}
    (hlive : pid i ∉ s.dead) (hphase : s.clients i = .holding gen token (some snapshot)) :
    Locked pid { s.set i (.holding gen token none) with
      value := snapshot ++ [update]
      committed := s.committed ++ [update] } := by
  have hfine := h.phases i
  rw [hphase] at hfine
  have howns : ∀ gen', (LockPhase.holding gen token none).owns = some gen' →
      (s.clients i).owns = some gen' := by
    intro gen' hgen
    rw [hphase]
    exact hgen
  have hset : Locked pid (s.set i (.holding gen token none)) := h.set howns ⟨hfine.1, hfine.2.1, nofun⟩
  refine ⟨fun j => ?_, hset.unique, hset.live, hset.entry, fun x hx => ?_⟩
  · by_cases hji : j = i
    · subst hji
      show (Function.update s.clients j _ j).Fine _ _ _
      rw [Function.update_self]
      exact ⟨hfine.1, hfine.2.1, nofun⟩
    · -- the others have no lock, or are dead
      refine (hset.phases j).mono le_rfl (fun _ _ hj _ => hj) (Finset.Subset.refl _) ?_
      rintro ⟨gen', hgen'⟩ hjlive
      have hgen : (s.clients i).owns = some gen := by
        rw [hphase]
        rfl
      exact absurd (h.alone (owns_set howns hgen') hgen hjlive hlive) hji
  · have hvalue : snapshot = s.value := hfine.2.2 hlive snapshot rfl
    show x ∈ snapshot ++ [update]
    rw [hvalue]
    obtain hx | hx := mem_append.mp hx
    · exact mem_append_left _ (h.kept x hx)
    · exact mem_append_right _ hx

theorem Locked.drop (h : Locked pid s) (hnone : phase.owns = none) (hfine : phase.Fine pid s i) :
    Locked pid (s.set i phase) :=
  h.set (fun _ hgen => absurd (hnone.symm.trans hgen) nofun) hfine

theorem Locked.keepOff (h : Locked pid s) (i attempt : Nat) :
    Locked pid (s.keepOff kind i attempt) := by
  unfold LockState.keepOff
  split
  · exact h.drop rfl trivial
  · exact h.drop rfl trivial

theorem Locked.break (h : Locked pid s) {attempt : Nat}
    (hphase : s.clients i = .breaking attempt gen) (hjudged : ∀ e ∈ s.entry, e.gen = gen)
    {gen' : Nat} (hj : (s.clients j).owns = some gen') : pid j ∈ s.dead := by
  by_contra hlive
  obtain ⟨e, he, hegen⟩ := h.live j gen' hj hlive
  have hfine := h.phases i
  rw [hphase] at hfine
  refine hlive (hfine.2 j ?_)
  rw [hj, ← hegen, hjudged e he]

theorem Locked.unlinked (h : Locked pid s) :
    Locked pid { s with entry := s.entry.map fun e => ⟨e.gen, none⟩ } := by
  refine h.setEntry (fun j gen hj hlive => ?_) fun e he => ?_
  · obtain ⟨e, he, hegen⟩ := h.live j gen hj hlive
    exact ⟨⟨e.gen, none⟩, Option.mem_map.mpr ⟨e, he, rfl⟩, hegen⟩
  · obtain ⟨e', he', rfl⟩ := Option.mem_map.mp he
    exact ⟨(h.entry e' he').1, nofun⟩

theorem removal_cases (kind : LockKind) (entry : Option LockEntry) :
    (LockState.removal kind entry).1 = none ∧ (LockState.removal kind entry).2 = true
      ∨ (LockState.removal kind entry).1 = entry ∧ (LockState.removal kind entry).2 = false := by
  cases entry with
  | none => exact Or.inl ⟨rfl, rfl⟩
  | some e =>
    unfold LockState.removal
    dsimp only
    split
    · exact Or.inr ⟨rfl, rfl⟩
    · exact Or.inl ⟨rfl, rfl⟩

attribute [local simp] LockState.act

theorem Locked.remove (h : Locked pid s) (hlive : pid i ∉ s.dead)
    (hguard : BreaksJudged s (.remove i)) (hstep : s.act kind pid (.remove i) = some s') :
    Locked pid s' := by
  simp only [LockState.act] at hstep
  obtain ⟨hentry, hdone⟩ | ⟨hentry, hdone⟩ := removal_cases kind s.entry
  · rw [hentry, hdone] at hstep
    simp only [if_true] at hstep
    split at hstep
    · next attempt gen hphase =>
      cases hstep
      have hjudged : ∀ e ∈ s.entry, e.gen = gen := by
        have hstill : s.StillJudged i := hguard
        rwa [LockState.StillJudged, hphase] at hstill
      have hdead : ∀ {j gen'}, (s.clients j).owns = some gen' → pid j ∈ s.dead :=
        fun hj => h.break hphase hjudged hj
      have hset : Locked pid (s.set i (.idle (attempt + 1))) := h.drop rfl trivial
      refine hset.setEntry (fun j gen' hj hjlive => ?_) nofun
      exact absurd (hdead (owns_set (fun _ hidle => by cases hidle) hj)) hjlive
    · next gen hphase =>
      cases hstep
      have hset : Locked pid (s.set i .over) := h.drop rfl trivial
      refine hset.setEntry (fun j gen' hj hjlive => ?_) nofun
      -- the lock was this one's, and it is the only one inside
      have hjowns : (s.clients j).owns = some gen' :=
        owns_set (fun _ hover => by cases hover) hj
      have hiowns : (s.clients i).owns = some gen := by
        rw [hphase]
        rfl
      obtain rfl : j = i := h.alone hjowns hiowns hjlive hlive
      rw [LockState.clients_set_self] at hj
      cases hj
    · cases hstep
  · rw [hentry, hdone] at hstep
    simp only [Bool.false_eq_true, if_false] at hstep
    split at hstep
    · next attempt gen hphase =>
      cases hstep
      have hfine := h.phases i
      rw [hphase] at hfine
      exact h.drop rfl hfine
    · next gen hphase =>
      cases hstep
      have hfine := h.phases i
      rw [hphase] at hfine
      refine h.set (fun gen' hgen' => ?_) hfine
      rw [hphase]
      exact hgen'
    · cases hstep

theorem Locked.write (h : Locked pid s) (hlive : pid i ∉ s.dead)
    (hstep : s.act kind pid (.write i) = some s') : Locked pid s' := by
  simp only [LockState.act] at hstep
  split at hstep
  · next attempt gen token hphase =>
    have hfine := h.phases i
    rw [hphase] at hfine
    have hiowns : (s.clients i).owns = some gen := by
      rw [hphase]
      rfl
    obtain ⟨e, he, hegen⟩ := h.live i gen hiowns hlive
    rw [mem_def.mp he] at hstep
    dsimp only at hstep
    rw [if_pos (Or.inr hegen)] at hstep
    cases hstep
    have hset : Locked pid (s.set i (.holding gen token none)) := by
      refine h.set (fun gen' hgen' => ?_) ⟨hfine.1, hfine.2, nofun⟩
      rw [hphase]
      exact hgen'
    refine hset.setEntry (fun j gen' hj hjlive => ?_) ?_
    · obtain ⟨e', he', hegen'⟩ := hset.live j gen' hj hjlive
      rw [mem_unique he' he] at hegen'
      exact ⟨_, rfl, hegen'⟩
    · rintro e' ⟨⟩
      refine ⟨(h.entry e he).1, ?_⟩
      rintro holder ⟨⟩ j hj
      -- whoever owns this lock is the one that wrote
      have hown : ((s.set i (.holding gen token none)).clients i).owns = some e.gen := by
        rw [LockState.clients_set_self, hegen]
        rfl
      rw [hset.unique j i e.gen hj hown, hfine.2]
  · cases hstep

/-- **The step of an acquisition.** -/
theorem Locked.act (h : Locked pid s) {l : LockLabel}
    (hlive : ∀ i, l.client = some i → pid i ∉ s.dead) (hguard : BreaksJudged s l)
    (hstep : s.act kind pid l = some s') : Locked pid s' := by
  cases l with
  | begin i =>
    simp only [LockState.act] at hstep
    split at hstep
    · cases hstep
      exact h.drop rfl rfl
    · cases hstep
  | create i =>
    simp only [LockState.act] at hstep
    split at hstep
    · next attempt token hphase =>
      split at hstep
      · next hnone =>
        cases hstep
        exact h.create hphase hnone
      · cases hstep
        split
        · exact h.drop rfl trivial
        · exact h.drop rfl trivial
    · cases hstep
  | write i => exact h.write (hlive i rfl) hstep
  | look i =>
    simp only [LockState.act] at hstep
    split at hstep
    · cases hstep
      refine h.drop rfl ?_
      cases hentry : s.entry with
      | none => trivial
      | some e =>
        cases hcontent : e.content with
        | none =>
          simp only [bind_some, hcontent, map_none]
          trivial
        | some holder =>
          simp only [bind_some, hcontent, map_some]
          obtain ⟨hgen, hholder⟩ := h.entry e hentry
          exact ⟨hgen, hholder holder hcontent⟩
    · cases hstep
  | age i =>
    simp only [LockState.act] at hstep
    split at hstep
    · next attempt gen holder hphase =>
      have hfine := h.phases i
      rw [hphase] at hfine
      split at hstep
      · cases hstep
        exact h.drop rfl hfine
      · cases hstep
        exact h.keepOff i attempt
    · cases hstep
      exact h.keepOff i _
    · cases hstep
  | probe i =>
    simp only [LockState.act] at hstep
    split at hstep
    · next attempt gen holder hphase =>
      have hfine := h.phases i
      rw [hphase] at hfine
      split at hstep
      · next hdead =>
        cases hstep
        refine h.drop rfl ⟨hfine.1, fun j hj => ?_⟩
        rw [hfine.2 j hj]
        exact hdead
      · cases hstep
        exact h.keepOff i attempt
    · cases hstep
  | unlink i =>
    simp only [LockState.act] at hstep
    split at hstep
    · split at hstep
      · cases hstep
        exact h.unlinked
      · cases hstep
        exact h.unlinked
      · cases hstep
    · cases hstep
  | remove i => exact h.remove (hlive i rfl) hguard hstep
  | load i =>
    simp only [LockState.act] at hstep
    split at hstep
    · next gen token snapshot hphase =>
      cases hstep
      have hfine := h.phases i
      rw [hphase] at hfine
      refine h.set (fun gen' hgen' => ?_) ⟨hfine.1, hfine.2.1, ?_⟩
      · rw [hphase]
        exact hgen'
      · rintro - value ⟨⟩
        rfl
    · cases hstep
  | store i update =>
    simp only [LockState.act] at hstep
    split at hstep
    · next gen token snapshot hphase =>
      cases hstep
      exact h.store (hlive i rfl) hphase
    · cases hstep
  | release i =>
    simp only [LockState.act] at hstep
    split at hstep
    · next gen token snapshot hphase =>
      have hfine := h.phases i
      rw [hphase] at hfine
      split at hstep
      · cases hstep
        refine h.set (fun gen' hgen' => ?_) hfine.1
        rw [hphase]
        exact hgen'
      · cases hstep
        exact h.drop rfl trivial
    · cases hstep
  | crash p => cases hstep
  | tick ms => cases hstep

theorem Locked.step (h : Locked pid s) {l : LockLabel} (hguard : BreaksJudged s l)
    (hstep : s.step kind pid l = some s') : Locked pid s' := by
  unfold LockState.step at hstep
  split at hstep
  · next p =>
    cases hstep
    have hsub : s.dead ⊆ insert p s.dead := Finset.subset_insert p s.dead
    refine ⟨fun i => ?_, h.unique, fun i gen hi hlive => ?_, h.entry, h.kept⟩
    · exact (h.phases i).mono le_rfl (fun _ _ hj _ => hj) hsub fun _ _ => rfl
    · exact h.live i gen hi fun hdead => hlive (hsub hdead)
  · cases hstep
    refine ⟨fun i => ?_, h.unique, h.live, h.entry, h.kept⟩
    exact (h.phases i).mono le_rfl (fun _ _ hj _ => hj) (Finset.Subset.refl _) fun _ _ => rfl
  · split at hstep
    · next i hclient =>
      split at hstep
      · cases hstep
      · next hlive =>
        refine h.act (fun j hj => ?_) hguard hstep
        rw [hclient, some.injEq] at hj
        exact hj ▸ hlive
    · cases hstep

theorem Locked.init (hinit : (lockMachine kind pid).init s) : Locked pid s := by
  obtain ⟨hnone, hcommitted, hidle⟩ := hinit
  have howns : ∀ {i gen}, (s.clients i).owns = some gen → False := by
    intro i gen hi
    rw [hidle i] at hi
    cases hi
  refine ⟨fun i => ?_, fun i j gen hi => (howns hi).elim, fun i gen hi => (howns hi).elim, ?_, ?_⟩
  · rw [hidle i]
    trivial
  · rw [hnone]
    exact fun e he => absurd he (not_mem_none e)
  · rw [hcommitted]
    exact fun x hx => absurd hx not_mem_nil

/-- **Mutual exclusion.** In every run of each of the four locks, with any number of processes, in
which a stale lock is broken only while it is the one that was judged: at most one live process is
between its acquisition and its release, and every update that was written under the lock is still
there. -/
theorem lock_mutual_exclusion (hreach : (lockMachine kind pid).ReachableUnder BreaksJudged s) :
    (∀ i j, s.Inside pid i → s.Inside pid j → i = j) ∧ ∀ update ∈ s.committed, update ∈ s.value := by
  have hlocked : Locked pid s :=
    hreach.invariant (fun _ hinit => Locked.init hinit) fun _ _ _ h hguard hstep => h.step hguard hstep
  refine ⟨fun i j hi hj => ?_, hlocked.kept⟩
  have howns : ∀ {i}, s.Inside pid i → ∃ gen, (s.clients i).owns = some gen := by
    rintro i ⟨-, ⟨gen, token, snapshot, hphase⟩ | ⟨gen, hphase⟩⟩
    · exact ⟨gen, by rw [hphase]; rfl⟩
    · exact ⟨gen, by rw [hphase]; rfl⟩
  obtain ⟨gen, hgen⟩ := howns hi
  obtain ⟨gen', hgen'⟩ := howns hj
  exact hlocked.alone hgen hgen' hi.1 hj.1

end

/-! ### Runs -/

namespace SampleLock

def acquires (i : Nat) : List LockLabel := [.begin i, .create i, .write i]

def judges (i : Nat) : List LockLabel := [.begin i, .create i, .look i, .age i, .probe i]

def breaks (kind : LockKind) (i : Nat) : List LockLabel :=
  if kind.isDir then [.unlink i, .remove i] else [.remove i]

def start : LockState := ⟨0, ∅, none, 0, fun _ => .idle 0, [], []⟩

theorem start_init (kind : LockKind) : (lockMachine kind id).init start := ⟨rfl, rfl, fun _ => rfl⟩

def isHolding : LockPhase → Bool
  | .holding _ _ _ => true
  | _ => false

theorem inside_of_isHolding {s : LockState} {i : Nat} (hlive : i ∉ s.dead)
    (h : isHolding (s.clients i) = true) : s.Inside id i := by
  refine ⟨hlive, Or.inl ?_⟩
  cases hphase : s.clients i with
  | holding gen token snapshot => exact ⟨gen, token, snapshot, rfl⟩
  | _ =>
    rw [hphase] at h
    cases h

def succession : List LockLabel :=
  acquires 1 ++ [.crash 1, .tick 10001] ++ judges 2 ++ breaks .hub 2 ++ acquires 2
    ++ [.load 2, .store 2 20]

theorem succession_exclusive :
    ∃ s, (lockMachine .hub id).ReachableUnder BreaksJudged s ∧ s.Inside id 2
      ∧ s.committed = [20] ∧ (∀ j, s.Inside id j → j = 2) ∧ 20 ∈ s.value := by
  have hrun : ((lockMachine .hub id).runUnder BreaksJudged start succession).any (fun s =>
      isHolding (s.clients 2) && decide (2 ∉ s.dead) && decide (s.committed = [20])) = true := by
    decide
  obtain ⟨s, hreach, hend⟩ := Machine.exists_reachableUnder (start_init .hub) hrun
  simp only [Bool.and_eq_true, decide_eq_true_eq] at hend
  obtain ⟨⟨hholding, hlive⟩, hcommitted⟩ := hend
  have hinside := inside_of_isHolding hlive hholding
  obtain ⟨halone, hkept⟩ := lock_mutual_exclusion hreach
  refine ⟨s, hreach, hinside, hcommitted, fun j hj => halone j 2 hj hinside, hkept 20 ?_⟩
  rw [hcommitted]
  exact mem_singleton_self 20

/-- The holder 1 dies. Both 2 and 3 find it dead; 2 breaks its lock and makes a new one, and this
one is what 3 breaks. -/
def race (kind : LockKind) : List LockLabel :=
  acquires 1 ++ [.crash 1, .tick 10001] ++ judges 2 ++ judges 3 ++ breaks kind 2 ++ acquires 2
    ++ [.load 2] ++ breaks kind 3 ++ acquires 3 ++ [.load 3, .store 2 20, .store 3 30]

def TwoInside (kind : LockKind) : Prop :=
  ∃ s, (lockMachine kind id).Reachable s ∧ s.Inside id 2 ∧ s.Inside id 3
    ∧ 20 ∈ s.committed ∧ 20 ∉ s.value

theorem twoInside_of_race {kind : LockKind}
    (h : ((lockMachine kind id).run start (race kind)).any (fun s =>
      isHolding (s.clients 2) && isHolding (s.clients 3) && decide (2 ∉ s.dead)
        && decide (3 ∉ s.dead) && decide (20 ∈ s.committed) && decide (20 ∉ s.value)) = true) :
    TwoInside kind := by
  obtain ⟨s, hrun, hend⟩ := (Option.any_eq_true _ _).mp h
  simp only [Bool.and_eq_true, decide_eq_true_eq] at hend
  obtain ⟨⟨⟨⟨⟨htwo, hthree⟩, hlive⟩, hlive'⟩, hcommitted⟩, hlost⟩ := hend
  exact ⟨s, Machine.reachable_of_run (start_init kind) hrun, inside_of_isHolding hlive htwo,
    inside_of_isHolding hlive' hthree, hcommitted, hlost⟩

theorem two_inside :
    TwoInside .leases ∧ TwoInside .hub ∧ TwoInside .files ∧ TwoInside .sync :=
  ⟨twoInside_of_race (by decide), twoInside_of_race (by decide),
    twoInside_of_race (by decide), twoInside_of_race (by decide)⟩

end SampleLock

end Dweb
