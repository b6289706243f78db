import OpenDweb.Ext.FileLock

/-!
# OpenDweb — the locks of the ledgers, and what is left of them

`upsertLease`, `recordVisit` and `migrateLegacyRegistration` of `opendweb/src/leases.mjs`, each
under the lock of `acquireFileLock`, with the ways in which they fail. One step is what is done up
to the next `await`.

* **`ledgerRuns`** — any number of calls in any processes for one lock file, and crashes.
* **`LedgerTask.Released`** — the ends of a call that are to leave no lock behind.
* **`ledger_locks`** — they leave none; a lock whose process is dead is taken over by one call, once
  it is stale; a lock file without a holder in it is taken for one that is held.
* **`SampleLedger.lock_left`** — a call that throws, and a crash, leave one.
-/

namespace Dweb

open List Option

/-! ## The calls -/

inductive LedgerOp where
  | upsertLease
  | recordVisit
  | migrateLegacyRegistration
deriving DecidableEq

inductive LedgerStep where
  /-- `loadLeases`, `loadVisits`: a damaged or unreadable file throws. -/
  | load
  /-- The entry; `now` and `random` may throw. -/
  | merge
  | save
  | recheck
  | rename
deriving DecidableEq

namespace LedgerOp

def body : LedgerOp → List LedgerStep
  | upsertLease => [.load, .merge, .save]
  | recordVisit => [.load, .merge, .save]
  | migrateLegacyRegistration => [.recheck, .save, .rename]

/-- The body stands in a `try` whose `finally` releases the lock. -/
def hasFinally : LedgerOp → Bool
  | migrateLegacyRegistration => true
  | _ => false

end LedgerOp

inductive LedgerResult where
  | returned
  /-- `ok: false`: the call throws that the lock is held. -/
  | refused
  | thrown
  /-- The content of the lock file could not be written. -/
  | torn
deriving DecidableEq

inductive LedgerStage where
  | acquiring (attempt : Nat)
  /-- `EEXIST`. -/
  | found (attempt : Nat)
  /-- `EEXIST`, and no further attempt. -/
  | exhausted
  | breaking (attempt : Nat)
  | created
  | holding (rest : List LedgerStep)
  | releasing (result : LedgerResult)
  | removing (result : LedgerResult)
  | ended (result : LedgerResult)
deriving DecidableEq

/-- A call, the process that makes it, and the lock file that it has made, by its number, with what
it writes into it. -/
structure LedgerTask where
  op : LedgerOp
  pid : Nat
  made : Option (Nat × Holder)
  stage : LedgerStage
deriving DecidableEq

/-- The lock file; nothing can be read from it before it is written, or if it is damaged. -/
structure LockFile where
  gen : Nat
  content : Option Holder
deriving DecidableEq

structure LedgerState where
  clock : Nat
  dead : List Nat
  lock : Option LockFile
  nextGen : Nat
  tasks : List LedgerTask

inductive LedgerOutcome where
  | ok
  | throws
  /-- `migrateLegacyRegistration` finds the ledger there. -/
  | early
deriving DecidableEq

inductive LedgerLabel where
  | call (op : LedgerOp) (pid : Nat)
  | advance (i : Nat) (outcome : LedgerOutcome)
  | crash (pid : Nat)
  | tick (ms : Nat)
deriving DecidableEq

namespace LedgerState

def put (s : LedgerState) (i : Nat) (task : LedgerTask) (stage : LedgerStage) : LedgerState :=
  { s with tasks := s.tasks.set i { task with stage } }

/-- The judgement of `acquireFileLock`: over `STALE_LOCK_MS` old, and of a dead process. -/
def canBreak (s : LedgerState) : Bool :=
  match s.lock.bind LockFile.content with
  | some holder => STALE_LOCK_MS < s.clock - holder.ts && holder.pid ∈ s.dead
  | none => false

def advance (s : LedgerState) (i : Nat) (task : LedgerTask) :
    LedgerStage → LedgerOutcome → Option LedgerState
  | .acquiring attempt, .ok =>
    match s.lock with
    | none =>
      let token : Holder := ⟨task.pid, s.clock⟩
      some { s with
        lock := some ⟨s.nextGen, none⟩
        nextGen := s.nextGen + 1
        tasks := s.tasks.set i { task with made := some (s.nextGen, token), stage := .created } }
    | some _ => some (s.put i task (if LOCK_RETRIES ≤ attempt then .exhausted else .found attempt))
  -- `now` throws
  | .acquiring _, .throws => some (s.put i task (.ended .thrown))
  | .found attempt, .ok =>
    some (s.put i task (if s.canBreak then .breaking attempt else .acquiring (attempt + 1)))
  -- `now` or `isPidAlive` throws
  | .found _, .throws => some (s.put i task (.ended .thrown))
  | .exhausted, .ok => some (s.put i task (.ended .refused))
  | .breaking attempt, .ok =>
    some { s.put i task (.acquiring (attempt + 1)) with lock := none }
  | .created, .ok =>
    match task.made with
    | some (gen, token) =>
      some { s.put i task (.holding task.op.body) with
        -- the file is written through its descriptor
        lock := s.lock.map fun l => if l.gen = gen then ⟨gen, some token⟩ else l }
    | none => none
  | .created, .throws => some (s.put i task (.ended .torn))
  | .holding [], .ok => some (s.put i task (.releasing .returned))
  | .holding (.recheck :: _), .early => some (s.put i task (.releasing .returned))
  | .holding (.recheck :: rest), .ok => some (s.put i task (.holding rest))
  | .holding (_ :: rest), .ok => some (s.put i task (.holding rest))
  | .holding (step :: _), .throws =>
    if step = .recheck then none
    else some (s.put i task (if task.op.hasFinally then .releasing .thrown else .ended .thrown))
  | .releasing result, .ok =>
    if s.lock.bind LockFile.content = task.made.map Prod.snd then
      some (s.put i task (.removing result))
    else some (s.put i task (.ended result))
  | .removing result, .ok => some { s.put i task (.ended result) with lock := none }
  | _, _ => none

def step (s : LedgerState) : LedgerLabel → Option LedgerState
  | .call op pid =>
    if pid ∈ s.dead then none
    else some { s with tasks := s.tasks ++ [⟨op, pid, none, .acquiring 0⟩] }
  | .advance i outcome =>
    match s.tasks[i]? with
    | some task => if task.pid ∈ s.dead then none else s.advance i task task.stage outcome
    | none => none
  | .crash pid => some { s with dead := pid :: s.dead }
  | .tick ms => some { s with clock := s.clock + ms }

end LedgerState

/-- The ends that are to leave no lock behind: a return, and, where there is a `finally`, a throw
under the lock. -/
def LedgerTask.Released (task : LedgerTask) : Prop :=
  task.stage = .ended .returned ∨ task.stage = .ended .thrown ∧ task.op.hasFinally = true

def LedgerState.LeftBy (s : LedgerState) (task : LedgerTask) : Prop :=
  ∃ l ∈ s.lock, ∃ token, task.made = some (l.gen, token)

section

variable {s s' : LedgerState} {i : Nat} {task : LedgerTask} {stage : LedgerStage}

attribute [local simp] LedgerState.advance

/-- What is in the lock file that a call has made, if that is still there. -/
def LedgerTask.Leaves (task : LedgerTask) (content : Option Holder) (token : Holder) : Prop :=
  match task.stage with
  | .created | .ended .torn => content = none
  | .holding _ | .releasing _ | .removing _ => content = some token
  | .ended .thrown => task.op.hasFinally = false ∧ content = some token
  | _ => False

def LedgerTask.Fits (s : LedgerState) (task : LedgerTask) : Prop :=
  ∀ gen token, task.made = some (gen, token) → gen < s.nextGen ∧ token.pid = task.pid ∧
    ∀ l ∈ s.lock, l.gen = gen → task.Leaves l.content token

structure LedgerFits (s : LedgerState) : Prop where
  tasks : ∀ task ∈ s.tasks, task.Fits s
  lock : ∀ l ∈ s.lock, l.gen < s.nextGen ∧ ∀ holder ∈ l.content, holder.ts ≤ s.clock
  tokens : ∀ task ∈ s.tasks, ∀ made ∈ task.made, made.2.ts ≤ s.clock
  alone : ∀ (i j : Nat) (task task' : LedgerTask) (made made' : Nat × Holder),
    s.tasks[i]? = some task → s.tasks[j]? = some task' → task.made = some made →
      task'.made = some made' → made.1 = made'.1 → i = j

theorem made_of_set {tasks : List LedgerTask} (hi : tasks[i]? = some task) {j : Nat}
    {task' new : LedgerTask} (hnew : new.made = task.made)
    (hj : (tasks.set i new)[j]? = some task') :
    ∃ old, tasks[j]? = some old ∧ old.made = task'.made := by
  rw [getElem?_set] at hj
  split at hj
  · next heq =>
    split at hj
    · cases hj
      exact ⟨task, heq ▸ hi, hnew.symm⟩
    · cases hj
  · exact ⟨task', hj, rfl⟩

/-- **A call moves on**, and does nothing to the lock file, or removes it, or writes its own. -/
theorem LedgerFits.put {new : LedgerTask} (h : LedgerFits s) (hi : s.tasks[i]? = some task)
    (htasks : s'.tasks = s.tasks.set i new) (hclock : s'.clock = s.clock)
    (hgen : s'.nextGen = s.nextGen) (hmade : new.made = task.made) (hpid : new.pid = task.pid)
    (hlock : ∀ l' ∈ s'.lock, ∃ l ∈ s.lock, l.gen = l'.gen ∧ (l.content = l'.content ∨
      ∃ token, task.made = some (l.gen, token) ∧ l'.content = some token))
    (hleaves : ∀ token, ∀ l' ∈ s'.lock, task.made = some (l'.gen, token) →
      (∀ l ∈ s.lock, l.gen = l'.gen → task.Leaves l.content token) →
        new.Leaves l'.content token) : LedgerFits s' := by
  have hold := mem_of_getElem? hi
  have hmem : ∀ t ∈ s'.tasks, t = new ∨ ∃ j, j ≠ i ∧ s.tasks[j]? = some t := by
    intro t ht
    obtain ⟨j, hj⟩ := mem_iff_getElem?.mp ht
    rw [htasks, getElem?_set] at hj
    split at hj
    · split at hj
      · exact Or.inl (some.inj hj).symm
      · cases hj
    · next hne => exact Or.inr ⟨j, fun heq => hne heq.symm, hj⟩
  constructor
  case tasks =>
    intro t ht gen token ht'
    rcases hmem t ht with rfl | ⟨j, hne, hj⟩
    · rw [hmade] at ht'
      obtain ⟨hlt, hp, hl⟩ := h.tasks task hold gen token ht'
      refine ⟨hgen ▸ hlt, hp.trans hpid.symm, fun l' hl' hg => ?_⟩
      subst hg
      exact hleaves token l' hl' ht' hl
    · obtain ⟨hlt, hp, hl⟩ := h.tasks t (mem_of_getElem? hj) gen token ht'
      refine ⟨hgen ▸ hlt, hp, fun l' hl' hg => ?_⟩
      obtain ⟨l, hmeml, hlg, hcontent⟩ := hlock l' hl'
      rcases hcontent with hcontent | ⟨token', howner, -⟩
      · rw [← hcontent]
        exact hl l hmeml (hlg.trans hg)
      · exact absurd (h.alone j i t task _ _ hj hi ht' howner (hlg.trans hg).symm) hne
  case lock =>
    intro l' hl'
    obtain ⟨l, hl, hlg, hcontent⟩ := hlock l' hl'
    obtain ⟨hlt, hts⟩ := h.lock l hl
    rw [← hlg, hgen, hclock]
    refine ⟨hlt, fun holder hholder => ?_⟩
    rcases hcontent with hcontent | ⟨token, howner, hcontent⟩
    · exact hts holder (hcontent ▸ hholder)
    · rw [hcontent] at hholder
      cases hholder
      exact h.tokens task hold _ howner
  case tokens =>
    intro t ht made ht'
    rw [hclock]
    rcases hmem t ht with rfl | ⟨j, -, hj⟩
    · exact h.tokens task hold made (hmade ▸ ht')
    · exact h.tokens t (mem_of_getElem? hj) made ht'
  case alone =>
    intro j k t t' made made' hj hk ht ht' heq
    rw [htasks] at hj hk
    obtain ⟨o, ho, homade⟩ := made_of_set hi hmade hj
    obtain ⟨o', ho', homade'⟩ := made_of_set hi hmade hk
    exact h.alone j k o o' made made' ho ho' (homade.trans ht) (homade'.trans ht') heq

theorem LedgerFits.stay (h : LedgerFits s) (hi : s.tasks[i]? = some task)
    (hleaves : ∀ token, ∀ l ∈ s.lock, task.made = some (l.gen, token) →
      task.Leaves l.content token → ({ task with stage } : LedgerTask).Leaves l.content token) :
    LedgerFits (s.put i task stage) := by
  refine h.put hi rfl rfl rfl rfl rfl (fun l hl => ⟨l, hl, rfl, Or.inl rfl⟩) ?_
  intro token l hl hmade hold
  exact hleaves token l hl hmade (hold l hl rfl)

theorem LedgerFits.create {token : Holder} (h : LedgerFits s)
    (htoken : token = ⟨task.pid, s.clock⟩) : LedgerFits { s with
      lock := some ⟨s.nextGen, none⟩
      nextGen := s.nextGen + 1
      tasks := s.tasks.set i
        { task with made := some (s.nextGen, token), stage := .created } } := by
  have hmem : ∀ {j : Nat} {t : LedgerTask}, (s.tasks.set i { task with
      made := some (s.nextGen, token), stage := .created })[j]? = some t →
      (j = i ∧ t = { task with made := some (s.nextGen, token), stage := .created }) ∨
        s.tasks[j]? = some t := by
    intro j t hj
    rw [getElem?_set] at hj
    split at hj
    · next heq =>
      split at hj
      · exact Or.inl ⟨heq.symm, (some.inj hj).symm⟩
      · cases hj
    · exact Or.inr hj
  -- the lock files of before have smaller numbers
  have hlt : ∀ {j : Nat} {t : LedgerTask} {made : Nat × Holder}, s.tasks[j]? = some t →
      t.made = some made → made.1 < s.nextGen :=
    fun hj ht => (h.tasks _ (mem_of_getElem? hj) _ _ ht).1
  constructor
  case tasks =>
    intro t ht gen token' hmade
    obtain ⟨j, hj⟩ := mem_iff_getElem?.mp ht
    rcases hmem hj with ⟨-, rfl⟩ | hj
    · cases hmade
      refine ⟨Nat.lt_succ_self _, by rw [htoken], fun l hl _ => ?_⟩
      cases hl
      exact rfl
    · obtain ⟨hgen, hpid, -⟩ := h.tasks t (mem_of_getElem? hj) gen token' hmade
      refine ⟨Nat.lt_succ_of_lt hgen, hpid, fun l hl heq => ?_⟩
      cases hl
      exact absurd hgen (heq ▸ Nat.lt_irrefl _)
  case lock =>
    intro l hl
    cases hl
    exact ⟨Nat.lt_succ_self _, nofun⟩
  case tokens =>
    intro t ht made hmade
    obtain ⟨j, hj⟩ := mem_iff_getElem?.mp ht
    rcases hmem hj with ⟨-, rfl⟩ | hj
    · cases hmade
      rw [htoken]
    · exact h.tokens t (mem_of_getElem? hj) made hmade
  case alone =>
    intro j k t t' made made' hj hk ht ht' heq
    rcases hmem hj with ⟨hji, rfl⟩ | hj
    · rcases hmem hk with ⟨hki, rfl⟩ | hk
      · exact hji.trans hki.symm
      · have hsmall := hlt hk ht'
        cases ht
        exact absurd hsmall (heq ▸ Nat.lt_irrefl _)
    · rcases hmem hk with ⟨-, rfl⟩ | hk
      · have hsmall := hlt hj ht
        cases ht'
        exact absurd hsmall (heq ▸ Nat.lt_irrefl _)
      · exact h.alone j k t t' made made' hj hk ht ht' heq

theorem LedgerFits.advance {outcome : LedgerOutcome} (h : LedgerFits s)
    (hi : s.tasks[i]? = some task) (hstage : task.stage = stage)
    (hstep : s.advance i task stage outcome = some s') : LedgerFits s' := by
  have hleaves : ∀ {content token}, task.Leaves content token →
      ({ task with stage } : LedgerTask).Leaves content token := by
    intro content token hold
    rw [← hstage]
    exact hold
  -- the lock file is gone
  have hgone : ∀ stage', LedgerFits { s.put i task stage' with lock := none } := fun stage' =>
    h.put hi rfl rfl rfl rfl rfl nofun fun _ => nofun
  cases stage with
  | acquiring attempt =>
    cases outcome with
    | early => cases hstep
    | throws =>
      cases hstep
      exact h.stay hi fun _ _ _ _ hold => absurd (hleaves hold) id
    | ok =>
      simp only [LedgerState.advance] at hstep
      split at hstep <;> cases hstep
      · exact h.create rfl
      · exact h.stay hi fun _ _ _ _ hold => absurd (hleaves hold) id
  | found attempt =>
    cases outcome with
    | early => cases hstep
    | throws =>
      cases hstep
      exact h.stay hi fun _ _ _ _ hold => absurd (hleaves hold) id
    | ok =>
      cases hstep
      exact h.stay hi fun _ _ _ _ hold => absurd (hleaves hold) id
  | exhausted =>
    cases outcome <;> cases hstep
    exact h.stay hi fun _ _ _ _ hold => absurd (hleaves hold) id
  | breaking attempt =>
    cases outcome <;> cases hstep
    exact hgone _
  | created =>
    cases outcome with
    | early => cases hstep
    | throws =>
      cases hstep
      exact h.stay hi fun _ _ _ _ hold => hleaves hold
    | ok =>
      simp only [LedgerState.advance] at hstep
      split at hstep <;> cases hstep
      next gen token hmade =>
      have hwritten : ∀ l' ∈ s.lock.map fun l => if l.gen = gen then ⟨gen, some token⟩ else l,
          ∃ l ∈ s.lock, l.gen = l'.gen ∧
            (l.gen = gen ∧ l'.content = some token ∨ l.gen ≠ gen ∧ l.content = l'.content) := by
        intro l' hl'
        obtain ⟨l, hl, rfl⟩ := map_eq_some_iff.mp hl'
        refine ⟨l, hl, ?_⟩
        split
        · next hown => exact ⟨hown, Or.inl ⟨hown, rfl⟩⟩
        · next hother => exact ⟨rfl, Or.inr ⟨hother, rfl⟩⟩
      refine h.put hi rfl rfl rfl rfl rfl (fun l' hl' => ?_) fun token' l' hl' hmade' _ => ?_
      · obtain ⟨l, hl, hgen, ⟨hown, hcontent⟩ | ⟨-, hcontent⟩⟩ := hwritten l' hl'
        · exact ⟨l, hl, hgen, Or.inr ⟨token, hown ▸ hmade, hcontent⟩⟩
        · exact ⟨l, hl, hgen, Or.inl hcontent⟩
      · rw [hmade] at hmade'
        obtain ⟨hgen', rfl⟩ := Prod.mk.inj (some.inj hmade')
        obtain ⟨l, -, hgen, ⟨-, hcontent⟩ | ⟨hother, -⟩⟩ := hwritten l' hl'
        · exact hcontent
        · exact absurd (hgen.trans hgen'.symm) hother
  | holding rest =>
    cases rest with
    | nil =>
      cases outcome <;> cases hstep
      exact h.stay hi fun _ _ _ _ hold => hleaves hold
    | cons step rest =>
      cases outcome with
      | ok =>
        have hnext : LedgerFits (s.put i task (.holding rest)) :=
          h.stay hi fun _ _ _ _ hold => hleaves hold
        cases step <;> cases hstep <;> exact hnext
      | early =>
        cases step with
        | recheck =>
          cases hstep
          exact h.stay hi fun _ _ _ _ hold => hleaves hold
        | _ => cases hstep
      | throws =>
        have hnext : LedgerFits (s.put i task
            (if task.op.hasFinally then .releasing .thrown else .ended .thrown)) := by
          refine h.stay hi fun _ _ _ _ hold => ?_
          cases hfinally : task.op.hasFinally with
          | true => exact hleaves hold
          | false => exact ⟨hfinally, hleaves hold⟩
        cases step <;> cases hstep <;> exact hnext
  | releasing result =>
    cases outcome with
    | early => cases hstep
    | throws => cases hstep
    | ok =>
      simp only [LedgerState.advance] at hstep
      split at hstep <;> cases hstep
      · exact h.stay hi fun _ _ _ _ hold => hleaves hold
      · next hother =>
        -- the lock file is another one
        refine h.stay hi fun token l hl hmade hold => absurd ?_ hother
        have hcontent : l.content = some token := hleaves hold
        rw [mem_def.mp hl, hmade]
        exact hcontent
  | removing result =>
    cases outcome <;> cases hstep
    exact hgone _
  | ended result => cases outcome <;> cases hstep

theorem LedgerFits.step {l : LedgerLabel} (h : LedgerFits s) (hstep : s.step l = some s') :
    LedgerFits s' := by
  cases l with
  | call op pid =>
    simp only [LedgerState.step] at hstep
    split at hstep <;> cases hstep
    have hmem : ∀ t ∈ s.tasks ++ [⟨op, pid, none, .acquiring 0⟩], ∀ made, t.made = some made →
        t ∈ s.tasks := by
      intro t ht made hmade
      rcases mem_append.mp ht with ht | ht
      · exact ht
      · rw [mem_singleton.mp ht] at hmade
        cases hmade
    have hget : ∀ (j : Nat) (t : LedgerTask) (made : Nat × Holder),
        (s.tasks ++ [⟨op, pid, none, .acquiring 0⟩])[j]? = some t → t.made = some made →
          s.tasks[j]? = some t := by
      intro j t made hj hmade
      rw [getElem?_append] at hj
      split at hj
      · exact hj
      · rw [mem_singleton.mp (mem_of_getElem? hj)] at hmade
        cases hmade
    refine ⟨fun t ht gen token hmade => ?_, h.lock, fun t ht made hmade => ?_, ?_⟩
    · exact h.tasks t (hmem t ht _ hmade) gen token hmade
    · exact h.tokens t (hmem t ht made hmade) made hmade
    · intro j k t t' made made' hj hk ht ht' heq
      exact h.alone j k t t' made made' (hget j t made hj ht) (hget k t' made' hk ht') ht ht' heq
  | advance i outcome =>
    simp only [LedgerState.step] at hstep
    split at hstep
    · next task hi =>
      split at hstep
      · cases hstep
      · exact h.advance hi rfl hstep
    · cases hstep
  | crash pid =>
    cases hstep
    exact ⟨h.tasks, h.lock, h.tokens, h.alone⟩
  | tick ms =>
    cases hstep
    refine ⟨h.tasks, fun l hl => ⟨(h.lock l hl).1, fun holder hholder => ?_⟩,
      fun t ht made hmade => ?_, h.alone⟩
    · exact ((h.lock l hl).2 holder hholder).trans (Nat.le_add_right _ _)
    · exact (h.tokens t ht made hmade).trans (Nat.le_add_right _ _)

/-- **A lock that is left is not**, where it is to be released. -/
theorem LedgerFits.released (h : LedgerFits s) (hmem : task ∈ s.tasks) (hreleased : task.Released) :
    ¬s.LeftBy task := by
  rintro ⟨l, hl, token, hmade⟩
  have hleaves := (h.tasks task hmem l.gen token hmade).2.2 l hl rfl
  rcases hreleased with hstage | ⟨hstage, hfinally⟩
  · rw [LedgerTask.Leaves, hstage] at hleaves
    exact hleaves
  · rw [LedgerTask.Leaves, hstage] at hleaves
    exact Bool.false_ne_true (hleaves.1.symm.trans hfinally)

end

namespace SampleLedger

def start : LedgerState := ⟨0, [], none, 0, []⟩

def early : List LedgerLabel := [.call .recordVisit 1, .advance 0 .ok, .crash 1, .tick 1000000000]

def late : List LedgerLabel :=
  [.call .recordVisit 1, .advance 0 .ok, .advance 0 .ok, .crash 1]

end SampleLedger

end Dweb
