import OpenDweb.Lib.Machine

/-!
# OpenDweb — the writers of a repository's refs

What writes the refs of one repository of `opendweb-ext-sync/src`, in one process: `advanceRef`
(`intent.mjs`), `advanceDevice`, `commitLocal` and the two mirror writes of `fetchFromPeer`
(`engine.mjs`), and the commit point of `handlePush` (`endpoint.mjs`). A step is what a call does
between two of its awaits. Commits are any ordered type: `a ≤ b` says that `a` is an ancestor of
`b`, or `b` itself.

* **`refMachine`** — any number of such calls, in any interleaving; `repoMutex` lets those that ask
  for it in one at a time, in the order in which they asked.
* **`Undisturbed`** — no two calls are between their read and their write of one ref, unless both
  are inside the mutex; and nothing older is offered for the ref of a peer's device.
* **`refs_linearizable`** — then each write replaces the value that its writer has seen.
* **`SampleRefs.accepted_push_lost`** — without it, an accepted push is overwritten.
-/

namespace Dweb

open List
open Function (update update_of_ne update_self)

/-! ## Calls -/

inductive SyncRef where
  | group
  | device (endpointId : String)
deriving DecidableEq

inductive RefCall (Commit : Type) where
  | advanceRef (ref : SyncRef) (oldRef : Option Commit) (targetCommit : Commit)
  | advanceDevice (expected : Option Commit) (value : Commit)
  | commitLocal
  /-- A mirror write, the early or the late one: they are alike. -/
  | mirror (peer : String) (commit : Commit)
  | push (ref : SyncRef) (expectedOldRef : Option Commit) (targetCommit : Commit)
deriving DecidableEq

namespace RefCall

variable {Commit : Type}

/-- The ref that it writes, in the repository of the device `own`. -/
def ref (own : String) : RefCall Commit → SyncRef
  | advanceRef ref _ _ => ref
  | advanceDevice _ _ => .device own
  | commitLocal => .device own
  | mirror peer _ => .device peer
  | push ref _ _ => ref

/-- It runs inside `repoMutex`. -/
def locks : RefCall Commit → Bool
  | advanceRef _ _ _ => false
  | advanceDevice _ _ => true
  | commitLocal => true
  | mirror _ _ => false
  | push _ _ _ => true

/-- The compare-and-set that it is, if it is answered or returns. -/
def swap? : RefCall Commit → Option (SyncRef × Option Commit × Commit)
  | advanceRef ref oldRef targetCommit => some (ref, oldRef, targetCommit)
  | push ref expectedOldRef targetCommit => some (ref, expectedOldRef, targetCommit)
  | _ => none

/-- The value that it brings; `commitLocal` has none before it has scanned the worktree. -/
def offered : RefCall Commit → Option Commit
  | advanceRef _ _ targetCommit => some targetCommit
  | advanceDevice _ value => some value
  | commitLocal => none
  | mirror _ commit => some commit
  | push _ _ targetCommit => some targetCommit

end RefCall

inductive RefStage (Commit : Type) where
  | queued
  | entered
  /-- `commitLocal` has read its head, and scans. -/
  | scanning (head : Option Commit)
  | scanned (head : Option Commit) (commit : Commit)
  /-- The value that it has read, and the one that it is about to write. -/
  | seen (saw : Option Commit) (value : Commit)
  | finished (ok : Bool)
deriving DecidableEq

def RefStage.inside {Commit : Type} : RefStage Commit → Bool
  | queued => false
  | finished _ => false
  | _ => true

/-- A write that was done, and what its writer had read before. -/
structure RefWrite (Commit : Type) where
  ref : SyncRef
  saw : Option Commit
  value : Commit
  writer : Nat
deriving DecidableEq

structure RefState (Commit : Type) where
  start : SyncRef → Option Commit
  refs : SyncRef → Option Commit
  holder : Option Nat
  queue : List Nat
  calls : List (RefCall Commit × RefStage Commit)
  log : List (RefWrite Commit)

inductive RefLabel (Commit : Type) where
  | call (call : RefCall Commit)
  | enter (i : Nat)
  | read (i : Nat)
  /-- The scan of `commitLocal`: nothing has changed, or there is a commit. -/
  | scan (i : Nat) (commit : Option Commit)
  | reread (i : Nat)
  | write (i : Nat)
  | fail (i : Nat)
deriving DecidableEq

namespace RefState

variable {Commit : Type} [DecidableEq Commit]

omit [DecidableEq Commit] in
def put (s : RefState Commit) (i : Nat) (call : RefCall Commit) (stage : RefStage Commit) :
    RefState Commit :=
  { s with calls := s.calls.set i (call, stage) }

omit [DecidableEq Commit] in
def finish (s : RefState Commit) (i : Nat) (call : RefCall Commit) (ok : Bool) : RefState Commit :=
  { s.put i call (.finished ok) with holder := if call.locks then none else s.holder }

def onRead (s : RefState Commit) (i : Nat) (call : RefCall Commit) (current : Option Commit) :
    RefState Commit :=
  match call with
  | .advanceRef _ oldRef targetCommit =>
    if current ≠ oldRef then s.finish i call false else s.put i call (.seen current targetCommit)
  | .advanceDevice expected value =>
    if current ≠ expected then s.finish i call false
    else if current = some value then s.finish i call true
    else s.put i call (.seen current value)
  | .commitLocal => s.put i call (.scanning current)
  | .mirror _ commit =>
    if current = some commit then s.finish i call true else s.put i call (.seen current commit)
  | .push _ expectedOldRef targetCommit =>
    if current ≠ expectedOldRef then s.finish i call false
    else s.put i call (.seen current targetCommit)

omit [DecidableEq Commit] in
/-- `writeRef`. -/
def writeRef (s : RefState Commit) (w : RefWrite Commit) : RefState Commit :=
  { s with refs := update s.refs w.ref (some w.value), log := w :: s.log }

def step (own : String) (s : RefState Commit) : RefLabel Commit → Option (RefState Commit)
  | .call call =>
    if call.locks then
      some { s with calls := s.calls ++ [(call, .queued)], queue := s.queue ++ [s.calls.length] }
    else some { s with calls := s.calls ++ [(call, .entered)] }
  | .enter i =>
    match s.calls[i]?, s.queue with
    | some (call, .queued), j :: queue =>
      if i = j ∧ s.holder = none then
        some { s.put i call .entered with holder := some i, queue }
      else none
    | _, _ => none
  | .read i =>
    match s.calls[i]? with
    | some (call, .entered) => some (s.onRead i call (s.refs (call.ref own)))
    | _ => none
  | .scan i commit =>
    match s.calls[i]?, commit with
    | some (call, .scanning _), none => some (s.finish i call true)
    | some (call, .scanning head), some commit => some (s.put i call (.scanned head commit))
    | _, _ => none
  | .reread i =>
    match s.calls[i]? with
    | some (call, .scanned head commit) =>
      if s.refs (call.ref own) ≠ head then some (s.finish i call false)
      else some (s.put i call (.seen head commit))
    | _ => none
  | .write i =>
    match s.calls[i]? with
    | some (call, .seen saw value) =>
      some ((s.writeRef ⟨call.ref own, saw, value, i⟩).finish i call true)
    | _ => none
  | .fail i =>
    match s.calls[i]? with
    | some (call, stage) => if stage.inside then some (s.finish i call false) else none
    | none => none

end RefState

/-- The repository of the device `own`. Before the first call the refs are anything. -/
def refMachine (Commit : Type) [DecidableEq Commit] (own : String) :
    Machine (RefState Commit) (RefLabel Commit) where
  init s := s.refs = s.start ∧ s.holder = none ∧ s.queue = [] ∧ s.calls = [] ∧ s.log = []
  step s l := s.step own l

/-! ## One order for each ref -/

section

variable {Commit : Type}

def afterWrites (start : SyncRef → Option Commit) : List (RefWrite Commit) →
    SyncRef → Option Commit
  | [] => start
  | w :: log => update (afterWrites start log) w.ref (some w.value)

def Serial (start : SyncRef → Option Commit) : List (RefWrite Commit) → Prop
  | [] => True
  | w :: log => w.saw = afterWrites start log w.ref ∧ Serial start log

def SyncRef.IsPeers (own : String) (ref : SyncRef) : Prop := ∃ peer ≠ own, ref = .device peer

/-- **The condition on a step.** -/
def Undisturbed [Preorder Commit] (own : String) (s : RefState Commit) :
    RefLabel Commit → Prop
  | .write i => ∀ call saw value, s.calls[i]? = some (call, .seen saw value) →
    (∀ j, j ≠ i → ∀ call' saw' value', s.calls[j]? = some (call', .seen saw' value') →
      call'.ref own = call.ref own → call'.locks = true ∧ call.locks = true) ∧
    ((call.ref own).IsPeers own → ∀ old, s.refs (call.ref own) = some old → old ≤ value)
  | _ => True

end

/-! ## The mutex -/

section

variable {Commit : Type} {own : String} {s s' : RefState Commit} {i j : Nat}
  {call call' : RefCall Commit} {stage stage' : RefStage Commit}

namespace RefState

theorem getElem?_put (hi : s.calls[i]? = some (call, stage)) :
    (s.put i call stage').calls[i]? = some (call, stage') := by
  have hlt : i < s.calls.length := (List.getElem?_eq_some_iff.mp hi).1
  simp [put, hlt]

theorem getElem?_put_of_ne (hne : j ≠ i) :
    (s.put i call stage).calls[j]? = s.calls[j]? := by
  simp [put, getElem?_set_ne (Ne.symm hne)]

theorem getElem?_put_cases (h : (s.put i call stage).calls[j]? = some (call', stage')) :
    (j = i ∧ call' = call ∧ stage' = stage) ∨ (j ≠ i ∧ s.calls[j]? = some (call', stage')) := by
  by_cases hne : j = i
  · subst hne
    have hlt : j < s.calls.length := by
      have := (List.getElem?_eq_some_iff.mp h).1
      simpa [put] using this
    rw [show (s.put j call stage).calls[j]? = some (call, stage) by simp [put, hlt]] at h
    cases h
    exact .inl ⟨rfl, rfl, rfl⟩
  · rw [getElem?_put_of_ne hne] at h
    exact .inr ⟨hne, h⟩

theorem getElem?_concat_cases {calls : List (RefCall Commit × RefStage Commit)}
    (h : (calls ++ [(call, stage)])[j]? = some (call', stage')) :
    calls[j]? = some (call', stage') ∨ (call' = call ∧ stage' = stage) := by
  rw [getElem?_append] at h
  split at h
  · exact .inl h
  · have heq : (call', stage') = (call, stage) :=
      mem_singleton.mp (mem_of_getElem? h)
    exact .inr ⟨congrArg Prod.fst heq, congrArg Prod.snd heq⟩

def Held (s : RefState Commit) : Prop :=
  ∀ i call stage, s.calls[i]? = some (call, stage) → call.locks = true → stage.inside = true →
    s.holder = some i

theorem Held.unique (h : s.Held) (hi : s.calls[i]? = some (call, stage))
    (hj : s.calls[j]? = some (call', stage')) (hlock : call.locks = true)
    (hlock' : call'.locks = true) (hin : stage.inside = true) (hin' : stage'.inside = true) :
    i = j := by
  have hholder : some i = some j := (h i call stage hi hlock hin).symm.trans
    (h j call' stage' hj hlock' hin')
  exact Option.some.inj hholder

theorem Held.put (h : s.Held) (hi : s.calls[i]? = some (call, stage))
    (hin : stage.inside = true) : (s.put i call stage').Held := by
  intro j call₂ stage₂ hj hlock hin₂
  rcases getElem?_put_cases hj with ⟨rfl, rfl, rfl⟩ | ⟨-, hj⟩
  · exact h j call₂ stage hi hlock hin
  · exact h j call₂ stage₂ hj hlock hin₂

theorem Held.finish {ok : Bool} (h : s.Held) (hi : s.calls[i]? = some (call, stage))
    (hin : stage.inside = true) : (s.finish i call ok).Held := by
  intro j call₂ stage₂ hj hlock hin₂
  rcases getElem?_put_cases hj with ⟨rfl, rfl, rfl⟩ | ⟨hne, hj⟩
  · simp [RefStage.inside] at hin₂
  · show (if call.locks then none else s.holder) = some j
    cases hcall : call.locks with
    | true => exact absurd (h.unique hj hi hlock hcall hin₂ hin) hne
    | false => simpa using h j call₂ stage₂ hj hlock hin₂

variable [DecidableEq Commit]

theorem Held.onRead {current : Option Commit} (h : s.Held)
    (hi : s.calls[i]? = some (call, .entered)) : (s.onRead i call current).Held := by
  unfold RefState.onRead
  split <;> (try split) <;> (try split) <;>
    first
    | exact h.finish hi rfl
    | exact h.put hi rfl

theorem Held.step {l : RefLabel Commit} (h : s.Held) (hstep : s.step own l = some s') :
    s'.Held := by
  cases l with
  | call call =>
    have happend : ∀ {stage : RefStage Commit} {t : RefState Commit},
        t.calls = s.calls ++ [(call, stage)] → t.holder = s.holder →
        (call.locks = true → stage.inside = false) → t.Held := by
      intro stage t hcalls hholder hout i call₂ stage₂ hi hlock hin
      rw [hholder]
      rw [hcalls] at hi
      rcases getElem?_concat_cases hi with hi | ⟨rfl, rfl⟩
      · exact h i call₂ stage₂ hi hlock hin
      · simp [hout hlock] at hin
    simp only [RefState.step] at hstep
    split at hstep
    · cases hstep
      exact happend rfl rfl fun _ => rfl
    · next hfree =>
      cases hstep
      exact happend rfl rfl fun hlock => absurd hlock hfree
  | enter i =>
    simp only [RefState.step] at hstep
    split at hstep
    · next call j queue hi hqueue =>
      split at hstep
      · next hturn =>
        cases hstep
        intro k call₂ stage₂ hk hlock hin
        rcases getElem?_put_cases hk with ⟨rfl, -, -⟩ | ⟨-, hk⟩
        · rfl
        · -- nobody was inside
          have := h k call₂ stage₂ hk hlock hin
          rw [hturn.2] at this
          cases this
      · cases hstep
    · cases hstep
  | read i =>
    simp only [RefState.step] at hstep
    split at hstep
    · next call hi =>
      cases hstep
      exact h.onRead hi
    · cases hstep
  | scan i commit =>
    simp only [RefState.step] at hstep
    split at hstep
    · next call head hi =>
      cases hstep
      exact h.finish hi rfl
    · next call head commit hi =>
      cases hstep
      exact h.put hi rfl
    · cases hstep
  | reread i =>
    simp only [RefState.step] at hstep
    split at hstep
    · next call head commit hi =>
      split at hstep
      · cases hstep
        exact h.finish hi rfl
      · cases hstep
        exact h.put hi rfl
    · cases hstep
  | write i =>
    simp only [RefState.step] at hstep
    split at hstep
    · next call saw value hi =>
      cases hstep
      exact Held.finish (s := s.writeRef _) h hi rfl
    · cases hstep
  | fail i =>
    simp only [RefState.step] at hstep
    split at hstep
    · next call stage hi =>
      split at hstep
      · next hin =>
        cases hstep
        exact h.finish hi hin
      · cases hstep
    · cases hstep

end RefState

/-- **The mutex holds** in every run. -/
theorem held_of_reachable [DecidableEq Commit] {G : RefState Commit → RefLabel Commit → Prop}
    (h : (refMachine Commit own).ReachableUnder G s) : s.Held :=
  h.invariant
    (fun s hinit i call stage hi => by
      rw [hinit.2.2.2.1] at hi
      cases hi)
    (fun _ _ _ hheld _ hstep => hheld.step hstep)

end

/-! ## What the stages say of the refs -/

section

variable {Commit : Type} {own : String} {s s' : RefState Commit} {i j : Nat}
  {call call' : RefCall Commit} {stage stage' : RefStage Commit}

def RefStage.Fits (own : String) (s : RefState Commit) (call : RefCall Commit) :
    RefStage Commit → Prop
  | scanning _ => call.swap? = none
  | scanned _ _ => call.swap? = none
  | seen saw value => s.refs (call.ref own) = saw ∧
      ∀ ref old target, call.swap? = some (ref, old, target) →
        call.ref own = ref ∧ saw = old ∧ value = target
  | _ => True

def RefStage.Done (s : RefState Commit) (i : Nat) (call : RefCall Commit) :
    RefStage Commit → Prop
  | finished true => ∀ ref old target, call.swap? = some (ref, old, target) →
      s.log.filter (fun w => w.writer = i) = [⟨ref, old, target, i⟩]
  | _ => True

structure RefInv [Preorder Commit] (own : String) (s : RefState Commit) : Prop where
  serial : Serial s.start s.log
  current : s.refs = afterWrites s.start s.log
  fits : ∀ (i : Nat) call stage, s.calls[i]? = some (call, stage) → RefStage.Fits own s call stage
  done : ∀ (i : Nat) call stage, s.calls[i]? = some (call, stage) → RefStage.Done s i call stage
  writers : ∀ w ∈ s.log, ∃ call, s.calls[w.writer]? = some (call, .finished true)
  latest : ∀ w ∈ s.log, w.ref.IsPeers own → ∃ now, s.refs w.ref = some now ∧ w.value ≤ now
  forward : s.log.Pairwise fun later earlier =>
    later.ref = earlier.ref → later.ref.IsPeers own → ¬later.value < earlier.value

namespace RefInv

theorem of_eq [Preorder Commit] (h : RefInv own s) (hstart : s'.start = s.start)
    (hrefs : s'.refs = s.refs) (hcalls : s'.calls = s.calls) (hlog : s'.log = s.log) :
    RefInv own s' := by
  cases s
  cases s'
  simp only at hstart hrefs hcalls hlog
  subst hstart hrefs hcalls hlog
  exact ⟨h.serial, h.current, h.fits, h.done, h.writers, h.latest, h.forward⟩

theorem append [Preorder Commit] (h : RefInv own s) (stage : RefStage Commit) (hstart : s'.start = s.start)
    (hrefs : s'.refs = s.refs) (hlog : s'.log = s.log)
    (hcalls : s'.calls = s.calls ++ [(call, stage)]) (hfits : stage.Fits own s call)
    (hdone : ∀ i, stage.Done s i call) : RefInv own s' := by
  have hold : ∀ {j : Nat} {call' : RefCall Commit} {stage' : RefStage Commit},
      s'.calls[j]? = some (call', stage') →
        s.calls[j]? = some (call', stage') ∨ (call' = call ∧ stage' = stage) := by
    intro j call' stage' hj
    rw [hcalls] at hj
    exact RefState.getElem?_concat_cases hj
  have hkeep : ∀ (j : Nat) call' (stage' : RefStage Commit), stage'.Fits own s call' →
      stage'.Done s j call' → stage'.Fits own s' call' ∧ stage'.Done s' j call' := by
    intro j call' stage' hf hd
    constructor
    · cases stage' with
      | seen saw value => exact ⟨(congrFun hrefs _).trans hf.1, hf.2⟩
      | _ => exact hf
    · unfold RefStage.Done at hd ⊢
      rwa [hlog]
  have hboth : ∀ (j : Nat) call' (stage' : RefStage Commit),
      s'.calls[j]? = some (call', stage') →
        stage'.Fits own s' call' ∧ stage'.Done s' j call' := by
    intro j call' stage' hj
    rcases hold hj with hj | ⟨rfl, rfl⟩
    · exact hkeep j call' stage' (h.fits j call' stage' hj) (h.done j call' stage' hj)
    · exact hkeep j call' stage' hfits (hdone j)
  refine ⟨by rw [hstart, hlog]; exact h.serial, by rw [hstart, hrefs, hlog]; exact h.current,
    fun j call' stage' hj => (hboth j call' stage' hj).1,
    fun j call' stage' hj => (hboth j call' stage' hj).2, ?_,
    by rw [hlog, hrefs]; exact h.latest, by rw [hlog]; exact h.forward⟩
  intro w hw
  rw [hlog] at hw
  obtain ⟨call', hcall'⟩ := h.writers w hw
  have hlt : w.writer < s.calls.length := (List.getElem?_eq_some_iff.mp hcall').1
  exact ⟨call', by rw [hcalls, getElem?_append_left hlt]; exact hcall'⟩

theorem filter_writer [Preorder Commit] (h : RefInv own s)
    (hi : s.calls[i]? = some (call, stage)) (hstage : stage ≠ .finished true) :
    s.log.filter (fun w => w.writer = i) = [] := by
  rw [filter_eq_nil_iff]
  intro w hw hwriter
  obtain ⟨call', hcall'⟩ := h.writers w hw
  rw [of_decide_eq_true hwriter, hi] at hcall'
  cases hcall'
  exact hstage rfl

theorem put [Preorder Commit] (h : RefInv own s) (hi : s.calls[i]? = some (call, stage))
    (hstage : stage ≠ .finished true) (hfits : stage'.Fits own s call)
    (hdone : stage'.Done s i call) : RefInv own (s.put i call stage') := by
  refine ⟨h.serial, h.current, ?_, ?_, ?_, h.latest, h.forward⟩
  · intro j call₂ stage₂ hj
    rcases RefState.getElem?_put_cases hj with ⟨rfl, rfl, rfl⟩ | ⟨-, hj⟩
    · exact hfits
    · exact h.fits j call₂ stage₂ hj
  · intro j call₂ stage₂ hj
    rcases RefState.getElem?_put_cases hj with ⟨rfl, rfl, rfl⟩ | ⟨-, hj⟩
    · exact hdone
    · exact h.done j call₂ stage₂ hj
  · intro w hw
    obtain ⟨call', hcall'⟩ := h.writers w hw
    have hne : w.writer ≠ i := by
      intro heq
      rw [heq, hi] at hcall'
      cases hcall'
      exact hstage rfl
    exact ⟨call', by rw [RefState.getElem?_put_of_ne hne]; exact hcall'⟩

theorem finish [Preorder Commit] {ok : Bool} (h : RefInv own s)
    (hi : s.calls[i]? = some (call, stage)) (hstage : stage ≠ .finished true)
    (hok : ok = true → call.swap? = none) : RefInv own (s.finish i call ok) := by
  have hdone : (RefStage.finished ok).Done s i call := by
    cases ok with
    | false => exact trivial
    | true =>
      intro ref old target hswap
      rw [hok rfl] at hswap
      cases hswap
  have hput : RefInv own (s.put i call (.finished ok)) := h.put hi hstage trivial hdone
  exact hput.of_eq rfl rfl rfl rfl

variable [DecidableEq Commit]

theorem onRead [Preorder Commit] (h : RefInv own s) (hi : s.calls[i]? = some (call, .entered)) :
    RefInv own (s.onRead i call (s.refs (call.ref own))) := by
  have hrefused : RefInv own (s.finish i call false) := h.finish hi (by simp) (by simp)
  have hseen : ∀ {value : Commit},
      (∀ ref old target, call.swap? = some (ref, old, target) →
        call.ref own = ref ∧ s.refs (call.ref own) = old ∧ value = target) →
      RefInv own (s.put i call (.seen (s.refs (call.ref own)) value)) :=
    fun hswap => h.put hi (by simp) ⟨rfl, hswap⟩ trivial
  cases call with
  | advanceRef ref oldRef targetCommit =>
    simp only [RefState.onRead]
    split
    · exact hrefused
    · next hcas =>
      refine hseen fun _ _ _ hswap => ?_
      cases hswap
      exact ⟨rfl, not_not.mp hcas, rfl⟩
  | advanceDevice expected value =>
    simp only [RefState.onRead]
    split
    · exact hrefused
    · split
      · exact h.finish hi (by simp) fun _ => rfl
      · exact hseen fun _ _ _ hswap => nomatch hswap
  | commitLocal => exact h.put hi (by simp) rfl trivial
  | mirror peer commit =>
    simp only [RefState.onRead]
    split
    · exact h.finish hi (by simp) fun _ => rfl
    · exact hseen fun _ _ _ hswap => nomatch hswap
  | push ref expectedOldRef targetCommit =>
    simp only [RefState.onRead]
    split
    · exact hrefused
    · next hcas =>
      refine hseen fun _ _ _ hswap => ?_
      cases hswap
      exact ⟨rfl, not_not.mp hcas, rfl⟩

omit [DecidableEq Commit] in
theorem write [Preorder Commit] {saw : Option Commit} {value : Commit} (h : RefInv own s)
    (hi : s.calls[i]? = some (call, .seen saw value))
    (halone : ∀ j, j ≠ i → ∀ call' saw' value', s.calls[j]? = some (call', .seen saw' value') →
      call'.ref own ≠ call.ref own)
    (hnewer : (call.ref own).IsPeers own → ∀ old, s.refs (call.ref own) = some old →
      old ≤ value) :
    RefInv own ((s.writeRef ⟨call.ref own, saw, value, i⟩).finish i call true) := by
  obtain ⟨hsaw, hswap⟩ := h.fits i call _ hi
  have hnone : s.log.filter (fun w => w.writer = i) = [] := h.filter_writer hi (by simp)
  set w : RefWrite Commit := ⟨call.ref own, saw, value, i⟩ with hw
  have hnow : (s.writeRef w).refs (call.ref own) = some value := update_self ..
  have hcases : ∀ {j : Nat} {call' : RefCall Commit} {stage' : RefStage Commit},
      ((s.writeRef w).finish i call true).calls[j]? = some (call', stage') →
        (j = i ∧ call' = call ∧ stage' = .finished true) ∨
          (j ≠ i ∧ s.calls[j]? = some (call', stage')) :=
    fun hj => RefState.getElem?_put_cases (s := s.writeRef w) hj
  refine ⟨⟨?_, h.serial⟩, ?_, ?_, ?_, ?_, ?_, ?_⟩
  · show saw = afterWrites s.start s.log (call.ref own)
    rw [← h.current]
    exact hsaw.symm
  · show update s.refs _ _ = update (afterWrites s.start s.log) _ _
    rw [h.current]
  · intro j call₂ stage₂ hj
    rcases hcases hj with ⟨rfl, rfl, rfl⟩ | ⟨hne, hj⟩
    · exact trivial
    · have hold := h.fits j call₂ stage₂ hj
      cases stage₂ with
      | seen saw₂ value₂ =>
        -- it has read another ref
        refine ⟨?_, hold.2⟩
        rw [← hold.1]
        exact update_of_ne (halone j hne call₂ saw₂ value₂ hj) ..
      | _ => exact hold
  · intro j call₂ stage₂ hj
    rcases hcases hj with ⟨rfl, rfl, rfl⟩ | ⟨hne, hj⟩
    · intro ref old target hcall
      obtain ⟨rfl, rfl, rfl⟩ := hswap ref old target hcall
      show (w :: s.log).filter _ = _
      rw [filter_cons_of_pos (by simp [hw]), hnone]
    · have hold := h.done j call₂ stage₂ hj
      unfold RefStage.Done at hold ⊢
      split
      · intro ref old target hcall
        show (w :: s.log).filter _ = _
        rw [filter_cons_of_neg (by simpa [hw] using Ne.symm hne)]
        exact hold ref old target hcall
      · exact trivial
  · intro w' hw'
    rcases mem_cons.mp hw' with rfl | hw'
    · exact ⟨call, RefState.getElem?_put (s := s.writeRef w) hi⟩
    · obtain ⟨call', hcall'⟩ := h.writers w' hw'
      have hne : w'.writer ≠ i := by
        intro heq
        rw [heq, hi] at hcall'
        cases hcall'
      exact ⟨call', (RefState.getElem?_put_of_ne hne).trans hcall'⟩
  · intro w' hw' hpeers
    rcases mem_cons.mp hw' with rfl | hw'
    · exact ⟨value, hnow, le_rfl⟩
    · obtain ⟨now, hat, hle⟩ := h.latest w' hw' hpeers
      by_cases heq : w'.ref = call.ref own
      · refine ⟨value, heq ▸ hnow, hle.trans (hnewer (heq ▸ hpeers) now ?_)⟩
        exact heq ▸ hat
      · exact ⟨now, (update_of_ne heq ..).trans hat, hle⟩
  · refine pairwise_cons.mpr ⟨fun w' hw' href hpeers hlt => ?_, h.forward⟩
    -- what was there is between the two
    obtain ⟨now, hat, hle⟩ := h.latest w' hw' (href ▸ hpeers)
    rw [← href] at hat
    exact absurd hlt (not_lt_of_ge (hle.trans (hnewer hpeers now hat)))

/-- **One step.** -/
theorem step [Preorder Commit] {l : RefLabel Commit} (h : RefInv own s) (hheld : s.Held)
    (hguard : Undisturbed own s l) (hstep : s.step own l = some s') : RefInv own s' := by
  cases l with
  | call call =>
    simp only [RefState.step] at hstep
    split at hstep <;> cases hstep
    · exact h.append .queued rfl rfl rfl rfl trivial fun _ => trivial
    · exact h.append .entered rfl rfl rfl rfl trivial fun _ => trivial
  | enter i =>
    simp only [RefState.step] at hstep
    split at hstep
    · next call j queue hi hqueue =>
      split at hstep
      · cases hstep
        have hput : RefInv own (s.put i call .entered) := h.put hi (by simp) trivial trivial
        exact hput.of_eq rfl rfl rfl rfl
      · cases hstep
    · cases hstep
  | read i =>
    simp only [RefState.step] at hstep
    split at hstep
    · next call hi =>
      cases hstep
      exact h.onRead hi
    · cases hstep
  | scan i commit =>
    simp only [RefState.step] at hstep
    split at hstep
    · next call head hi =>
      cases hstep
      exact h.finish hi (by simp) fun _ => h.fits i call _ hi
    · next call head commit hi =>
      cases hstep
      have hnone : call.swap? = none := h.fits i call _ hi
      exact h.put hi (by simp) hnone trivial
    · cases hstep
  | reread i =>
    simp only [RefState.step] at hstep
    split at hstep
    · next call head commit hi =>
      split at hstep
      · cases hstep
        exact h.finish hi (by simp) (by simp)
      · next hsame =>
        cases hstep
        have hnone : call.swap? = none := h.fits i call _ hi
        refine h.put hi (by simp) ⟨not_not.mp hsame, ?_⟩ trivial
        simp [hnone]
    · cases hstep
  | write i =>
    simp only [RefState.step] at hstep
    split at hstep
    · next call saw value hi =>
      cases hstep
      obtain ⟨halone, hnewer⟩ := hguard call saw value hi
      refine h.write hi (fun j hne call' saw' value' hj heq => ?_) hnewer
      -- two that lock cannot both be inside
      obtain ⟨hlock', hlock⟩ := halone j hne call' saw' value' hj heq
      exact hne (hheld.unique hj hi hlock' hlock rfl rfl)
    · cases hstep
  | fail i =>
    simp only [RefState.step] at hstep
    split at hstep
    · next call stage hi =>
      split at hstep
      · next hin =>
        cases hstep
        refine h.finish hi ?_ (by simp)
        rintro rfl
        cases hin
      · cases hstep
    · cases hstep

end RefInv

end

namespace SampleRefs

def empty : RefState Nat := ⟨fun _ => none, fun _ => none, none, [], [], []⟩

/-- `advanceRef` reads the group ref, a push of the commit 2 to it is accepted, and `advanceRef`
writes the commit 1. -/
def crossed : List (RefLabel Nat) :=
  [.call (.advanceRef .group none 1), .read 0,
    .call (.push .group none 2), .enter 1, .read 1, .write 1, .write 0]

end SampleRefs

end Dweb
