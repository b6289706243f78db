import OpenDweb.Host.PluginHost

/-!
# OpenDweb — ledger, status and runtime agree

What the plugin host promises over whole runs whose steps all meet `PluginHost.Respects`, and the
invariant that carries it. Away from a call that moves the status, the ledger holds what was last
promised; until a close takes the plugin down it is also the status.

* **`PlaceHolds`** — what is true at each place of the call under way.
* **`Inv`** — the invariant; `Inv.step` keeps it under the guard.
* **`plugin_lifecycle_agrees`** — answers, restarts, activities and closes over such runs.
* **`SamplePlugin.second_disable_answers_early`** — a second `disable`, while the first drains, is
  told that all is done.
-/

namespace Dweb

open List Option

variable {κ : Type*} [Inhabited κ]

/-- An answer `ok` finds ledger, status and runtime in the state it names, an error leaves ledger
and status as the call found them. -/
def PluginAnswer.Good (a : PluginAnswer κ) : Prop :=
  match a.result with
  | .error _ => a.ledger = a.ledgerBefore ∧ a.status = a.statusBefore
  | .ok () =>
    match a.call with
    | .enable => a.ledger.status = .enabled ∧ a.status = .enabled ∧ a.running = true
    | .disable =>
      a.ledger.status = .disabled ∧ a.status = .disabled ∧ a.running = false
        ∧ ∀ x ∈ a.inflight, x.cancelled = true
    | .setConfig => True

def CloseAt.takesDown : CloseAt → Bool
  | .draining | .disposing => true
  | _ => false

theorem CloseAt.isPast_of_isThrough {c : CloseAt} (h : c.isThrough = true) : c.isPast = true := by
  cases c <;> first | rfl | exact h

theorem CloseAt.isPast_of_takesDown {c : CloseAt} (h : c.takesDown = true) : c.isPast = true := by
  cases c <;> first | rfl | exact h

namespace PluginHost

variable {s s' : PluginHost κ} {m : Mutation κ}

/-! ## The claim's property -/

/-- All answers are good; a restart restores what was last promised; after a `disable` no activity
begins and none is left uncancelled; after a close the runtime is down and stays so. -/
structure LifecycleAgrees (s : PluginHost κ) : Prop where
  answered : ∀ a ∈ s.answers, a.Good
  restores : (∀ m ∈ s.mutation, m.place.isTransition = false) →
    onDisk s.ledger = { status := s.promised, config := s.config }
  off : s.promised = .disabled →
    s.beginActivity = none ∧ ∀ a ∈ s.inflight, a.cancelled = true
  closed : .returned ∈ s.closes → s.running = false ∧ s.status ≠ .enabled

/-! ## The invariant -/

def PlaceHolds (s : PluginHost κ) (m : Mutation κ) : Prop :=
  match m.place with
  | .enablePersist => s.status ≠ .enabled ∧ onDisk s.ledger = m.ledger
  | .enableDir | .enableHook | .enableRollback =>
    s.status ≠ .enabled ∧ onDisk s.ledger = { status := .enabled, config := s.config }
      ∧ m.ledger.config = s.config
  | .draining => s.disposed = false
  | .grace => s.disposed = false ∧ ∀ a ∈ s.inflight, a.cancelled = true
  | .disposing => ∀ a ∈ s.inflight, a.cancelled = true
  | .disablePersist => s.running = false ∧ ∀ a ∈ s.inflight, a.cancelled = true
  | .configPersist _ _ => onDisk s.ledger = m.ledger
  | .configHook => True

structure Inv (s : PluginHost κ) : Prop where
  answered : ∀ a ∈ s.answers, a.Good
  config : (onDisk s.ledger).config = s.config
  promise : (∀ m ∈ s.mutation, m.place.isTransition = false) →
    (onDisk s.ledger).status = s.promised
  agree : s.takenDown = false → (∀ m ∈ s.mutation, m.place.isDisable = false) →
    s.status = s.promised
  down : s.takenDown = true → s.status = .disabled ∧ s.promised = .enabled
  off : s.promised = .disabled → s.status ≠ .enabled ∧ ∀ a ∈ s.inflight, a.cancelled = true
  live : s.status = .enabled → s.disposed = false
  stopped : s.status ≠ .enabled → s.takenDown = false →
    (∀ m ∈ s.mutation, m.place.isDisable = false) →
    s.running = false ∧ ∀ a ∈ s.inflight, a.cancelled = true
  place : ∀ m ∈ s.mutation, s.PlaceHolds m
  found : ∀ m ∈ s.mutation, m.place.isDisable = false → m.status = s.status
  transition : ∀ m ∈ s.mutation, m.place.isTransition = true →
    m.ledger.status = s.promised
  disabling : ∀ m ∈ s.mutation, m.place.isDisable = true →
    s.status = .disabled ∧ s.takenDown = false
  past : ∀ c ∈ s.closes, c.isPast = true → s.status ≠ .enabled
  through : ∀ c ∈ s.closes, c.isThrough = true → s.running = false
  drain : .draining ∈ s.closes → s.disposed = false
  single : s.closes.countP CloseAt.takesDown ≤ 1
  taking : ∀ c ∈ s.closes, c.takesDown = true → s.takenDown = true

theorem inv_restore (ledger : Option (PluginRecord κ)) (hookOk : Bool) :
    (restore ledger hookOk).Inv where
  answered a ha := by cases ha
  config := rfl
  promise _ := rfl
  agree _ _ := rfl
  down h := by cases h
  off h := by
    refine ⟨fun henabled => ?_, nofun⟩
    have hpromised : (restore ledger hookOk).promised = (restore ledger hookOk).status := rfl
    rw [hpromised, henabled] at h
    cases h
  live _ := rfl
  stopped hne _ _ := by
    refine ⟨?_, nofun⟩
    have hstatus : (onDisk ledger).status ≠ .enabled := hne
    simp [restore, hstatus]
  place m hm := by cases hm
  found m hm := by cases hm
  transition m hm := by cases hm
  disabling m hm := by cases hm
  past c hc := by cases hc
  through c hc := by cases hc
  drain hc := by cases hc
  single := Nat.zero_le _
  taking c hc := by cases hc

/-! ### The closes and the activities, as lists -/

variable {closes : List CloseAt} {i : Nat} {place : CloseAt}

theorem countP_set_le (hplace : place.takesDown = false) :
    (closes.set i place).countP CloseAt.takesDown ≤ closes.countP CloseAt.takesDown := by
  induction closes generalizing i with
  | nil => exact Nat.le_refl _
  | cons c closes ih =>
    cases i with
    | zero =>
      simp only [set_cons_zero, countP_cons, hplace]
      simp
    | succ i =>
      simp only [set_cons_succ, countP_cons]
      exact Nat.add_le_add_right ih _

theorem countP_set_same {c : CloseAt} (hc : closes[i]? = some c)
    (hplace : place.takesDown = c.takesDown) :
    (closes.set i place).countP CloseAt.takesDown = closes.countP CloseAt.takesDown := by
  induction closes generalizing i with
  | nil => rfl
  | cons d closes ih =>
    cases i with
    | zero =>
      have heq : d = c := some.inj hc
      simp only [set_cons_zero, countP_cons, hplace, heq]
    | succ i =>
      simp only [set_cons_succ, countP_cons]
      rw [ih hc]

theorem not_mem_set_draining (hi : closes[i]? = some .draining)
    (hsingle : closes.countP CloseAt.takesDown ≤ 1) (hplace : place ≠ .draining) :
    .draining ∉ closes.set i place := by
  induction closes generalizing i with
  | nil => cases hi
  | cons c closes ih =>
    rw [countP_cons] at hsingle
    cases i with
    | zero =>
      have heq : c = .draining := some.inj hi
      rw [heq, if_pos (show CloseAt.takesDown .draining = true from rfl)] at hsingle
      rw [set_cons_zero, mem_cons, not_or]
      refine ⟨hplace.symm, fun hmem => ?_⟩
      have hpos : 0 < closes.countP CloseAt.takesDown :=
        countP_pos_iff.mpr ⟨_, hmem, rfl⟩
      omega
    | succ i =>
      have hi : closes[i]? = some .draining := hi
      have hpos : 0 < closes.countP CloseAt.takesDown :=
        countP_pos_iff.mpr ⟨_, mem_of_getElem? hi, rfl⟩
      rw [set_cons_succ, mem_cons, not_or]
      refine ⟨fun heq => ?_, ih hi (by omega)⟩
      rw [← heq, if_pos (show CloseAt.takesDown .draining = true from rfl)] at hsingle
      omega

theorem countP_set_draining (i : Nat) (hnone : closes.countP CloseAt.takesDown = 0) :
    (closes.set i .draining).countP CloseAt.takesDown ≤ 1 := by
  induction closes generalizing i with
  | nil => exact Nat.zero_le _
  | cons c closes ih =>
    rw [countP_cons] at hnone
    cases i with
    | zero =>
      rw [set_cons_zero, countP_cons,
        if_pos (show CloseAt.takesDown .draining = true from rfl)]
      omega
    | succ i =>
      have hrest := ih i (by omega)
      rw [set_cons_succ, countP_cons]
      omega

omit [Inhabited κ] in
theorem forall_cancelAll (s : PluginHost κ) :
    ∀ a ∈ s.cancelAll.inflight, a.cancelled = true := by
  intro a ha
  obtain ⟨x, -, rfl⟩ := List.mem_map.mp ha
  rfl

namespace Inv

/-! ### Answers and places -/

variable {call : PluginCall} {result : Except PluginError Unit} {ok : Bool} {i : Nat}

theorem answer (h : s.Inv) {ledgerBefore : PluginRecord κ} {statusBefore : PluginStatus}
    (hgood : ∀ a ∈ (s.answer call result ledgerBefore statusBefore).answers.head?, a.Good) :
    (s.answer call result ledgerBefore statusBefore).Inv :=
  { h with
    answered := fun a ha => by
      rcases mem_cons.mp ha with rfl | hold
      · exact hgood _ rfl
      · exact h.answered a hold
    place := h.place }

theorem refuse (h : s.Inv) (call : PluginCall) (e : PluginError) :
    (s.answerAtOnce call (.error e)).Inv := by
  refine h.answer fun a ha => ?_
  cases ha
  exact ⟨rfl, rfl⟩

theorem finish (h : s.Inv) (hpromise : (onDisk s.ledger).status = s.promised)
    (hagree : s.takenDown = false → s.status = s.promised)
    (hstopped : s.status ≠ .enabled → s.takenDown = false → s.running = false ∧ ∀ a ∈ s.inflight, a.cancelled = true)
    (hgood : ∀ a ∈ (s.finish m call result).answers.head?, a.Good) :
    (s.finish m call result).Inv := by
  refine Inv.answer (s := { s with mutation := none }) ?_ hgood
  exact
    { h with
      promise := fun _ => hpromise
      agree := fun hdown _ => hagree hdown
      stopped := fun hne hdown _ => hstopped hne hdown
      place := nofun
      found := nofun
      transition := nofun
      disabling := nofun }

/-- The call under way moves on, still moving the status or still not, still a `disable` or
still none. -/
theorem goOn (h : s.Inv) (hm : s.mutation = some m) {place : MutationAt κ}
    (htransition : place.isTransition = m.place.isTransition)
    (hdisable : place.isDisable = m.place.isDisable)
    (hplace : (s.goOn m place).PlaceHolds { m with place := place }) : (s.goOn m place).Inv :=
  { h with
    promise := fun hnone => h.promise fun m' hm' => by
      cases hm.symm.trans hm'
      exact htransition ▸ hnone _ rfl
    agree := fun hdown hnone => h.agree hdown fun m' hm' => by
      cases hm.symm.trans hm'
      exact hdisable ▸ hnone _ rfl
    stopped := fun hne hdown hnone => h.stopped hne hdown fun m' hm' => by
      cases hm.symm.trans hm'
      exact hdisable ▸ hnone _ rfl
    place := fun m' hm' => by
      cases hm'
      exact hplace
    found := fun m' hm' hnot => by
      cases hm'
      exact h.found m hm (hdisable ▸ hnot)
    transition := fun m' hm' hmoves => by
      cases hm'
      exact h.transition m hm (htransition ▸ hmoves)
    disabling := fun m' hm' hdis => by
      cases hm'
      exact h.disabling m hm (hdisable ▸ hdis) }

theorem status_of_ledger (h : s.Inv) (hdown : s.takenDown = false)
    (hnone : ∀ m ∈ s.mutation, m.place.isTransition = false) :
    (onDisk s.ledger).status = s.status := by
  refine (h.promise hnone).trans (h.agree hdown fun m hm => ?_).symm
  have hm' := hnone m hm
  cases hplace : m.place <;> rw [hplace] at hm' <;> first | rfl | cases hm'

/-! ### The calls -/

theorem begin_ (h : s.Inv) (hnone : s.mutation = none) {place : MutationAt κ}
    (hdisable : place.isDisable = false)
    (hplace : (s.begin_ place).PlaceHolds
      { place := place, ledger := onDisk s.ledger, status := s.status }) :
    (s.begin_ place).Inv := by
  have hidle : ∀ m ∈ s.mutation, m.place.isTransition = false := fun m hm => by
    rw [hnone] at hm
    cases hm
  have hidle' : ∀ m ∈ s.mutation, m.place.isDisable = false := fun m hm => by
    rw [hnone] at hm
    cases hm
  exact
    { h with
      promise := fun _ => h.promise hidle
      agree := fun hdown _ => h.agree hdown hidle'
      stopped := fun hne hdown _ => h.stopped hne hdown hidle'
      place := fun m hm => by
        cases hm
        exact hplace
      found := fun m hm _ => by
        cases hm
        rfl
      transition := fun m hm _ => by
        cases hm
        exact h.promise hidle
      disabling := fun m hm hdis => by
        cases hm
        rw [hdisable] at hdis
        cases hdis }

omit [Inhabited κ] in
theorem mutation_eq_none (h : ¬s.mutation.isSome = true) : s.mutation = none := by
  simpa using h

theorem idle_of_enabled (h : s.Inv) (henabled : s.status = .enabled) :
    ∀ m ∈ s.mutation, m.place.isTransition = false := by
  intro m hm
  have hplace := h.place m hm
  have hdisabling := h.disabling m hm
  cases hat : m.place <;> simp only [PlaceHolds, hat, MutationAt.isDisable] at hplace hdisabling
  case configPersist => rfl
  case configHook => rfl
  case enablePersist => exact absurd henabled hplace.1
  case enableDir => exact absurd henabled hplace.1
  case enableHook => exact absurd henabled hplace.1
  case enableRollback => exact absurd henabled hplace.1
  all_goals
    have hdisabled := (hdisabling trivial).1
    rw [henabled] at hdisabled
    cases hdisabled

theorem takenDown_of_enabled (h : s.Inv) (henabled : s.status = .enabled) :
    s.takenDown = false := by
  by_contra hdown
  have hstatus := (h.down (by simpa using hdown)).1
  rw [henabled] at hstatus
  cases hstatus

theorem enable (h : s.Inv) (hguard : s.Respects .enable) : s.enable.Inv := by
  unfold PluginHost.enable
  split
  · next henabled =>
    have hidle := h.idle_of_enabled henabled
    have hledger := h.status_of_ledger (h.takenDown_of_enabled henabled) hidle
    have hpromised : s.promised = .enabled := (h.promise hidle).symm.trans (hledger.trans henabled)
    have hsame : s.promise .enabled = s := by
      rw [PluginHost.promise, ← hpromised]
    rw [hsame]
    refine h.answer fun a ha => ?_
    cases ha
    exact ⟨hledger.trans henabled, henabled, hguard henabled⟩
  · next hne =>
    split
    · exact h.refuse .enable .busy
    · next hbusy => exact h.begin_ (mutation_eq_none hbusy) rfl ⟨hne, rfl⟩

theorem disable (h : s.Inv) (hguard : s.Respects .disable) : s.disable.Inv := by
  unfold PluginHost.disable
  split
  · exact h.refuse .disable .invalidTransition
  · next hregistered =>
    split
    · next hdisabled =>
      obtain ⟨hdown, hmutation⟩ := hguard hdisabled
      have hnot : ∀ m ∈ s.mutation, m.place.isDisable = false := fun m hm => by
        rcases hmutation m hm with hidle | hpersist
        · cases hat : m.place <;> rw [hat] at hidle <;> first | rfl | cases hidle
        · rw [hpersist]
          rfl
      have hpromised : s.promised = .disabled := (h.agree hdown hnot).symm.trans hdisabled
      have hledger : (onDisk s.ledger).status = .disabled := by
        by_cases hidle : ∀ m ∈ s.mutation, m.place.isTransition = false
        · exact (h.promise hidle).trans hpromised
        · -- an `enable` that has not written yet
          simp only [not_forall, Bool.not_eq_false] at hidle
          obtain ⟨m, hm, hmoves⟩ := hidle
          have hpersist := (hmutation m hm).resolve_left (by simp [hmoves])
          have hplace := h.place m hm
          simp only [PlaceHolds, hpersist] at hplace
          rw [hplace.2, h.transition m hm hmoves, hpromised]
      have hsame : s.promise .disabled = s := by
        rw [PluginHost.promise, ← hpromised]
      have hstopped := h.stopped (by simp [hdisabled]) hdown hnot
      rw [hsame]
      refine h.answer fun a ha => ?_
      cases ha
      exact ⟨hledger, hdisabled, hstopped.1, hstopped.2⟩
    · next hdisabled =>
      split
      · exact h.refuse .disable .busy
      · next hbusy =>
        have hnone := mutation_eq_none hbusy
        have henabled : s.status = .enabled := by
          cases hstatus : s.status <;> first | rfl | exact absurd hstatus ‹_›
        have hidle : ∀ m ∈ s.mutation, m.place.isTransition = false := h.idle_of_enabled henabled
        exact
          { h with
            promise := fun hmoves => by cases hmoves _ rfl
            agree := fun _ hdis => by cases hdis _ rfl
            down := fun hdown => ⟨rfl, (h.down hdown).2⟩
            off := fun hpromised => ⟨fun hp => by (cases hp), (h.off hpromised).2⟩
            live := nofun
            stopped := fun _ _ hdis => by cases hdis _ rfl
            place := fun m hm => by
              cases hm
              exact h.live henabled
            found := fun m hm hnot => by
              cases hm
              cases hnot
            transition := fun m hm _ => by
              cases hm
              exact h.promise hidle
            disabling := fun m hm _ => ⟨rfl, h.takenDown_of_enabled henabled⟩
            past := nofun }

theorem setConfig (h : s.Inv) (value : Option κ) : (s.setConfig value).Inv := by
  unfold PluginHost.setConfig
  split
  · exact h.refuse .setConfig .busy
  · next hbusy =>
    cases value with
    | none => exact h.refuse .setConfig .invalidConfig
    | some value => exact h.begin_ (mutation_eq_none hbusy) rfl rfl

/-! ### What is awaited -/

theorem fail (h : s.Inv) (hm : s.mutation = some m) {e : PluginError}
    (hnot : m.place.isDisable = false) (hledger : onDisk s.ledger = m.ledger)
    (hmoves : m.place.isTransition = false → (onDisk s.ledger).status = s.promised) :
    (s.finish m call (.error e)).Inv := by
  have hnone : ∀ m' ∈ s.mutation, m'.place.isDisable = false := fun m' hm' => by
    cases hm.symm.trans hm'
    exact hnot
  refine h.finish ?_ (fun hdown => h.agree hdown hnone)
    (fun hne hdown => h.stopped hne hdown hnone) fun a ha => ?_
  · cases htransition : m.place.isTransition with
    | true => rw [hledger, h.transition m hm htransition]
    | false => exact hmoves htransition
  · cases ha
    exact ⟨hledger, (h.found m hm hnot).symm⟩

theorem promise_of_mutation (h : s.Inv) (hm : s.mutation = some m)
    (hidle : m.place.isTransition = false) : (onDisk s.ledger).status = s.promised :=
  h.promise fun m' hm' => by
    cases hm.symm.trans hm'
    exact hidle

theorem found_of_takenDown (h : s.Inv) (hm : s.mutation = some m)
    (hmoves : m.place.isTransition = true) (hdown : s.takenDown = true) :
    m.ledger.status = .enabled :=
  (h.transition m hm hmoves).trans (h.down hdown).2

theorem enableWritten (h : s.Inv) (hm : s.mutation = some m) (hat : m.place = .enablePersist) :
    ((s.write .enabled s.config).goOn m .enableDir).Inv := by
  have hplace := h.place m hm
  simp only [PlaceHolds, hat] at hplace
  have hnot : m.place.isDisable = false := by rw [hat]; rfl
  have hnone : ∀ m' ∈ s.mutation, m'.place.isDisable = false := fun m' hm' => by
    cases hm.symm.trans hm'
    exact hnot
  exact
    { h with
      config := rfl
      promise := fun hmoves => by cases hmoves _ rfl
      agree := fun hdown _ => h.agree hdown hnone
      stopped := fun hne hdown _ => h.stopped hne hdown hnone
      place := fun m' hm' => by
        cases hm'
        exact ⟨hplace.1, rfl, by rw [← hplace.2]; exact h.config⟩
      found := fun m' hm' _ => by
        cases hm'
        exact h.found m hm hnot
      transition := fun m' hm' _ => by
        cases hm'
        exact h.transition m hm (by rw [hat]; rfl)
      disabling := fun m' hm' hdis => by
        cases hm'
        cases hdis }

theorem writeAndFinish (h : s.Inv) {status promised : PluginStatus} (hwritten : status = promised)
    (hagree : s.takenDown = false → s.status = promised)
    (hdown : s.takenDown = true → promised = .enabled)
    (hoff : promised = .disabled → s.status ≠ .enabled ∧ ∀ a ∈ s.inflight, a.cancelled = true)
    (hstopped : s.status ≠ .enabled → s.takenDown = false → s.running = false ∧ ∀ a ∈ s.inflight, a.cancelled = true)
    (hgood : ∀ a ∈ (((s.write status s.config).promise promised).finish m call result).answers.head?, a.Good) :
    (((s.write status s.config).promise promised).finish m call result).Inv := by
  refine Inv.answer (s := { (s.write status s.config).promise promised with mutation := none }) ?_
    hgood
  exact
    { h with
      config := rfl
      promise := fun _ => hwritten
      agree := fun hup _ => hagree hup
      down := fun htaken => ⟨(h.down htaken).1, hdown htaken⟩
      off := hoff
      stopped := fun hne hup _ => hstopped hne hup
      place := nofun
      found := nofun
      transition := nofun
      disabling := nofun }

theorem rolledBack (h : s.Inv) (hm : s.mutation = some m) (hat : m.place = .enableRollback)
    (hdown : s.takenDown = false) :
    ((s.write s.status s.config).finish m .enable (.error .enableFailed)).Inv := by
  have hplace := h.place m hm
  simp only [PlaceHolds, hat] at hplace
  have hnone : ∀ m' ∈ s.mutation, m'.place.isDisable = false := fun m' hm' => by
    cases hm.symm.trans hm'
    rw [hat]
    rfl
  have hstatus : s.status = s.promised := h.agree hdown hnone
  have hfound : m.ledger.status = s.promised := h.transition m hm (by rw [hat]; rfl)
  refine h.writeAndFinish hstatus (fun _ => hstatus) (fun htaken => (h.down htaken).2) h.off
    (fun hne hup => h.stopped hne hup hnone) fun a ha => ?_
  cases ha
  refine ⟨?_, (h.found m hm (by rw [hat]; rfl)).symm⟩
  show (⟨s.status, s.config⟩ : PluginRecord κ) = m.ledger
  rw [hstatus, ← hfound, ← hplace.2.2]

theorem disableWritten (h : s.Inv) (hm : s.mutation = some m) (hat : m.place = .disablePersist) :
    (((s.write .disabled s.config).promise .disabled).finish m .disable (.ok ())).Inv := by
  have hplace := h.place m hm
  simp only [PlaceHolds, hat] at hplace
  obtain ⟨hdisabled, hup⟩ := h.disabling m hm (by rw [hat]; rfl)
  refine h.writeAndFinish rfl (fun _ => hdisabled) (fun htaken => ?_)
    (fun _ => ⟨by simp [hdisabled], hplace.2⟩) (fun _ _ => hplace) fun a ha => ?_
  · rw [hup] at htaken
    cases htaken
  · cases ha
    exact ⟨rfl, hdisabled, hplace.1, hplace.2⟩

theorem configWritten (h : s.Inv) (hm : s.mutation = some m) {status : PluginStatus} {value : κ}
    (hat : m.place = .configPersist status value) (hstatus : status = (onDisk s.ledger).status) :
    ({ s.write status value with config := value }.goOn m .configHook).Inv := by
  have hidle : m.place.isTransition = false := by rw [hat]; rfl
  have hnot : m.place.isDisable = false := by rw [hat]; rfl
  have hnone : ∀ m' ∈ s.mutation, m'.place.isDisable = false := fun m' hm' => by
    cases hm.symm.trans hm'
    exact hnot
  exact
    { h with
      config := rfl
      promise := fun _ => hstatus.trans (h.promise_of_mutation hm hidle)
      agree := fun hup _ => h.agree hup hnone
      stopped := fun hne hup _ => h.stopped hne hup hnone
      place := fun m' hm' => by
        cases hm'
        trivial
      found := fun m' hm' _ => by
        cases hm'
        exact h.found m hm hnot
      transition := fun m' hm' hmoves => by
        cases hm'
        cases hmoves
      disabling := fun m' hm' hdis => by
        cases hm'
        cases hdis }

theorem persistEnds (h : s.Inv) {o : PersistEnd} (hguard : s.Respects (.persistEnds o))
    (hm : s.mutation = some m) (hs : s.persistEnds m o = some s') : s'.Inv := by
  have hplace := h.place m hm
  have hguard := hguard m hm
  unfold PluginHost.persistEnds at hs
  cases hat : m.place with
  | enablePersist =>
    simp only [hat, PlaceHolds] at hs hplace
    have hfail : ∀ e, (s.finish m .enable (.error e)).Inv := fun e =>
      h.fail hm (by rw [hat]; rfl) hplace.2 fun hidle => by
        rw [hat] at hidle
        cases hidle
    cases o with
    | landed =>
      cases hs
      exact h.enableWritten hm hat
    | lock =>
      cases hs
      exact hfail .lock
    | threw =>
      cases hs
      exact hfail .threw
  | enableRollback =>
    simp only [hat, PlaceHolds, MayEnd] at hs hplace hguard
    -- behind a close the ledger still holds what the call found, and is left alone
    have hfail : ∀ e, s.takenDown = true → (s.finish m .enable (.error e)).Inv := fun e hdown => by
      refine h.fail hm (by rw [hat]; rfl) ?_ fun hidle => by
        rw [hat] at hidle
        cases hidle
      rw [hplace.2.1, ← hplace.2.2, ← h.found_of_takenDown hm (by rw [hat]; rfl) hdown]
    cases o with
    | landed =>
      cases hs
      exact h.rolledBack hm hat (hguard.mp rfl)
    | lock =>
      cases hs
      exact hfail .enableFailed (by simpa using hguard)
    | threw =>
      cases hs
      exact hfail .threw (by simpa using hguard)
  | disablePersist =>
    simp only [hat, MayEnd] at hs hguard
    subst hguard
    cases hs
    exact h.disableWritten hm hat
  | configPersist status value =>
    simp only [hat, PlaceHolds, MayEnd] at hs hplace hguard
    have hidle : m.place.isTransition = false := by rw [hat]; rfl
    have hfail : ∀ e, (s.finish m .setConfig (.error e)).Inv := fun e =>
      h.fail hm (by rw [hat]; rfl) hplace fun _ => h.promise_of_mutation hm hidle
    cases o with
    | landed =>
      cases hs
      exact h.configWritten hm hat (hguard rfl)
    | lock =>
      cases hs
      exact hfail .lock
    | threw =>
      cases hs
      exact hfail .threw
  | _ =>
    simp only [hat] at hs
    cases hs

theorem dirEnds (h : s.Inv) (hguard : s.Respects (.dirEnds ok)) (hm : s.mutation = some m)
    (hs : s.dirEnds m ok = some s') : s'.Inv := by
  have hplace := h.place m hm
  unfold PluginHost.dirEnds at hs
  cases hat : m.place with
  | enableDir =>
    simp only [hat, PlaceHolds, some.injEq] at hs hplace
    cases hok : ok with
    | true =>
      subst hs
      simp only [hok, if_true]
      exact h.goOn hm (by rw [hat]; rfl) (by rw [hat]; rfl) hplace
    | false =>
      subst hs
      have hguard : ok = true ∨ s.takenDown = true := hguard
      have hdown : s.takenDown = true := hguard.resolve_left (by simp [hok])
      simp only [hok, Bool.false_eq_true, if_false]
      refine h.fail hm (by rw [hat]; rfl) ?_ fun hidle => by
        rw [hat] at hidle
        cases hidle
      rw [hplace.2.1, ← hplace.2.2, ← h.found_of_takenDown hm (by rw [hat]; rfl) hdown]
  | _ =>
    simp only [hat] at hs
    cases hs

/-- **`onEnable` comes back**: the plugin is enabled in all three places, and no close is past
it. -/
theorem enabled (h : s.Inv) (hm : s.mutation = some m) (hat : m.place = .enableHook)
    (hcloses : ∀ c ∈ s.closes, c.isPast = false) :
    (({ s with disposed := false, status := .enabled, running := true,
                takenDown := false }.promise .enabled).finish m .enable (.ok ())).Inv := by
  have hplace := h.place m hm
  simp only [PlaceHolds, hat] at hplace
  refine Inv.answer (s := { s with
    disposed := false, status := .enabled, running := true, takenDown := false,
    promised := .enabled, mutation := none }) ?_ fun a ha => ?_
  · exact
      { h with
        promise := fun _ => by rw [hplace.2.1]
        agree := fun _ _ => rfl
        down := nofun
        off := nofun
        live := fun _ => rfl
        stopped := fun hne => absurd rfl hne
        place := nofun
        found := nofun
        transition := nofun
        disabling := nofun
        past := fun c hc hpast => by
          rw [hcloses c hc] at hpast
          cases hpast
        through := fun c hc hthrough => by
          have hpast := hcloses c hc
          rw [CloseAt.isPast_of_isThrough hthrough] at hpast
          cases hpast
        drain := fun _ => rfl
        taking := fun c hc htakes => by
          have hpast := hcloses c hc
          rw [CloseAt.isPast_of_takesDown htakes] at hpast
          cases hpast }
  · cases ha
    refine ⟨?_, rfl, rfl⟩
    show (onDisk s.ledger).status = .enabled
    rw [hplace.2.1]

theorem hookEnds (h : s.Inv) (hguard : s.Respects (.hookEnds ok)) (hm : s.mutation = some m)
    (hs : s.hookEnds m ok = some s') : s'.Inv := by
  have hplace := h.place m hm
  have hguard := hguard m hm
  unfold PluginHost.hookEnds at hs
  cases hat : m.place with
  | enableHook =>
    simp only [hat, PlaceHolds, some.injEq] at hs hplace
    subst hs
    cases hok : ok with
    | true => exact h.enabled hm hat (hguard hat hok)
    | false => exact h.goOn hm (by rw [hat]; rfl) (by rw [hat]; rfl) hplace
  | configHook =>
    simp only [hat, some.injEq] at hs
    subst hs
    have hnone : ∀ m' ∈ s.mutation, m'.place.isDisable = false := fun m' hm' => by
      cases hm.symm.trans hm'
      rw [hat]
      rfl
    refine h.finish (h.promise_of_mutation hm (by rw [hat]; rfl)) (fun hup => h.agree hup hnone)
      (fun hne hup => h.stopped hne hup hnone) fun a ha => ?_
    cases ha
    trivial
  | _ =>
    simp only [hat] at hs
    cases hs

/-! ### The drain -/

theorem cancelAll (h : s.Inv) : s.cancelAll.Inv :=
  { h with
    off := fun hpromised => ⟨(h.off hpromised).1, s.forall_cancelAll⟩
    stopped := fun hne hup hnone => ⟨(h.stopped hne hup hnone).1, s.forall_cancelAll⟩
    place := fun m hm => by
      have hplace := h.place m hm
      cases hat : m.place <;> simp only [PlaceHolds, hat] at hplace ⊢
      case grace => exact ⟨hplace.1, s.forall_cancelAll⟩
      case disposing => exact s.forall_cancelAll
      case disablePersist => exact ⟨hplace.1, s.forall_cancelAll⟩
      all_goals exact hplace }

theorem dispose (h : s.Inv) (hm : s.mutation = some m)
    (hat : m.place = .draining ∨ m.place = .grace) (hlive : s.disposed = false)
    (hcancelled : ∀ a ∈ s.inflight, a.cancelled = true) : (s.dispose m).Inv := by
  have hmoves : m.place.isTransition = true := by rcases hat with hat | hat <;> rw [hat] <;> rfl
  have hdisable : m.place.isDisable = true := by rcases hat with hat | hat <;> rw [hat] <;> rfl
  obtain ⟨hdisabled, hup⟩ := h.disabling m hm hdisable
  unfold PluginHost.dispose
  rw [if_neg (by simp [hlive])]
  exact
    { h with
      promise := fun hnone => by cases hnone _ rfl
      agree := fun _ hnone => by cases hnone _ rfl
      live := fun henabled => by
        rw [show _ = PluginStatus.disabled from hdisabled] at henabled
        cases henabled
      stopped := fun _ _ hnone => by cases hnone _ rfl
      place := fun m' hm' => by
        cases hm'
        exact hcancelled
      found := fun m' hm' hnot => by
        cases hm'
        cases hnot
      transition := fun m' hm' _ => by
        cases hm'
        exact h.transition m hm hmoves
      disabling := fun m' hm' _ => by
        cases hm'
        exact ⟨hdisabled, hup⟩
      drain := fun hdraining => by
        -- no close has the runtime in hand
        have htaken := h.taking _ hdraining rfl
        rw [hup] at htaken
        cases htaken }

theorem drainPoll (h : s.Inv) {late : Bool} (hm : s.mutation = some m)
    (hs : s.drainPoll m late = some s') : s'.Inv := by
  have hplace := h.place m hm
  unfold PluginHost.drainPoll at hs
  cases hat : m.place with
  | draining =>
    simp only [hat, PlaceHolds] at hs hplace
    split at hs
    · next hempty =>
      cases hs
      refine h.dispose hm (Or.inl hat) hplace fun a ha => ?_
      rw [List.isEmpty_iff.mp hempty] at ha
      cases ha
    · obtain ⟨-, hs⟩ := ite_none_right_eq_some.mp hs
      cases hs
      exact h.cancelAll.goOn hm (by rw [hat]; rfl) (by rw [hat]; rfl)
        ⟨hplace, s.forall_cancelAll⟩
  | grace =>
    simp only [hat, PlaceHolds, some.injEq] at hs hplace
    subst hs
    exact h.dispose hm (Or.inr hat) hplace.1 hplace.2
  | _ =>
    simp only [hat] at hs
    cases hs

theorem disposeEnds (h : s.Inv) (hguard : s.Respects (.disposeEnds ok)) (hm : s.mutation = some m)
    (hs : s.disposeEnds m ok = some s') : s'.Inv := by
  have hplace := h.place m hm
  unfold PluginHost.disposeEnds at hs
  cases hat : m.place with
  | disposing =>
    have hok : ok = true := hguard
    simp only [hat, PlaceHolds, hok, if_true, some.injEq] at hs hplace
    subst hs
    have hstopped : ({ s with running := false } : PluginHost κ).Inv :=
      { h with
        stopped := fun hne hup hnone => ⟨rfl, (h.stopped hne hup hnone).2⟩
        place := fun m' hm' => by
          cases hm.symm.trans hm'
          simpa only [PlaceHolds, hat] using hplace
        through := fun _ _ _ => rfl }
    exact hstopped.goOn hm (by rw [hat]; rfl) (by rw [hat]; rfl) ⟨rfl, hplace⟩
  | _ =>
    simp only [hat] at hs
    cases hs

/-! ### Activities -/

theorem beginActivity (h : s.Inv) (hs : s.beginActivity = some s') : s'.Inv := by
  obtain ⟨henabled, hs⟩ := ite_none_right_eq_some.mp hs
  cases hs
  have hidle := h.idle_of_enabled henabled
  exact
    { h with
      off := fun hpromised => absurd henabled (h.off hpromised).1
      stopped := fun hne => absurd henabled hne
      place := fun m hm => by
        have hplace := h.place m hm
        have hmoves := hidle m hm
        cases hat : m.place <;> rw [hat] at hmoves <;> cases hmoves
        case configPersist => simpa only [PlaceHolds, hat] using hplace
        case configHook => simp only [PlaceHolds, hat] }

theorem endActivity (h : s.Inv) (handle : Nat) : (s.endActivity handle).Inv := by
  have hfewer : (∀ a ∈ s.inflight, a.cancelled = true) →
      ∀ a ∈ (s.endActivity handle).inflight, a.cancelled = true := fun hall a ha =>
    hall a ((mem_filter.mp ha).1)
  exact
    { h with
      off := fun hpromised => ⟨(h.off hpromised).1, hfewer (h.off hpromised).2⟩
      stopped := fun hne hup hnone =>
        ⟨(h.stopped hne hup hnone).1, hfewer (h.stopped hne hup hnone).2⟩
      place := fun m hm => by
        have hplace := h.place m hm
        cases hat : m.place <;> simp only [PlaceHolds, hat] at hplace ⊢
        case grace => exact ⟨hplace.1, hfewer hplace.2⟩
        case disposing => exact hfewer hplace
        case disablePersist => exact ⟨hplace.1, hfewer hplace.2⟩
        all_goals exact hplace }

/-! ### Closes -/

theorem moveClose (h : s.Inv) {place : CloseAt} (hpast : place.isPast = true → s.status ≠ .enabled)
    (hthrough : place.isThrough = true → s.running = false)
    (hdrain : place = .draining → s.disposed = false)
    (hsingle : (s.closes.set i place).countP CloseAt.takesDown ≤ 1)
    (htaking : place.takesDown = true → s.takenDown = true) : (s.moveClose i place).Inv :=
  { h with
    past := fun c hc hp => by
      rcases mem_or_eq_of_mem_set hc with hold | rfl
      · exact h.past c hold hp
      · exact hpast hp
    through := fun c hc hp => by
      rcases mem_or_eq_of_mem_set hc with hold | rfl
      · exact h.through c hold hp
      · exact hthrough hp
    drain := fun hc => by
      rcases mem_or_eq_of_mem_set hc with hold | heq
      · exact h.drain hold
      · exact hdrain heq.symm
    single := hsingle
    taking := fun c hc hp => by
      rcases mem_or_eq_of_mem_set hc with hold | rfl
      · exact h.taking c hold hp
      · exact htaking hp }

theorem closeBegin (h : s.Inv) : ({ s with closes := s.closes ++ [.entered] } : PluginHost κ).Inv :=
  { h with
    past := fun c hc hp => by
      rcases mem_append.mp hc with hold | hnew
      · exact h.past c hold hp
      · rw [mem_singleton.mp hnew] at hp
        cases hp
    through := fun c hc hp => by
      rcases mem_append.mp hc with hold | hnew
      · exact h.through c hold hp
      · rw [mem_singleton.mp hnew] at hp
        cases hp
    drain := fun hc => by
      rcases mem_append.mp hc with hold | hnew
      · exact h.drain hold
      · cases mem_singleton.mp hnew
    single := by
      rw [countP_append]
      exact h.single
    taking := fun c hc hp => by
      rcases mem_append.mp hc with hold | hnew
      · exact h.taking c hold hp
      · rw [mem_singleton.mp hnew] at hp
        cases hp }

/-- **A close comes to the plugin**: enabled, it takes it down; else the runtime is down. -/
theorem closeVisit (h : s.Inv) (hguard : s.Respects (.closeVisit i)) : (s.closeVisit i).Inv := by
  have hguard : s.status = .enabled ∨ s.running = false := hguard
  unfold PluginHost.closeVisit
  split
  · next hne =>
    have hcount : (s.closes.set i .passed).countP CloseAt.takesDown
        ≤ s.closes.countP CloseAt.takesDown := countP_set_le rfl
    exact h.moveClose (fun _ => hne) (fun _ => hguard.resolve_left hne) nofun
      (Nat.le_trans hcount h.single) nofun
  · next henabled =>
    have henabled : s.status = .enabled := not_not.mp henabled
    have hidle := h.idle_of_enabled henabled
    have hup := h.takenDown_of_enabled henabled
    have hpromised : s.promised = .enabled :=
      (h.promise hidle).symm.trans ((h.status_of_ledger hup hidle).trans henabled)
    -- no other close is past the plugin
    have hbefore : ∀ c ∈ s.closes, c.isPast = false := fun c hc => by
      by_contra hpast
      exact h.past c hc (by simpa using hpast) henabled
    have hnone : s.closes.countP CloseAt.takesDown = 0 := by
      rw [countP_eq_zero]
      intro c hc htakes
      have hpast := hbefore c hc
      rw [CloseAt.isPast_of_takesDown htakes] at hpast
      cases hpast
    have htaken : ({ s with
        status := .disabled, takenDown := true,
        mutation := s.mutation.map fun m => { m with status := .disabled } } : PluginHost κ).Inv :=
      { h with
        promise := fun _ => h.promise hidle
        agree := nofun
        down := fun _ => ⟨rfl, hpromised⟩
        off := fun hp => by
          rw [show _ = PluginStatus.enabled from hpromised] at hp
          cases hp
        live := nofun
        stopped := nofun
        place := fun m' hm' => by
          obtain ⟨m, hm, rfl⟩ := map_eq_some_iff.mp hm'
          have hplace := h.place m hm
          have hmoves := hidle m hm
          cases hat : m.place <;> rw [hat] at hmoves <;> cases hmoves
          case configPersist => simpa only [PlaceHolds, hat] using hplace
          case configHook => simp only [PlaceHolds]
        found := fun m' hm' _ => by
          obtain ⟨m, hm, rfl⟩ := map_eq_some_iff.mp hm'
          rfl
        transition := fun m' hm' hmoves => by
          obtain ⟨m, hm, rfl⟩ := map_eq_some_iff.mp hm'
          have hnot := hidle m hm
          rw [show _ = true from hmoves] at hnot
          cases hnot
        disabling := fun m' hm' hdis => by
          obtain ⟨m, hm, rfl⟩ := map_eq_some_iff.mp hm'
          have hnot := hidle m hm
          cases hat : m.place <;> simp [hat, MutationAt.isTransition, MutationAt.isDisable]
            at hnot hdis
        past := fun c hc hp _ => by
          rw [hbefore c hc] at hp
          cases hp
        taking := fun _ _ _ => rfl }
    exact htaken.moveClose nofun nofun
      (fun _ => h.live henabled) (countP_set_draining i hnone) fun _ => rfl

theorem closeDrained (h : s.Inv) (hi : s.closes[i]? = some .draining) : (s.closeDrained i).Inv := by
  have hmem : CloseAt.draining ∈ s.closes := mem_of_getElem? hi
  have hlive := h.drain hmem
  have htaken := h.taking _ hmem rfl
  have hne := h.past _ hmem rfl
  unfold PluginHost.closeDrained
  rw [if_neg (by simp [hlive])]
  have hcancelled := h.cancelAll
  have hnot : .draining ∉ s.closes.set i .disposing :=
    not_mem_set_draining hi h.single (by decide)
  have hsame : (s.closes.set i .disposing).countP CloseAt.takesDown
      = s.closes.countP CloseAt.takesDown := countP_set_same hi rfl
  exact
    { hcancelled with
      live := fun henabled => absurd henabled hne
      place := fun m hm => by
        have hplace := hcancelled.place m hm
        have hdisabling := h.disabling m hm
        cases hat : m.place <;>
          simp only [PlaceHolds, hat, MutationAt.isDisable] at hplace hdisabling ⊢
        -- no `disable` is under way
        case draining => exact absurd htaken (by simp [(hdisabling trivial).2])
        case grace => exact absurd htaken (by simp [(hdisabling trivial).2])
        all_goals exact hplace
      past := fun c hc hp => by
        rcases mem_or_eq_of_mem_set hc with hold | rfl
        · exact h.past c hold hp
        · exact hne
      through := fun c hc hp => by
        rcases mem_or_eq_of_mem_set hc with hold | rfl
        · exact h.through c hold hp
        · cases hp
      drain := fun hc => absurd hc hnot
      single := Nat.le_trans (Nat.le_of_eq hsame) h.single
      taking := fun _ _ _ => htaken }

theorem closeDisposeEnds (h : s.Inv) (ok : Bool) (hi : s.closes[i]? = some .disposing) :
    (s.closeDisposeEnds i ok).Inv := by
  have hne := h.past _ (mem_of_getElem? hi) rfl
  have hpassed : (s.closes.set i .passed).countP CloseAt.takesDown
      ≤ s.closes.countP CloseAt.takesDown := countP_set_le rfl
  have hrejected : (s.closes.set i .rejected).countP CloseAt.takesDown
      ≤ s.closes.countP CloseAt.takesDown := countP_set_le rfl
  unfold PluginHost.closeDisposeEnds
  split
  · have hstopped : ({ s with running := false } : PluginHost κ).Inv :=
      { h with
        stopped := fun hne hup hnone => ⟨rfl, (h.stopped hne hup hnone).2⟩
        place := fun m hm => by
          have hplace := h.place m hm
          cases hat : m.place <;> simp only [PlaceHolds, hat] at hplace ⊢
          case disablePersist => exact ⟨trivial, hplace.2⟩
          all_goals exact hplace
        through := fun _ _ _ => rfl }
    exact hstopped.moveClose (fun _ => hne) (fun _ => rfl) nofun
      (Nat.le_trans hpassed h.single) nofun
  · exact h.moveClose nofun nofun nofun
      (Nat.le_trans hrejected h.single) nofun

theorem closeReturn (h : s.Inv) (hi : s.closes[i]? = some .passed) :
    (s.moveClose i .returned).Inv := by
  have hmem := mem_of_getElem? hi
  have hsame : (s.closes.set i .returned).countP CloseAt.takesDown
      = s.closes.countP CloseAt.takesDown := countP_set_same hi rfl
  exact h.moveClose (fun _ => h.past _ hmem rfl) (fun _ => h.through _ hmem rfl)
    nofun (Nat.le_trans (Nat.le_of_eq hsame) h.single)
    nofun

/-! ### Every step -/

/-- **Every step that respects the guard keeps the invariant.** -/
theorem step (h : s.Inv) {l : PluginLabel κ} (hguard : s.Respects l) (hs : s.step l = some s') :
    s'.Inv := by
  cases l with
  | enable =>
    cases hs
    exact h.enable hguard
  | disable =>
    cases hs
    exact h.disable hguard
  | setConfig value =>
    cases hs
    exact h.setConfig value
  | persistEnds o =>
    obtain ⟨m, hm, hs⟩ := bind_eq_some_iff.mp hs
    exact h.persistEnds hguard hm hs
  | dirEnds ok =>
    obtain ⟨m, hm, hs⟩ := bind_eq_some_iff.mp hs
    exact h.dirEnds hguard hm hs
  | hookEnds ok =>
    obtain ⟨m, hm, hs⟩ := bind_eq_some_iff.mp hs
    exact h.hookEnds hguard hm hs
  | drainPoll late =>
    obtain ⟨m, hm, hs⟩ := bind_eq_some_iff.mp hs
    exact h.drainPoll hm hs
  | disposeEnds ok =>
    obtain ⟨m, hm, hs⟩ := bind_eq_some_iff.mp hs
    exact h.disposeEnds hguard hm hs
  | beginActivity => exact h.beginActivity hs
  | endActivity handle =>
    cases hs
    exact h.endActivity handle
  | closeBegin =>
    cases hs
    exact h.closeBegin
  | closeVisit i =>
    obtain ⟨-, hs⟩ := ite_none_right_eq_some.mp hs
    cases hs
    exact h.closeVisit hguard
  | closeDrained i =>
    obtain ⟨hi, hs⟩ := ite_none_right_eq_some.mp hs
    cases hs
    exact h.closeDrained hi
  | closeDisposeEnds i ok =>
    obtain ⟨hi, hs⟩ := ite_none_right_eq_some.mp hs
    cases hs
    exact h.closeDisposeEnds ok hi
  | closeReturn i =>
    obtain ⟨hi, hs⟩ := ite_none_right_eq_some.mp hs
    cases hs
    exact h.closeReturn hi

theorem lifecycleAgrees (h : s.Inv) : s.LifecycleAgrees where
  answered := h.answered
  restores hidle := by
    have hstatus := h.promise hidle
    rw [← hstatus, ← h.config]
  off hpromised := by
    obtain ⟨hne, hcancelled⟩ := h.off hpromised
    exact ⟨if_neg hne, hcancelled⟩
  closed hreturned := ⟨h.through _ hreturned rfl, h.past _ hreturned rfl⟩

end Inv

end PluginHost

/-- **Ledger, status and runtime agree** in every run whose steps all respect the guard: every
answer is right, a restart restores what was last promised, nothing is left running after a
`disable`, and nothing runs or starts to after a close. -/
theorem plugin_lifecycle_agrees {s : PluginHost κ}
    (h : (pluginMachine κ).ReachableUnder PluginHost.Respects s) : s.LifecycleAgrees := by
  have hinv : s.Inv :=
    h.invariant
      (fun s hinit => by
        obtain ⟨ledger, hookOk, rfl⟩ := hinit
        exact PluginHost.inv_restore ledger hookOk)
      fun _ _ _ hinv hguard hs => hinv.step hguard hs
  exact hinv.lifecycleAgrees

/-! ## Runs that respect the guard, and one that does not -/

namespace SamplePlugin

/-- Configured, enabled with a hook that fails at first, used, disabled with a cancelled activity,
enabled again and closed. -/
def wholeLife : List (PluginLabel Nat) :=
  [.setConfig (some 7), .persistEnds .landed, .hookEnds false,
    .enable, .disable, .persistEnds .landed, .dirEnds true, .hookEnds false, .persistEnds .landed,
    .enable, .persistEnds .landed, .dirEnds true, .hookEnds true, .beginActivity,
    .disable, .enable, .drainPoll true, .drainPoll false, .disposeEnds true, .persistEnds .landed,
    .endActivity 0,
    .enable, .persistEnds .landed, .dirEnds true, .hookEnds true,
    .closeBegin, .closeVisit 0, .closeDrained 0, .closeDisposeEnds 0 true, .closeReturn 0]

theorem wholeLife_agrees : ∃ s : PluginHost Nat,
    (pluginMachine Nat).run (.restore none true) wholeLife = some s
      ∧ s.ledger = some { status := .enabled, config := 7 } ∧ s.answers.length = 7
      ∧ s.LifecycleAgrees := by
  have hrun : ∃ s : PluginHost Nat,
      (pluginMachine Nat).runUnder PluginHost.Respects (.restore none true) wholeLife = some s
        ∧ (pluginMachine Nat).run (.restore none true) wholeLife = some s
        ∧ s.ledger = some { status := .enabled, config := 7 } ∧ s.answers.length = 7 :=
    ⟨_, rfl, rfl, rfl, rfl⟩
  obtain ⟨s, hunder, hrun, hledger, hanswers⟩ := hrun
  have hreach : (pluginMachine Nat).ReachableUnder PluginHost.Respects s :=
    Machine.reachableUnder_runUnder (.init ⟨none, true, rfl⟩) hunder
  exact ⟨s, hrun, hledger, hanswers, plugin_lifecycle_agrees hreach⟩

def disabledTwice : List (PluginLabel Nat) := [.beginActivity, .disable, .disable]

/-- **The second `disable` is told that all is done** while the first waits for the activity:
the ledger says enabled, the runtime runs and the activity has not been cancelled. -/
theorem second_disable_answers_early : ∃ (s : PluginHost Nat) (a : PluginAnswer Nat),
    (pluginMachine Nat).run (.restore (some { status := .enabled, config := 7 }) true) disabledTwice
        = some s
      ∧ s.answers = [a] ∧ a.call = .disable ∧ a.result = .ok ()
      ∧ a.ledger.status = .enabled ∧ a.running = true
      ∧ a.inflight = [{ handle := 0, cancelled := false }] ∧ ¬s.LifecycleAgrees := by
  refine ⟨_, _, rfl, rfl, rfl, rfl, rfl, rfl, rfl, fun hagrees => ?_⟩
  have hgood := hagrees.answered _ mem_cons_self
  cases hgood.1

end SamplePlugin

end Dweb
