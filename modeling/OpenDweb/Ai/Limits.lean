import OpenDweb.Lib.Machine

/-!
# OpenDweb — admission and quotas of the AI provider

`LimitEnforcer` of `opendweb-ext-ai/src/provider/limits.mjs`, the admission of `request` in
`provider/forward.mjs` and the gate of `wireHandler` in `runtime.mjs`. A step is what runs between
two awaits: `acquire` is cut where it waits for the quota to be loaded, and where it waits for the
quota file.

* **`LimitEnforcer`** — the counters; `acquireCheck` and `acquireCount` are the halves of `acquire`.
* **`aiMachine`** — any number of requests, pulls, cancels and terminals, in any interleaving.
* **`Steady`** — nothing comes between the halves of an `acquire`, writes land in their order, none
  fails, and the gate is not reached while the plane is full.
* **`quotas_hold`** — then the limits hold, and no pull and no cancel is turned away.
* **`SampleQuota.overlapping_requests`** — without it, two requests share one place.
-/

namespace Dweb

open List Option Bool
open Function (update update_of_ne update_self)

/-! ## The counters -/

structure GroupLimits where
  maxConcurrency : Option Nat
  dailyRequests : Option Nat
deriving DecidableEq

/-- `quota-day.json`. The day is that of the clock, in UTC. -/
structure QuotaDay (Key : Type) where
  date : Nat
  counts : Key → Nat

structure LimitEnforcer (Key Group : Type) where
  inflight : Group → Nat
  /-- `none` is the empty date, before anything was loaded. -/
  quotaDate : Option Nat
  quotaCounts : Key → Nat

inductive LimitReject where
  | rate_limited
  | quota_exceeded
deriving DecidableEq

namespace LimitEnforcer

variable {Key Group : Type}

/-- The file is `none` where there is none, or where it is malformed. -/
def ensureQuotaLoaded (own : LimitEnforcer Key Group) (file : Option (QuotaDay Key))
    (today : Nat) : LimitEnforcer Key Group :=
  if own.quotaDate = some today then own
  else
    { own with
      quotaDate := some today
      quotaCounts :=
        match file with
        | some quota => if quota.date = today then quota.counts else fun _ => 0
        | none => fun _ => 0 }

theorem ensureQuotaLoaded_of_eq {own : LimitEnforcer Key Group} {file : Option (QuotaDay Key)}
    {today : Nat} (h : own.quotaDate = some today) : own.ensureQuotaLoaded file today = own := by
  unfold ensureQuotaLoaded
  rw [if_pos h]

@[simp]
theorem ensureQuotaLoaded_inflight (own : LimitEnforcer Key Group) (file : Option (QuotaDay Key))
    (today : Nat) : (own.ensureQuotaLoaded file today).inflight = own.inflight := by
  unfold ensureQuotaLoaded
  split <;> rfl

@[simp]
theorem ensureQuotaLoaded_quotaDate (own : LimitEnforcer Key Group) (file : Option (QuotaDay Key))
    (today : Nat) : (own.ensureQuotaLoaded file today).quotaDate = some today := by
  unfold ensureQuotaLoaded
  split
  · assumption
  · rfl

variable [DecidableEq Key] [DecidableEq Group]

omit [DecidableEq Key] [DecidableEq Group] in
/-- `acquire`, up to its first `await`: the count of the group that it goes on with. -/
def acquireCheck (own : LimitEnforcer Key Group) (limits : GroupLimits)
    (file : Option (QuotaDay Key)) (today : Nat) (group : Group) :
    Except LimitReject (Nat × LimitEnforcer Key Group) :=
  let current := own.inflight group
  if limits.maxConcurrency.any (· ≤ current) then .error .rate_limited
  else .ok (current, own.ensureQuotaLoaded file today)

/-- `acquire`, from there to the write of the file. -/
def acquireCount (own : LimitEnforcer Key Group) (limits : GroupLimits) (key : Key) (group : Group)
    (current : Nat) : Except LimitReject (LimitEnforcer Key Group) :=
  let used := own.quotaCounts key
  if limits.dailyRequests.any (· ≤ used) then .error .quota_exceeded
  else
    .ok { own with
      inflight := update own.inflight group (current + 1)
      quotaCounts := update own.quotaCounts key (used + 1) }

theorem acquireCount_ok {own limiter : LimitEnforcer Key Group} {limits : GroupLimits} {key : Key}
    {group : Group} {current : Nat} (h : own.acquireCount limits key group current = .ok limiter) :
    (∀ max, limits.dailyRequests = some max → own.quotaCounts key < max) ∧
    limiter.inflight = update own.inflight group (current + 1) ∧
    limiter.quotaDate = own.quotaDate ∧
    limiter.quotaCounts = update own.quotaCounts key (own.quotaCounts key + 1) := by
  simp only [acquireCount] at h
  split at h
  · cases h
  · next hdaily =>
    cases h
    refine ⟨?_, rfl, rfl, rfl⟩
    intro max hmax
    rw [hmax] at hdaily
    simpa using hdaily

omit [DecidableEq Key] in
def release (own : LimitEnforcer Key Group) (group : Group) : LimitEnforcer Key Group :=
  { own with inflight := update own.inflight group (own.inflight group - 1) }

omit [DecidableEq Key] in
@[simp]
theorem release_inflight (own : LimitEnforcer Key Group) (group : Group) :
    (own.release group).inflight =
      update own.inflight group (own.inflight group - 1) := rfl

end LimitEnforcer

/-! ## The plane -/

structure AiConfig (Key Group : Type) where
  maxConcurrency : Nat
  groupOf : Key → Group
  limits : Group → GroupLimits

/-- A request that was counted: the number of its write, and the day on which it was. -/
structure QuotaCharge (Key : Type) where
  seq : Nat
  key : Key
  day : Nat
deriving DecidableEq

inductive AiPhase (Key : Type) where
  | checked (current : Nat)
  | writing (charge : QuotaCharge Key) (payload : QuotaDay Key)
  | written (charge : QuotaCharge Key)
  | live

structure AiTask (Key : Type) where
  key : Key
  phase : AiPhase Key

namespace AiTask

variable {Key : Type}

def isLive (task : AiTask Key) : Bool :=
  match task.phase with
  | .live => true
  | _ => false

/-- `acquire` has counted it in. -/
def acquired (task : AiTask Key) : Bool :=
  match task.phase with
  | .checked _ => false
  | _ => true

def charge? (task : AiTask Key) : Option (QuotaCharge Key) :=
  match task.phase with
  | .writing charge _ => some charge
  | .written charge => some charge
  | _ => none

end AiTask

structure AiPlane (Key Group : Type) where
  configMax : Nat
  today : Nat
  limiter : LimitEnforcer Key Group
  file : Option (QuotaDay Key)
  /-- The requests that are admitted and not at their end. -/
  tasks : List (AiTask Key)
  /-- What `acquire` has accepted. -/
  accepted : List (QuotaCharge Key)
  /-- Writes of the file that were started, and the last that landed. -/
  writes : Nat
  landed : Nat
  /-- Pulls and cancels of live responses that were turned away. -/
  refused : Nat

inductive AiLabel (Key : Type) where
  | configure (configMax : Nat)
  | clock (day : Nat)
  /-- `dailyCount`. -/
  | dailyCount
  | request (key : Key)
  | count (i : Nat)
  | land (i : Nat)
  | fail (i : Nat)
  | create (i : Nat)
  | pull (i : Nat)
  | cancel (i : Nat)
  /-- The terminal of a response: its entry goes, and its place. -/
  | terminal (i : Nat)

namespace AiPlane

variable {Key Group : Type}

def activeCount (s : AiPlane Key Group) : Nat := s.tasks.countP AiTask.isLive

/-- The gate of `wireHandler`, on a call for a live response. -/
def gate (s : AiPlane Key Group) : AiPlane Key Group :=
  if s.configMax ≤ s.activeCount then { s with refused := s.refused + 1 } else s

theorem gate_of_lt {s : AiPlane Key Group} (h : s.activeCount < s.configMax) : s.gate = s := by
  rw [gate, if_neg (Nat.not_le_of_lt h)]

variable [DecidableEq Key] [DecidableEq Group]

def step (config : AiConfig Key Group) (s : AiPlane Key Group) :
    AiLabel Key → Option (AiPlane Key Group)
  | .configure configMax => some { s with configMax }
  | .clock day => some { s with today := day }
  | .dailyCount => some { s with limiter := s.limiter.ensureQuotaLoaded s.file s.today }
  | .request key =>
    -- the gate may have let it pass earlier, when there was less in the plane
    if config.maxConcurrency ≤ s.activeCount then some s
    else
      let group := config.groupOf key
      match s.limiter.acquireCheck (config.limits group) s.file s.today group with
      | .error _ => some s
      | .ok (current, limiter) =>
        some { s with limiter, tasks := ⟨key, .checked current⟩ :: s.tasks }
  | .count i =>
    match s.tasks[i]? with
    | some ⟨key, .checked current⟩ =>
      let group := config.groupOf key
      match s.limiter.acquireCount (config.limits group) key group current with
      | .error _ => some { s with tasks := s.tasks.eraseIdx i }
      | .ok limiter =>
        let charge : QuotaCharge Key := ⟨s.writes + 1, key, s.today⟩
        let payload : QuotaDay Key := ⟨limiter.quotaDate.getD 0, limiter.quotaCounts⟩
        some { s with
          limiter
          tasks := s.tasks.set i ⟨key, .writing charge payload⟩
          writes := s.writes + 1 }
    | _ => none
  | .land i =>
    match s.tasks[i]? with
    | some ⟨key, .writing charge payload⟩ =>
      some { s with
        file := some payload
        tasks := s.tasks.set i ⟨key, .written charge⟩
        landed := charge.seq }
    | _ => none
  | .fail i =>
    match s.tasks[i]? with
    | some ⟨_, .writing _ _⟩ => some { s with tasks := s.tasks.eraseIdx i }
    | _ => none
  | .create i =>
    match s.tasks[i]? with
    | some ⟨key, .written charge⟩ =>
      some { s with tasks := s.tasks.set i ⟨key, .live⟩, accepted := charge :: s.accepted }
    | _ => none
  | .pull i =>
    match s.tasks[i]? with
    | some ⟨_, .live⟩ => some s.gate
    | _ => none
  | .cancel i =>
    match s.tasks[i]? with
    | some ⟨_, .live⟩ => some s.gate
    | _ => none
  | .terminal i =>
    match s.tasks[i]? with
    | some ⟨key, .live⟩ =>
      some { s with
        limiter := s.limiter.release (config.groupOf key)
        tasks := s.tasks.eraseIdx i }
    | _ => none

end AiPlane

/-- A process. The file at its start is anything, and so is the day. -/
def aiMachine (Key Group : Type) [DecidableEq Key] [DecidableEq Group]
    (config : AiConfig Key Group) : Machine (AiPlane Key Group) (AiLabel Key) where
  init s := s.tasks = [] ∧ s.accepted = [] ∧ s.writes = 0 ∧ s.landed = 0 ∧ s.refused = 0 ∧
    s.limiter.quotaDate = none ∧ ∀ group, s.limiter.inflight group = 0
  step s l := s.step config l

/-! ## The limits -/

section

variable {Key Group : Type} [DecidableEq Key] [DecidableEq Group]

def QuotaCharge.isOn (day : Nat) (key : Key) (charge : QuotaCharge Key) : Bool :=
  charge.day = day && charge.key = key

def AiPlane.persisted (s : AiPlane Key Group) (day : Nat) (key : Key) : Nat :=
  match s.file with
  | some quota => if quota.date = day then quota.counts key else 0
  | none => 0

def AiTask.holds (config : AiConfig Key Group) (group : Group) (task : AiTask Key) : Bool :=
  config.groupOf task.key = group && task.acquired

/-- **The limits of the plane.** -/
structure QuotasHold (config : AiConfig Key Group) (s : AiPlane Key Group) : Prop where
  active : s.activeCount ≤ config.maxConcurrency
  inflight : ∀ group, s.limiter.inflight group = s.tasks.countP (AiTask.holds config group)
  grouped : ∀ group max, (config.limits group).maxConcurrency = some max →
    s.limiter.inflight group ≤ max
  daily : ∀ day key max, (config.limits (config.groupOf key)).dailyRequests = some max →
    s.accepted.countP (QuotaCharge.isOn day key) ≤ max
  persisted : ∀ key, s.accepted.countP (QuotaCharge.isOn s.today key) ≤ s.persisted s.today key
  refused : s.refused = 0

/-- Between the halves of its `acquire`, the count of the group and the day have stayed. -/
def AiTask.Unmoved (config : AiConfig Key Group) (s : AiPlane Key Group) (task : AiTask Key) :
    Prop :=
  match task.phase with
  | .checked current => s.limiter.inflight (config.groupOf task.key) = current ∧
      s.limiter.quotaDate = some s.today
  | _ => True

def AiTask.Latest (s : AiPlane Key Group) (task : AiTask Key) : Prop :=
  match task.phase with
  | .writing charge _ => s.landed < charge.seq
  | _ => True

/-- **The condition on a step.** -/
def Steady (config : AiConfig Key Group) (s : AiPlane Key Group) : AiLabel Key → Prop
  | .clock day => s.today ≤ day
  | .request _ => s.activeCount < config.maxConcurrency → s.tasks.length < config.maxConcurrency
  | .count i => ∀ task ∈ s.tasks[i]?, task.Unmoved config s
  | .land i => ∀ task ∈ s.tasks[i]?, task.Latest s
  | .fail _ => False
  | .pull _ => s.activeCount < s.configMax
  | .cancel _ => s.activeCount < s.configMax
  | _ => True

omit [DecidableEq Key] [DecidableEq Group] in
instance AiTask.decidableUnmoved (config : AiConfig Key Group) (s : AiPlane Key Group) :
    (task : AiTask Key) → Decidable (task.Unmoved config s)
  | ⟨key, .checked current⟩ => inferInstanceAs (Decidable
      (s.limiter.inflight (config.groupOf key) = current ∧ s.limiter.quotaDate = some s.today))
  | ⟨_, .writing _ _⟩ => isTrue trivial
  | ⟨_, .written _⟩ => isTrue trivial
  | ⟨_, .live⟩ => isTrue trivial

omit [DecidableEq Key] [DecidableEq Group] in
instance AiTask.decidableLatest (s : AiPlane Key Group) :
    (task : AiTask Key) → Decidable (task.Latest s)
  | ⟨_, .checked _⟩ => isTrue trivial
  | ⟨_, .writing charge _⟩ => inferInstanceAs (Decidable (s.landed < charge.seq))
  | ⟨_, .written _⟩ => isTrue trivial
  | ⟨_, .live⟩ => isTrue trivial

omit [DecidableEq Key] [DecidableEq Group] in
instance Steady.decidable (config : AiConfig Key Group) (s : AiPlane Key Group) :
    (l : AiLabel Key) → Decidable (Steady config s l)
  | .configure _ => isTrue trivial
  | .clock day => inferInstanceAs (Decidable (s.today ≤ day))
  | .dailyCount => isTrue trivial
  | .request _ => inferInstanceAs (Decidable
      (s.activeCount < config.maxConcurrency → s.tasks.length < config.maxConcurrency))
  | .count i => inferInstanceAs (Decidable (∀ task ∈ s.tasks[i]?, task.Unmoved config s))
  | .land i => inferInstanceAs (Decidable (∀ task ∈ s.tasks[i]?, task.Latest s))
  | .fail _ => inferInstanceAs (Decidable False)
  | .create _ => isTrue trivial
  | .pull _ => inferInstanceAs (Decidable (s.activeCount < s.configMax))
  | .cancel _ => inferInstanceAs (Decidable (s.activeCount < s.configMax))
  | .terminal _ => isTrue trivial

/-! ## The invariant -/

variable {config : AiConfig Key Group} {s s' : AiPlane Key Group} {cs : List (QuotaCharge Key)}
  {charge : QuotaCharge Key} {payload : QuotaDay Key} {rest : List (AiTask Key)} {key : Key}
  {i n : Nat}

/-- What `acquire` has counted, in this process. -/
def AiPlane.charges (s : AiPlane Key Group) : List (QuotaCharge Key) :=
  s.accepted ++ s.tasks.filterMap AiTask.charge?

/-- A payload that has all that was counted up to the write `n`, on its day. -/
structure QuotaDay.Covers (payload : QuotaDay Key) (cs : List (QuotaCharge Key)) (n : Nat) :
    Prop where
  day : ∀ c ∈ cs, c.seq ≤ n → c.day ≤ payload.date
  counts : ∀ key, (cs.filter (·.seq ≤ n)).countP (QuotaCharge.isOn payload.date key) ≤
    payload.counts key

omit [DecidableEq Group] in
theorem QuotaDay.Covers.perm {cs' : List (QuotaCharge Key)} (h : payload.Covers cs n)
    (hperm : cs'.Perm cs) : payload.Covers cs' n where
  day c hc := h.day c (hperm.subset hc)
  counts key := by
    rw [(hperm.filter _).countP_eq]
    exact h.counts key

theorem QuotaDay.Covers.cons (h : payload.Covers cs n) (hlater : n < charge.seq) :
    payload.Covers (charge :: cs) n where
  day c hc hseq := by
    rcases mem_cons.mp hc with rfl | hc
    · omega
    · exact h.day c hc hseq
  counts key := by
    rw [filter_cons_of_neg (by simpa using hlater)]
    exact h.counts key

structure PlaneInv (config : AiConfig Key Group) (s : AiPlane Key Group) : Prop where
  total : s.tasks.length ≤ config.maxConcurrency
  inflight : ∀ group, s.limiter.inflight group = s.tasks.countP (AiTask.holds config group)
  grouped : ∀ group max, (config.limits group).maxConcurrency = some max →
    s.limiter.inflight group ≤ max
  checked : ∀ key current, ⟨key, .checked current⟩ ∈ s.tasks → ∀ max,
    (config.limits (config.groupOf key)).maxConcurrency = some max → current < max
  loaded : ∀ d, s.limiter.quotaDate = some d → d ≤ s.today
  days : ∀ c ∈ s.charges, ∃ d, s.limiter.quotaDate = some d ∧ c.day ≤ d
  seqs : ∀ c ∈ s.charges, 0 < c.seq ∧ c.seq ≤ s.writes
  daily : ∀ day key max, (config.limits (config.groupOf key)).dailyRequests = some max →
    s.charges.countP (QuotaCharge.isOn day key) ≤ max
  counts : ∀ d, s.limiter.quotaDate = some d → ∀ key,
    s.charges.countP (QuotaCharge.isOn d key) ≤ s.limiter.quotaCounts key
  payloads : ∀ key charge payload, ⟨key, .writing charge payload⟩ ∈ s.tasks →
    payload.Covers s.charges charge.seq ∧ payload.date ≤ s.today
  file : 0 < s.landed → ∃ payload, s.file = some payload ∧ payload.Covers s.charges s.landed ∧
    payload.date ≤ s.today
  landed : s.landed ≤ s.writes
  accepted : ∀ c ∈ s.accepted, c.seq ≤ s.landed
  written : ∀ key charge, ⟨key, .written charge⟩ ∈ s.tasks → charge.seq ≤ s.landed
  refused : s.refused = 0

omit [DecidableEq Group] in
theorem countP_accepted_le (day : Nat) (key : Key) :
    s.accepted.countP (QuotaCharge.isOn day key) ≤ s.charges.countP (QuotaCharge.isOn day key) := by
  rw [AiPlane.charges, countP_append]
  omega

theorem PlaneInv.holds (h : PlaneInv config s) : QuotasHold config s where
  active := Nat.le_trans (countP_le_length) h.total
  inflight := h.inflight
  grouped := h.grouped
  daily day key max hmax := Nat.le_trans (countP_accepted_le day key) (h.daily day key max hmax)
  persisted key := by
    by_cases hnone : s.accepted.countP (QuotaCharge.isOn s.today key) = 0
    · omega
    · -- something was accepted today: the file is of today, and has it
      obtain ⟨c, hc, hon⟩ := countP_pos_iff.mp (Nat.pos_of_ne_zero hnone)
      have hmem : ∀ c ∈ s.accepted, c ∈ s.charges := fun c hc => mem_append_left _ hc
      have hseq := h.accepted c hc
      have hpos := (h.seqs c (hmem c hc)).1
      obtain ⟨payload, hfile, hcovers, hdate⟩ := h.file (by omega)
      have hday : c.day = s.today := by
        simp only [QuotaCharge.isOn, and_eq_true, decide_eq_true_eq] at hon
        exact hon.1
      have htoday : payload.date = s.today := by
        exact Nat.le_antisymm hdate (hday ▸ hcovers.day c (hmem c hc) hseq)
      rw [AiPlane.persisted, hfile]
      show _ ≤ if payload.date = s.today then payload.counts key else 0
      rw [if_pos htoday]
      refine Nat.le_trans ?_ (hcovers.counts key)
      rw [htoday]
      have hsub : s.accepted.Sublist (s.charges.filter (·.seq ≤ s.landed)) := by
        have hall : s.accepted.filter (·.seq ≤ s.landed) = s.accepted := by
          rw [filter_eq_self]
          intro c hc
          simpa using h.accepted c hc
        rw [AiPlane.charges, filter_append, hall]
        exact sublist_append_left _ _
      exact hsub.countP_le
  refused := h.refused

theorem PlaneInv.perm {tasks : List (AiTask Key)} (h : PlaneInv config s)
    (hperm : tasks.Perm s.tasks) : PlaneInv config { s with tasks } := by
  have hcharges : AiPlane.charges { s with tasks } |>.Perm s.charges :=
    List.Perm.append_left _ (hperm.filterMap _)
  exact {
    total := by rw [hperm.length_eq]; exact h.total
    inflight := fun group => by rw [hperm.countP_eq]; exact h.inflight group
    grouped := h.grouped
    checked := fun key current hmem => h.checked key current (hperm.subset hmem)
    loaded := h.loaded
    days := fun c hc => h.days c (hcharges.subset hc)
    seqs := fun c hc => h.seqs c (hcharges.subset hc)
    daily := fun day key max hmax => by rw [hcharges.countP_eq]; exact h.daily day key max hmax
    counts := fun d hd key => by rw [hcharges.countP_eq]; exact h.counts d hd key
    payloads := fun key charge payload hmem =>
      have ⟨hcovers, hdate⟩ := h.payloads key charge payload (hperm.subset hmem)
      ⟨hcovers.perm hcharges, hdate⟩
    file := fun hpos =>
      have ⟨payload, hfile, hcovers, hdate⟩ := h.file hpos
      ⟨payload, hfile, hcovers.perm hcharges, hdate⟩
    landed := h.landed
    accepted := h.accepted
    written := fun key charge hmem => h.written key charge (hperm.subset hmem)
    refused := h.refused }

theorem PlaneInv.load (h : PlaneInv config s) :
    PlaneInv config { s with limiter := s.limiter.ensureQuotaLoaded s.file s.today } := by
  by_cases hdate : s.limiter.quotaDate = some s.today
  · rw [LimitEnforcer.ensureQuotaLoaded_of_eq hdate]
    exact h
  · have hearlier : ∀ c ∈ s.charges, c.day < s.today := by
      intro c hc
      obtain ⟨d, hd, hle⟩ := h.days c hc
      have hne : d ≠ s.today := fun heq => hdate (heq ▸ hd)
      have := h.loaded d hd
      omega
    have hloaded := s.limiter.ensureQuotaLoaded_quotaDate s.file s.today
    have hday : ∀ d, (s.limiter.ensureQuotaLoaded s.file s.today).quotaDate = some d →
        d = s.today := by
      intro d hd
      rw [hloaded] at hd
      exact (some.inj hd).symm
    exact { h with
      inflight := fun group => by
        rw [LimitEnforcer.ensureQuotaLoaded_inflight]
        exact h.inflight group
      grouped := fun group => by
        rw [LimitEnforcer.ensureQuotaLoaded_inflight]
        exact h.grouped group
      loaded := fun d hd => Nat.le_of_eq (hday d hd)
      days := fun c hc => ⟨s.today, hloaded, Nat.le_of_lt (hearlier c hc)⟩
      counts := by
        intro d hd key
        have hzero : s.charges.countP (QuotaCharge.isOn d key) = 0 := by
          rw [countP_eq_zero]
          intro c hc
          have := hearlier c hc
          have := hday d hd
          simp only [QuotaCharge.isOn, and_eq_true, decide_eq_true_eq]
          omega
        show s.charges.countP _ ≤ _
        omega }

variable {current : Nat}

theorem PlaneInv.checkedIn (h : PlaneInv config s) (htotal : s.tasks.length < config.maxConcurrency)
    (hcurrent : ∀ max, (config.limits (config.groupOf key)).maxConcurrency = some max → current < max) :
    PlaneInv config { s with tasks := ⟨key, .checked current⟩ :: s.tasks } where
  total := htotal
  inflight group := by
    rw [countP_cons_of_neg (by simp [AiTask.holds, AiTask.acquired])]
    exact h.inflight group
  grouped := h.grouped
  checked key' current' hmem := by
    rcases mem_cons.mp hmem with heq | hmem
    · cases heq
      exact hcurrent
    · exact h.checked key' current' hmem
  loaded := h.loaded
  days := h.days
  seqs := h.seqs
  daily := h.daily
  counts := h.counts
  payloads key' charge payload hmem := by
    rcases mem_cons.mp hmem with heq | hmem
    · cases heq
    · exact h.payloads key' charge payload hmem
  file := h.file
  landed := h.landed
  accepted := h.accepted
  written key' charge hmem := by
    rcases mem_cons.mp hmem with heq | hmem
    · cases heq
    · exact h.written key' charge hmem
  refused := h.refused

theorem PlaneInv.turnedAway (h : PlaneInv config s)
    (htasks : s.tasks = ⟨key, .checked current⟩ :: rest) :
    PlaneInv config { s with tasks := rest } := by
  have hsub : ∀ task ∈ rest, task ∈ s.tasks := by
    intro task hmem
    rw [htasks]
    exact mem_cons_of_mem _ hmem
  have hcharges : AiPlane.charges { s with tasks := rest } = s.charges := by
    rw [AiPlane.charges, AiPlane.charges, htasks]
    rfl
  have htotal := h.total
  rw [htasks, length_cons] at htotal
  exact { h with
    total := by
      show rest.length ≤ _
      omega
    inflight := fun group => by
      have := h.inflight group
      rwa [htasks, countP_cons_of_neg (by simp [AiTask.holds, AiTask.acquired])] at this
    checked := fun key' current' hmem => h.checked key' current' (hsub _ hmem)
    days := by rw [hcharges]; exact h.days
    seqs := by rw [hcharges]; exact h.seqs
    daily := by rw [hcharges]; exact h.daily
    counts := by rw [hcharges]; exact h.counts
    payloads := by
      rw [hcharges]
      exact fun key' charge payload hmem => h.payloads key' charge payload (hsub _ hmem)
    file := by rw [hcharges]; exact h.file
    written := fun key' charge hmem => h.written key' charge (hsub _ hmem) }

theorem PlaneInv.counted {limiter : LimitEnforcer Key Group} (h : PlaneInv config s)
    (htasks : s.tasks = ⟨key, .checked current⟩ :: rest)
    (hcurrent : s.limiter.inflight (config.groupOf key) = current)
    (hdate : s.limiter.quotaDate = some s.today)
    (hcount : s.limiter.acquireCount (config.limits (config.groupOf key)) key (config.groupOf key) current = .ok limiter) :
    PlaneInv config { s with
      limiter
      tasks := ⟨key, .writing ⟨s.writes + 1, key, s.today⟩
        ⟨limiter.quotaDate.getD 0, limiter.quotaCounts⟩⟩ :: rest
      writes := s.writes + 1 } := by
  obtain ⟨hdaily, hinflight, hday, hquota⟩ := LimitEnforcer.acquireCount_ok hcount
  let charge : QuotaCharge Key := ⟨s.writes + 1, key, s.today⟩
  set s' : AiPlane Key Group := { s with
    limiter
    tasks := ⟨key, .writing ⟨s.writes + 1, key, s.today⟩
      ⟨limiter.quotaDate.getD 0, limiter.quotaCounts⟩⟩ :: rest
    writes := s.writes + 1 } with hs'
  have hnew : s'.charges.Perm (charge :: s.charges) := by
    rw [AiPlane.charges, AiPlane.charges, htasks]
    exact perm_middle
  have hcases : ∀ c ∈ s'.charges, c = charge ∨ c ∈ s.charges := fun c hc =>
    mem_cons.mp (hnew.subset hc)
  have hsub : ∀ task ∈ rest, task ∈ s.tasks := by
    intro task hmem
    rw [htasks]
    exact mem_cons_of_mem _ hmem
  have hlater : ∀ n, n ≤ s.writes → ∀ payload : QuotaDay Key, payload.Covers s.charges n →
      payload.Covers s'.charges n := fun n hn payload hcovers =>
    (hcovers.cons (Nat.lt_succ_of_le hn)).perm hnew
  have hcounts : ∀ key', s'.charges.countP (QuotaCharge.isOn s.today key') ≤
      limiter.quotaCounts key' := by
    intro key'
    have hbefore := h.counts s.today hdate key'
    rw [hnew.countP_eq, hquota]
    by_cases hkey : key' = key
    · subst hkey
      rw [countP_cons_of_pos (by simp [QuotaCharge.isOn, charge]), update_self]
      omega
    · rw [countP_cons_of_neg (by simp [QuotaCharge.isOn, charge, Ne.symm hkey]),
        update_of_ne hkey]
      exact hbefore
  rw [hdate] at hday
  have htotal := h.total
  rw [htasks, length_cons] at htotal
  exact {
    total := by
      show rest.length + 1 ≤ _
      omega
    inflight := by
      intro group
      have hbefore := h.inflight group
      rw [htasks, countP_cons_of_neg (by simp [AiTask.holds, AiTask.acquired])] at hbefore
      show limiter.inflight group = _
      rw [hinflight]
      by_cases hgroup : group = config.groupOf key
      · subst hgroup
        rw [countP_cons_of_pos (by simp [AiTask.holds, AiTask.acquired]), ← hbefore, hcurrent]
        exact update_self ..
      · rw [countP_cons_of_neg (by simp [AiTask.holds, Ne.symm hgroup]), ← hbefore]
        exact update_of_ne hgroup ..
    grouped := by
      intro group max hmax
      show limiter.inflight group ≤ max
      rw [hinflight]
      by_cases hgroup : group = config.groupOf key
      · subst hgroup
        have := h.checked key current (htasks ▸ mem_cons_self) max hmax
        rw [update_self]
        omega
      · rw [update_of_ne hgroup]
        exact h.grouped group max hmax
    checked := by
      intro key' current' hmem
      rcases mem_cons.mp hmem with heq | hmem
      · cases heq
      · exact h.checked key' current' (hsub _ hmem)
    loaded := by
      intro d hd
      rw [show s'.limiter.quotaDate = some s.today from hday] at hd
      exact Nat.le_of_eq (some.inj hd).symm
    days := by
      intro c hc
      refine ⟨s.today, hday, ?_⟩
      rcases hcases c hc with heq | hc
      · exact Nat.le_of_eq (heq ▸ rfl)
      · obtain ⟨d, hd, hle⟩ := h.days c hc
        rw [hdate] at hd
        exact some.inj hd ▸ hle
    seqs := by
      intro c hc
      show 0 < c.seq ∧ c.seq ≤ s.writes + 1
      rcases hcases c hc with heq | hc
      · rw [heq]
        exact ⟨Nat.succ_pos _, Nat.le_refl _⟩
      · have := h.seqs c hc
        omega
    daily := by
      intro day key' max hmax
      rw [hnew.countP_eq]
      by_cases hon : QuotaCharge.isOn day key' charge
      · -- the count of the key was looked at
        simp only [QuotaCharge.isOn, and_eq_true, decide_eq_true_eq, charge] at hon
        obtain ⟨hday', hkey⟩ := hon
        subst hday' hkey
        have hused := h.counts s.today hdate key
        have := hdaily max hmax
        rw [countP_cons_of_pos (by simp [QuotaCharge.isOn, charge])]
        omega
      · rw [countP_cons_of_neg hon]
        exact h.daily day key' max hmax
    counts := by
      intro d hd
      rw [show s'.limiter.quotaDate = some s.today from hday] at hd
      rw [← some.inj hd]
      exact hcounts
    payloads := by
      intro key' charge' payload hmem
      rcases mem_cons.mp hmem with heq | hmem
      · simp only [AiTask.mk.injEq, AiPhase.writing.injEq] at heq
        obtain ⟨-, hcharge, hpayload⟩ := heq
        have hpday : payload.date = s.today := by rw [hpayload, hday]; rfl
        refine ⟨⟨?_, ?_⟩, Nat.le_of_eq hpday⟩
        · intro c hc _
          rw [hpday]
          rcases hcases c hc with heq | hc
          · exact Nat.le_of_eq (heq ▸ rfl)
          · obtain ⟨d, hd, hle⟩ := h.days c hc
            exact Nat.le_trans hle (h.loaded d hd)
        · intro key'
          rw [hpday, hpayload]
          exact Nat.le_trans (filter_sublist.countP_le) (hcounts key')
      · obtain ⟨hcovers, hle⟩ := h.payloads key' charge' payload (hsub _ hmem)
        have hseq : charge'.seq ≤ s.writes := by
          refine (h.seqs charge' ?_).2
          exact mem_append_right _
            (mem_filterMap.mpr ⟨_, hsub _ hmem, rfl⟩)
        exact ⟨hlater _ hseq payload hcovers, hle⟩
    file := by
      intro hpos
      obtain ⟨payload, hfile, hcovers, hle⟩ := h.file hpos
      exact ⟨payload, hfile, hlater _ h.landed payload hcovers, hle⟩
    landed := Nat.le_succ_of_le h.landed
    accepted := h.accepted
    written := by
      intro key' charge' hmem
      rcases mem_cons.mp hmem with heq | hmem
      · cases heq
      · exact h.written key' charge' (hsub _ hmem)
    refused := h.refused }

theorem PlaneInv.landing (h : PlaneInv config s)
    (htasks : s.tasks = ⟨key, .writing charge payload⟩ :: rest) (hlater : s.landed < charge.seq) :
    PlaneInv config { s with
      file := some payload
      tasks := ⟨key, .written charge⟩ :: rest
      landed := charge.seq } := by
  have hmem : (⟨key, .writing charge payload⟩ : AiTask Key) ∈ s.tasks :=
    htasks ▸ mem_cons_self
  have hsub : ∀ task ∈ rest, task ∈ s.tasks := by
    intro task hmem
    rw [htasks]
    exact mem_cons_of_mem _ hmem
  have hcharges : AiPlane.charges { s with
      file := some payload
      tasks := ⟨key, .written charge⟩ :: rest
      landed := charge.seq } = s.charges := by
    rw [AiPlane.charges, AiPlane.charges, htasks]
    rfl
  obtain ⟨hcovers, hdate⟩ := h.payloads key charge payload hmem
  exact { h with
    total := by
      have := h.total
      rwa [htasks] at this
    inflight := fun group => by
      have := h.inflight group
      rwa [htasks] at this
    checked := by
      intro key' current' hmem
      rcases mem_cons.mp hmem with heq | hmem
      · cases heq
      · exact h.checked key' current' (hsub _ hmem)
    days := by rw [hcharges]; exact h.days
    seqs := by rw [hcharges]; exact h.seqs
    daily := by rw [hcharges]; exact h.daily
    counts := by rw [hcharges]; exact h.counts
    payloads := by
      rw [hcharges]
      intro key' charge' payload' hmem
      rcases mem_cons.mp hmem with heq | hmem
      · cases heq
      · exact h.payloads key' charge' payload' (hsub _ hmem)
    file := by
      rw [hcharges]
      exact fun _ => ⟨payload, rfl, hcovers, hdate⟩
    landed := (h.seqs charge (mem_append_right _ (mem_filterMap.mpr ⟨_, hmem, rfl⟩))).2
    accepted := fun c hc => Nat.le_trans (h.accepted c hc) (Nat.le_of_lt hlater)
    written := by
      intro key' charge' hmem
      rcases mem_cons.mp hmem with heq | hmem
      · cases heq
        exact Nat.le_refl _
      · exact Nat.le_trans (h.written key' charge' (hsub _ hmem)) (Nat.le_of_lt hlater) }

theorem PlaneInv.creating (h : PlaneInv config s)
    (htasks : s.tasks = ⟨key, .written charge⟩ :: rest) :
    PlaneInv config { s with
      tasks := ⟨key, .live⟩ :: rest
      accepted := charge :: s.accepted } := by
  have hsub : ∀ task ∈ rest, task ∈ s.tasks := by
    intro task hmem
    rw [htasks]
    exact mem_cons_of_mem _ hmem
  have hcharges : AiPlane.charges { s with
      tasks := ⟨key, .live⟩ :: rest
      accepted := charge :: s.accepted } |>.Perm s.charges := by
    rw [AiPlane.charges, AiPlane.charges, htasks]
    exact perm_middle.symm
  exact { h with
    total := by
      have := h.total
      rwa [htasks] at this
    inflight := fun group => by
      have := h.inflight group
      rwa [htasks] at this
    checked := by
      intro key' current' hmem
      rcases mem_cons.mp hmem with heq | hmem
      · cases heq
      · exact h.checked key' current' (hsub _ hmem)
    days := fun c hc => h.days c (hcharges.subset hc)
    seqs := fun c hc => h.seqs c (hcharges.subset hc)
    daily := fun day key' max hmax => by rw [hcharges.countP_eq]; exact h.daily day key' max hmax
    counts := fun d hd key' => by rw [hcharges.countP_eq]; exact h.counts d hd key'
    payloads := by
      intro key' charge' payload' hmem
      rcases mem_cons.mp hmem with heq | hmem
      · cases heq
      · obtain ⟨hcovers, hdate⟩ := h.payloads key' charge' payload' (hsub _ hmem)
        exact ⟨hcovers.perm hcharges, hdate⟩
    file := by
      intro hpos
      obtain ⟨payload, hfile, hcovers, hdate⟩ := h.file hpos
      exact ⟨payload, hfile, hcovers.perm hcharges, hdate⟩
    accepted := by
      intro c hc
      rcases mem_cons.mp hc with heq | hc
      · rw [heq]
        exact h.written key charge (htasks ▸ mem_cons_self)
      · exact h.accepted c hc
    written := by
      intro key' charge' hmem
      rcases mem_cons.mp hmem with heq | hmem
      · cases heq
      · exact h.written key' charge' (hsub _ hmem) }

theorem PlaneInv.ending (h : PlaneInv config s) (htasks : s.tasks = ⟨key, .live⟩ :: rest) :
    PlaneInv config { s with
      limiter := s.limiter.release (config.groupOf key)
      tasks := rest } := by
  have hsub : ∀ task ∈ rest, task ∈ s.tasks := by
    intro task hmem
    rw [htasks]
    exact mem_cons_of_mem _ hmem
  have hcharges : AiPlane.charges { s with
      limiter := s.limiter.release (config.groupOf key)
      tasks := rest } = s.charges := by
    rw [AiPlane.charges, AiPlane.charges, htasks]
    rfl
  have htotal := h.total
  rw [htasks, length_cons] at htotal
  have hle : ∀ group, (s.limiter.release (config.groupOf key)).inflight group ≤
      s.limiter.inflight group := by
    intro group
    rw [LimitEnforcer.release_inflight]
    by_cases hgroup : group = config.groupOf key
    · subst hgroup
      rw [update_self]
      omega
    · exact Nat.le_of_eq (update_of_ne hgroup _ _)
  exact { h with
    total := by
      show rest.length ≤ _
      omega
    inflight := by
      intro group
      have hbefore := h.inflight group
      rw [htasks] at hbefore
      show (s.limiter.release (config.groupOf key)).inflight group = rest.countP _
      rw [LimitEnforcer.release_inflight]
      by_cases hgroup : group = config.groupOf key
      · subst hgroup
        rw [countP_cons_of_pos (by simp [AiTask.holds, AiTask.acquired])] at hbefore
        rw [update_self, hbefore]
        omega
      · rw [countP_cons_of_neg (by simp [AiTask.holds, Ne.symm hgroup])] at hbefore
        rw [update_of_ne hgroup]
        exact hbefore
    grouped := fun group max hmax => Nat.le_trans (hle group) (h.grouped group max hmax)
    checked := fun key' current' hmem => h.checked key' current' (hsub _ hmem)
    days := by rw [hcharges]; exact h.days
    seqs := by rw [hcharges]; exact h.seqs
    daily := by rw [hcharges]; exact h.daily
    counts := by rw [hcharges]; exact h.counts
    payloads := by
      rw [hcharges]
      exact fun key' charge payload hmem => h.payloads key' charge payload (hsub _ hmem)
    file := by rw [hcharges]; exact h.file
    written := fun key' charge hmem => h.written key' charge (hsub _ hmem) }

theorem PlaneInv.init (h : (aiMachine Key Group config).init s) : PlaneInv config s := by
  obtain ⟨htasks, haccepted, hwrites, hlanded, hrefused, hdate, hinflight⟩ := h
  have hcharges : s.charges = [] := by rw [AiPlane.charges, htasks, haccepted]; rfl
  exact {
    total := by simp [htasks]
    inflight := fun group => by simp [htasks, hinflight]
    grouped := fun group max _ => by simp [hinflight]
    checked := by simp [htasks]
    loaded := by simp [hdate]
    days := by simp [hcharges]
    seqs := by simp [hcharges]
    daily := by simp [hcharges]
    counts := by simp [hcharges]
    payloads := by simp [htasks]
    file := fun hpos => by omega
    landed := by omega
    accepted := by simp [haccepted]
    written := by simp [htasks]
    refused := hrefused }

omit [DecidableEq Key] in
theorem perm_of_getElem? {tasks : List (AiTask Key)} {task : AiTask Key}
    (h : tasks[i]? = some task) : (task :: tasks.eraseIdx i).Perm tasks ∧
      ∀ task', (tasks.set i task').Perm (task' :: tasks.eraseIdx i) := by
  obtain ⟨hlt, htask⟩ := List.getElem?_eq_some_iff.mp h
  exact ⟨htask ▸ getElem_cons_eraseIdx_perm hlt,
    fun task' => set_perm_cons_eraseIdx hlt task'⟩

theorem PlaneInv.step {l : AiLabel Key} (h : PlaneInv config s) (hsteady : Steady config s l)
    (hstep : (aiMachine Key Group config).step s l = some s') : PlaneInv config s' := by
  have hstep : s.step config l = some s' := hstep
  cases l with
  | configure configMax =>
    cases hstep
    exact { h with }
  | clock day =>
    cases hstep
    have hle : s.today ≤ day := hsteady
    exact { h with
      loaded := fun d hd => Nat.le_trans (h.loaded d hd) hle
      payloads := fun key charge payload hmem =>
        have ⟨hcovers, hdate⟩ := h.payloads key charge payload hmem
        ⟨hcovers, Nat.le_trans hdate hle⟩
      file := fun hpos =>
        have ⟨payload, hfile, hcovers, hdate⟩ := h.file hpos
        ⟨payload, hfile, hcovers, Nat.le_trans hdate hle⟩ }
  | dailyCount =>
    cases hstep
    exact h.load
  | request key =>
    simp only [AiPlane.step] at hstep
    split at hstep
    · cases hstep
      exact h
    · next hgate =>
      have htotal := hsteady (by omega)
      simp only [LimitEnforcer.acquireCheck] at hstep
      split at hstep
      · cases hstep
        exact h
      · next current limiter hcheck =>
        cases hstep
        split at hcheck
        · cases hcheck
        · next hgroup =>
          cases hcheck
          refine h.load.checkedIn htotal ?_
          intro max hmax
          rw [hmax] at hgroup
          simpa using hgroup
  | count i =>
    simp only [AiPlane.step] at hstep
    split at hstep
    · next key current htask =>
      obtain ⟨hperm, hset⟩ := perm_of_getElem? htask
      obtain ⟨hcurrent, hdate⟩ := hsteady _ htask
      split at hstep
      · cases hstep
        exact (h.perm hperm).turnedAway rfl
      · next limiter hcount =>
        cases hstep
        exact ((h.perm hperm).counted rfl hcurrent hdate hcount).perm (hset _)
    · cases hstep
  | land i =>
    simp only [AiPlane.step] at hstep
    split at hstep
    · next key charge payload htask =>
      cases hstep
      obtain ⟨hperm, hset⟩ := perm_of_getElem? htask
      exact ((h.perm hperm).landing rfl (hsteady _ htask)).perm (hset _)
    · cases hstep
  | fail i => exact hsteady.elim
  | create i =>
    simp only [AiPlane.step] at hstep
    split at hstep
    · next key charge htask =>
      cases hstep
      obtain ⟨hperm, hset⟩ := perm_of_getElem? htask
      exact ((h.perm hperm).creating rfl).perm (hset _)
    · cases hstep
  | pull i =>
    simp only [AiPlane.step] at hstep
    split at hstep
    · cases hstep
      rw [AiPlane.gate_of_lt hsteady]
      exact h
    · cases hstep
  | cancel i =>
    simp only [AiPlane.step] at hstep
    split at hstep
    · cases hstep
      rw [AiPlane.gate_of_lt hsteady]
      exact h
    · cases hstep
  | terminal i =>
    simp only [AiPlane.step] at hstep
    split at hstep
    · next key htask =>
      cases hstep
      exact (h.perm (perm_of_getElem? htask).1).ending rfl
    · cases hstep

/-- **Admission and quotas**: over every interleaving whose steps are steady. -/
theorem quotas_hold (config : AiConfig Key Group) (s : AiPlane Key Group)
    (h : (aiMachine Key Group config).ReachableUnder (Steady config) s) : QuotasHold config s :=
  (h.invariant (I := PlaneInv config) (fun _ hinit => PlaneInv.init hinit)
    (fun _ _ _ hinv hsteady hstep => hinv.step hsteady hstep)).holds

end

/-! ## Runs of a group with one place -/

namespace SampleQuota

def config : AiConfig Nat Nat where
  maxConcurrency := 4
  groupOf _ := 0
  limits _ := ⟨some 1, some 5⟩

def start (configMax : Nat) : AiPlane Nat Nat where
  configMax
  today := 0
  limiter := ⟨fun _ => 0, none, fun _ => 0⟩
  file := none
  tasks := []
  accepted := []
  writes := 0
  landed := 0
  refused := 0

theorem init_start (configMax : Nat) : (aiMachine Nat Nat config).init (start configMax) :=
  ⟨rfl, rfl, rfl, rfl, rfl, rfl, fun _ => rfl⟩

theorem one_after_the_other : ∃ s : AiPlane Nat Nat,
    QuotasHold config s ∧ s.persisted 0 7 = 2 ∧ s.activeCount = 1 := by
  have hrun : ((aiMachine Nat Nat config).runUnder (Steady config) (start 4)
      [.request 7, .count 0, .land 0, .create 0, .request 7, .pull 0, .cancel 0, .terminal 0,
        .request 7, .count 0, .land 0, .create 0]).any
      (fun s => s.persisted 0 7 = 2 && s.activeCount = 1) = true := by decide
  obtain ⟨s, hreach, hs⟩ := Machine.exists_reachableUnder (init_start 4) hrun
  exact ⟨s, quotas_hold config s hreach, by simpa using hs⟩

/-- **Two requests that overlap** are both counted from zero; and where the plane takes one
response at a time, that response cannot be pulled. -/
theorem overlapping_requests :
    (∃ s, (aiMachine Nat Nat config).Reachable s ∧ ¬ QuotasHold config s ∧
      s.limiter.inflight 0 = 1 ∧ s.tasks.countP (AiTask.holds config 0) = 2) ∧
    ∃ s, (aiMachine Nat Nat config).Reachable s ∧ ¬ QuotasHold config s ∧
      s.activeCount = 1 ∧ s.refused = 1 := by
  constructor
  · have hrun : ((aiMachine Nat Nat config).runUnder (fun _ _ => True) (start 4)
        [.request 7, .request 8, .count 0, .count 1]).any
        (fun s => s.limiter.inflight 0 = 1 && s.tasks.countP (AiTask.holds config 0) = 2) =
          true := by decide
    obtain ⟨s, hreach, hs⟩ := Machine.exists_reachableUnder (init_start 4) hrun
    simp only [and_eq_true, decide_eq_true_eq] at hs
    refine ⟨s, hreach, fun hhold => ?_, hs⟩
    have := hhold.inflight 0
    omega
  · have hrun : ((aiMachine Nat Nat config).runUnder (fun _ _ => True) (start 1)
        [.request 7, .count 0, .land 0, .create 0, .pull 0]).any
        (fun s => s.activeCount = 1 && s.refused = 1) = true := by decide
    obtain ⟨s, hreach, hs⟩ := Machine.exists_reachableUnder (init_start 1) hrun
    simp only [and_eq_true, decide_eq_true_eq] at hs
    refine ⟨s, hreach, fun hhold => ?_, hs⟩
    have := hhold.refused
    omega

end SampleQuota

end Dweb
