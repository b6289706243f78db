import OpenDweb.Continuity.ChannelFence

/-!
# OpenDweb — stale channels never commit

The invariant of `ChannelFence` and what it gives over whole runs. The log is read by two
projections, the owners installed and the decisions booked, both newest first; `channel_owner`
is the newest owner, the pending decision is the newest booking.

* **`Superseded`** — another nonce's decision was booked, and this one not again since.
* **`Fenced.step`** — every step keeps the invariant; the frame gate carries the argument, for
  the owner changes under the write guard and a frame is committed under a read lease.
* **`stale_channels_never_commit`** — the claim's five parts over any run.

Leases of decisions count up to the end of `u64`; up to there no booking equals an earlier one,
so that what is superseded stays so.
-/

namespace Dweb

open List Option

/-! ## Reading the log -/

def installsOf (log : List FenceEvent) : List Nat :=
  log.filterMap fun
    | .installed owner _ => some owner
    | _ => none

def decisionsOf (log : List FenceEvent) : List ResumeDecision :=
  log.filterMap fun
    | .decided d => some d
    | _ => none

@[simp] theorem installsOf_installed (owner : Nat) (d : Option ResumeDecision)
    (log : List FenceEvent) :
    installsOf (.installed owner d :: log) = owner :: installsOf log := rfl

@[simp] theorem installsOf_committed (owner : Nat) (log : List FenceEvent) :
    installsOf (.committed owner :: log) = installsOf log := rfl

@[simp] theorem installsOf_decided (d : ResumeDecision) (log : List FenceEvent) :
    installsOf (.decided d :: log) = installsOf log := rfl

@[simp] theorem decisionsOf_installed (owner : Nat) (d : Option ResumeDecision)
    (log : List FenceEvent) : decisionsOf (.installed owner d :: log) = decisionsOf log := rfl

@[simp] theorem decisionsOf_committed (owner : Nat) (log : List FenceEvent) :
    decisionsOf (.committed owner :: log) = decisionsOf log := rfl

@[simp] theorem decisionsOf_decided (d : ResumeDecision) (log : List FenceEvent) :
    decisionsOf (.decided d :: log) = d :: decisionsOf log := rfl

variable {log : List FenceEvent} {s : ChannelFence}

theorem mem_installsOf {owner : Nat} {d : Option ResumeDecision}
    (h : FenceEvent.installed owner d ∈ log) : owner ∈ installsOf log :=
  mem_filterMap.mpr ⟨_, h, rfl⟩

/-- A frame is committed on no older owner's channel than any install before it. -/
def NoLateCommit (later earlier : FenceEvent) : Prop :=
  ∀ owner owner' d, later = .committed owner → earlier = .installed owner' d → owner' ≤ owner

/-- A decision of another nonce was booked, and `d` was not booked since. -/
def Superseded (log : List FenceEvent) (d : ResumeDecision) : Prop :=
  ∃ newer older d', decisionsOf log = newer ++ d' :: older ∧ d'.nonce ≠ d.nonce
    ∧ ∀ d'' ∈ newer, ¬decisionMatchesPending d'' d

/-- Every install with a decision is one of the decision booked last before it. -/
def InstallsNewest : List FenceEvent → Prop
  | [] => True
  | .installed _ (some d) :: earlier =>
    (∃ d₀, (decisionsOf earlier).head? = some d₀ ∧ decisionMatchesPending d₀ d)
      ∧ InstallsNewest earlier
  | _ :: earlier => InstallsNewest earlier

theorem not_superseded_of_head? {d d₀ : ResumeDecision} (hhead : (decisionsOf log).head? = some d₀)
    (hmatch : decisionMatchesPending d₀ d) : ¬Superseded log d := by
  rintro ⟨newer, older, d', hlog, hnonce, hnewer⟩
  rw [hlog] at hhead
  cases newer with
  | nil =>
    simp only [nil_append, head?_cons, some.injEq] at hhead
    exact hnonce (hhead ▸ hmatch.2.1)
  | cons x newer =>
    simp only [cons_append, head?_cons, some.injEq] at hhead
    exact hnewer d₀ (hhead ▸ mem_cons_self) hmatch

theorem InstallsNewest.not_superseded {later earlier : List FenceEvent} {owner : Nat}
    {d : ResumeDecision} (h : InstallsNewest log)
    (hlog : log = later ++ .installed owner (some d) :: earlier) : ¬Superseded earlier d := by
  induction later generalizing log with
  | nil =>
    subst hlog
    obtain ⟨⟨d₀, hhead, hmatch⟩, -⟩ := h
    exact not_superseded_of_head? hhead hmatch
  | cons e later ih =>
    subst hlog
    refine ih ?_ rfl
    cases e with
    | installed o d' =>
      cases d' with
      | none => exact h
      | some d' => exact h.2
    | committed o => exact h
    | decided d' => exact h

/-! ## The invariant -/

def LeaseBelow (earlier later : ResumeDecision) : Prop :=
  earlier.leaseId < later.leaseId ∨ later.leaseId = 2 ^ 64 - 1

def DispatchTask.past (t : DispatchTask) : Prop :=
  match t.place with
  | .leased => False
  | _ => True

structure Fenced (s : ChannelFence) : Prop where
  owners : s.channels.map FencedChannel.owner = installsOf s.log
  increasing : (installsOf s.log).Pairwise fun later earlier => earlier < later
  newest : s.ctl.channelOwner = (installsOf s.log).head?.getD 0
  fenced : ∀ t ∈ s.leases, t.past → s.channelIsCurrent t.epoch t.owner = true
  gate : s.gateHeld → s.leases = []
  commits : s.log.Pairwise NoLateCommit
  installs : InstallsNewest s.log
  pending : ∀ p ∈ s.ctl.pending, (decisionsOf s.log).head? = some p.decision
  leaseLe : ∀ d ∈ decisionsOf s.log, d.leaseId ≤ s.ctl.nextLease
  leaseCap : s.ctl.nextLease ≤ 2 ^ 64 - 1
  leases : (decisionsOf s.log).Pairwise fun later earlier => LeaseBelow earlier later

theorem fenced_fresh (sessionId : BytesN 16) (token : Token) (isClient : Bool)
    (limits : JournalLimits) : Fenced (.fresh sessionId token isClient limits) where
  owners := rfl
  increasing := .nil
  newest := rfl
  fenced t ht := by cases ht
  gate _ := rfl
  commits := .nil
  installs := trivial
  pending p hp := by cases hp
  leaseLe d hd := by cases hd
  leaseCap := Nat.zero_le _
  leases := .nil

namespace Fenced

open ChannelFence ResumeCtl

variable {s s' : ChannelFence}

theorem le_channelOwner (h : Fenced s) {owner : Nat} (howner : owner ∈ installsOf s.log) :
    owner ≤ s.ctl.channelOwner := by
  have hincreasing := h.increasing
  rw [h.newest]
  cases hinstalls : installsOf s.log with
  | nil => rw [hinstalls] at howner; cases howner
  | cons newest rest =>
    rw [hinstalls] at howner hincreasing
    simp only [head?_cons, getD_some]
    rcases mem_cons.mp howner with heq | hrest
    · omega
    · have hlt := (pairwise_cons.mp hincreasing).1 owner hrest
      omega

/-! ### Steps away from the gate -/

theorem ofShared (h : Fenced s) (shared : SessionShared)
    (hsame : s.ctl.SameOwner shared.resumeControl) : Fenced { s with shared := shared } where
  owners := h.owners
  increasing := h.increasing
  newest := hsame.channelOwner.trans h.newest
  fenced t ht hpast := by
    have hcurrent := h.fenced t ht hpast
    simp only [channelIsCurrent, ctl] at hcurrent ⊢
    rw [hsame.activeEpoch, hsame.channelOwner]
    exact hcurrent
  gate := h.gate
  commits := h.commits
  installs := h.installs
  pending p hp := h.pending p (hsame.pending p hp)
  leaseLe d hd := by
    rw [show ctl { s with shared := shared } = shared.resumeControl from rfl, hsame.nextLease]
    exact h.leaseLe d hd
  leaseCap := by
    rw [show ctl { s with shared := shared } = shared.resumeControl from rfl, hsame.nextLease]
    exact h.leaseCap
  leases := h.leases

theorem ofCtl (h : Fenced s) {ctl : ResumeCtl} (hsame : s.ctl.SameOwner ctl) :
    Fenced (s.withCtl ctl) :=
  h.ofShared _ hsame

theorem ofChannel (h : Fenced s) (owner : Nat) {f : FencedChannel → FencedChannel}
    (hf : ∀ c, (f c).owner = c.owner) : Fenced (s.modifyChannel owner f) where
  owners := by
    refine Eq.trans ?_ h.owners
    simp only [modifyChannel, List.map_map]
    refine map_congr_left fun c _ => ?_
    simp only [Function.comp]
    split
    · exact hf c
    · rfl
  increasing := h.increasing
  newest := h.newest
  fenced := h.fenced
  gate := h.gate
  commits := h.commits
  installs := h.installs
  pending := h.pending
  leaseLe := h.leaseLe
  leaseCap := h.leaseCap
  leases := h.leases

/-- The holder of `channel_transition` moves; it takes the write guard only when no lease is
out. -/
theorem ofTransition (h : Fenced s) (transition : Option InstallTask)
    (hgate : gateHeld { s with transition := transition } → s.leases = []) :
    Fenced { s with transition := transition } where
  owners := h.owners
  increasing := h.increasing
  newest := h.newest
  fenced := h.fenced
  gate := hgate
  commits := h.commits
  installs := h.installs
  pending := h.pending
  leaseLe := h.leaseLe
  leaseCap := h.leaseCap
  leases := h.leases

theorem giveUp (h : Fenced s) : Fenced s.giveUp := by
  refine h.ofTransition none fun hheld => ?_
  obtain ⟨t, ht, -⟩ := hheld
  cases ht

theorem moveInstall (h : Fenced s) (t : InstallTask) {place : InstallAt}
    (hplace : place ≠ .writing) : Fenced (s.moveInstall t place) := by
  refine h.ofTransition _ fun hheld => ?_
  obtain ⟨t', ht', hwriting⟩ := hheld
  cases ht'
  exact absurd hwriting hplace

theorem ofLeases (h : Fenced s) (leases : List DispatchTask)
    (hpast : ∀ t ∈ leases, t.past → s.channelIsCurrent t.epoch t.owner = true)
    (hgate : s.gateHeld → leases = []) : Fenced { s with leases := leases } where
  owners := h.owners
  increasing := h.increasing
  newest := h.newest
  fenced := hpast
  gate := hgate
  commits := h.commits
  installs := h.installs
  pending := h.pending
  leaseLe := h.leaseLe
  leaseCap := h.leaseCap
  leases := h.leases

theorem release (h : Fenced s) (n : Nat) : Fenced (s.release n) := by
  refine h.ofLeases _ (fun t ht => h.fenced t (mem_of_mem_eraseIdx ht)) fun hheld => ?_
  rw [h.gate hheld]
  rfl

variable {t : DispatchTask}

theorem moveDispatch (h : Fenced s) (n : Nat) {place : DispatchAt}
    (hcurrent : s.channelIsCurrent t.epoch t.owner = true) : Fenced (s.moveDispatch n t place) := by
  refine h.ofLeases _ (fun t' ht' hpast => ?_) fun hheld => ?_
  · rcases mem_or_eq_of_mem_set ht' with hmem | heq
    · exact h.fenced t' hmem hpast
    · rw [heq]
      exact hcurrent
  · rw [h.gate hheld]
    rfl

theorem commitFrame (h : Fenced s) {shared : SessionShared}
    (hcurrent : s.channelIsCurrent t.epoch t.owner = true)
    (hsame : s.ctl.SameOwner shared.resumeControl) : Fenced (s.commitFrame t shared) := by
  have hshared := h.ofShared shared hsame
  have howner : s.ctl.channelOwner = t.owner := by
    simp only [channelIsCurrent, Bool.and_eq_true, decide_eq_true_eq] at hcurrent
    exact hcurrent.2
  refine ⟨hshared.owners, hshared.increasing, hshared.newest, hshared.fenced, hshared.gate, ?_,
    hshared.installs, hshared.pending, hshared.leaseLe, hshared.leaseCap, hshared.leases⟩
  refine pairwise_cons.mpr ⟨fun e he owner owner' d hcommit hinstall => ?_, h.commits⟩
  cases hcommit
  subst hinstall
  have hle := h.le_channelOwner (mem_installsOf he)
  omega

/-! ### The install -/

/-- **The commit of an install**: nobody holds a lease, the owner is new, and a decision it
brings is the one booked last. -/
theorem commitInstall (h : Fenced s) (call : InstallCall) (hleases : s.leases = []) :
    Fenced (s.commitInstall call) := by
  unfold ChannelFence.commitInstall
  split
  · exact h.giveUp
  · next owner ctl hinstall =>
    obtain ⟨howner, hmoved, -, hpending, -, -, hlease, hdecision⟩ := installChannel_eq_some hinstall
    refine ⟨?_, ?_, ?_, ?_, ?_, ?_, ?_, ?_, ?_, ?_, h.leases⟩
    · show owner :: s.channels.map FencedChannel.owner = owner :: installsOf s.log
      rw [h.owners]
    · refine pairwise_cons.mpr ⟨fun earlier hearlier => ?_, h.increasing⟩
      have hle := h.le_channelOwner hearlier
      omega
    · exact hmoved
    · show ∀ t ∈ s.leases, _
      rw [hleases]
      exact fun t ht => by cases ht
    · exact fun _ => hleases
    · refine pairwise_cons.mpr ⟨fun e _ o o' d hcommit => ?_, h.commits⟩
      cases hcommit
    · show InstallsNewest (.installed owner call.decision :: s.log)
      cases hcall : call.decision with
      | none => exact h.installs
      | some d =>
        obtain ⟨p, hp, hmatch⟩ := hdecision d (by rw [hcall]; rfl)
        exact ⟨⟨p.decision, h.pending p hp, hmatch⟩, h.installs⟩
    · intro p hp
      have hp' : ctl.pending = some p := hp
      rw [hp', map_some] at hpending
      obtain ⟨q, hq, hqp⟩ := map_eq_some_iff.mp hpending.symm
      rw [← hqp]
      exact h.pending q hq
    · intro d hd
      show d.leaseId ≤ ctl.nextLease
      rw [hlease]
      exact h.leaseLe d hd
    · show ctl.nextLease ≤ 2 ^ 64 - 1
      rw [hlease]
      exact h.leaseCap

theorem installStep (h : Fenced s) {t : InstallTask} (ht : s.transition = some t)
    (hs : s.installStep t = some s') : Fenced s' := by
  unfold ChannelFence.installStep at hs
  cases hplace : t.place with
  | entered =>
    simp only [hplace] at hs
    split at hs
    · cases hs
      exact h.giveUp
    · cases hs
      exact h.moveInstall t (by decide)
  | phaseChecked =>
    simp only [hplace] at hs
    split at hs
    · cases hs
      exact h.giveUp
    · split at hs
      · cases hs
        exact h.giveUp
      · cases hs
        exact h.moveInstall t (by decide)
  | decisionChecked =>
    simp only [hplace] at hs
    split at hs
    · cases hs
      exact h.moveInstall t (by decide)
    · cases hs
      exact h.giveUp
  | generationChecked =>
    simp only [hplace] at hs
    split at hs
    · cases hs
      exact h.moveInstall t (by decide)
    · next old hold =>
      split at hs
      · cases hs
        exact h.giveUp
      · cases hs
        refine (h.ofChannel old.owner ?_).moveInstall t ?_
        · exact fun c => rfl
        · exact fun hp => by cases hp
  | stopping owner =>
    simp only [hplace] at hs
    obtain ⟨-, hs⟩ := ite_none_right_eq_some.mp hs
    cases hs
    exact h.moveInstall t (by decide)
  | waitingGate =>
    simp only [hplace] at hs
    obtain ⟨hempty, hs⟩ := ite_none_right_eq_some.mp hs
    cases hs
    exact h.ofTransition _ fun _ => List.isEmpty_iff.mp hempty
  | writing =>
    simp only [hplace, some.injEq] at hs
    exact hs ▸ h.commitInstall t.call (h.gate ⟨t, ht, hplace⟩)

/-! ### The dispatch -/

theorem dispatchStep (h : Fenced s) {n : Nat} (ht : s.leases[n]? = some t) :
    Fenced (s.dispatchStep n t) := by
  have hmem : t ∈ s.leases := mem_of_getElem? ht
  unfold ChannelFence.dispatchStep
  cases hplace : t.place with
  | leased =>
    dsimp only
    split
    · next hcurrent => exact h.moveDispatch n hcurrent
    · refine (h.ofShared _ ?_).release n
      exact .refl _
  | pastFence =>
    have hcurrent := h.fenced t hmem (by simp [DispatchTask.past, hplace])
    have hsame := s.shared.sameOwner_beginFrame t.owner t.frame
    dsimp only
    split
    · next shared outcome hbegin =>
      rw [hbegin] at hsame
      refine (h.commitFrame hcurrent hsame).moveDispatch n ?_
      exact (h.commitFrame hcurrent hsame).fenced t hmem (by simp [DispatchTask.past, hplace])
    · next shared d hbegin =>
      rw [hbegin] at hsame
      refine (h.commitFrame hcurrent hsame).moveDispatch n ?_
      exact (h.commitFrame hcurrent hsame).fenced t hmem (by simp [DispatchTask.past, hplace])
  | delivering d =>
    have hcurrent := h.fenced t hmem (by simp [DispatchTask.past, hplace])
    have hcommit := h.commitFrame hcurrent (s.shared.sameOwner_enqueueDelivered t.owner d)
    exact hcommit.moveDispatch n
      (hcommit.fenced t hmem (by simp [DispatchTask.past, hplace]))
  | handled outcome =>
    have hcurrent := h.fenced t hmem (by simp [DispatchTask.past, hplace])
    dsimp only
    split
    · exact h.release n
    · refine ((h.commitFrame hcurrent (.refl _)).ofChannel t.owner ?_).release n
      exact fun c => rfl

/-! ### The decision -/

theorem decided (h : Fenced s) {ctl : ResumeCtl} {d : ResumeDecision}
    (howner : ctl.channelOwner = s.ctl.channelOwner) (hepoch : ctl.activeEpoch = s.ctl.activeEpoch)
    (hpending : ctl.pending = some { decision := d, installedOwner := none })
    (hnext : ctl.nextLease = d.leaseId) (hlease : d.leaseId = u64SaturatingSucc s.ctl.nextLease) :
    Fenced { s.withCtl ctl with log := .decided d :: s.log } where
  owners := h.owners
  increasing := h.increasing
  newest := howner.trans h.newest
  fenced t ht hpast := by
    have hcurrent := h.fenced t ht hpast
    show (decide (ctl.activeEpoch = t.epoch) && decide (ctl.channelOwner = t.owner)) = true
    rw [hepoch, howner]
    exact hcurrent
  gate := h.gate
  commits := by
    refine pairwise_cons.mpr ⟨fun e _ o o' d hcommit => ?_, h.commits⟩
    cases hcommit
  installs := h.installs
  pending p hp := by
    have hp' : ctl.pending = some p := hp
    rw [hpending] at hp'
    cases hp'
    rfl
  leaseLe d' hd' := by
    show d'.leaseId ≤ ctl.nextLease
    rcases mem_cons.mp hd' with rfl | hold
    · omega
    · have hle := h.leaseLe d' hold
      have hcap := h.leaseCap
      unfold u64SaturatingSucc at hlease
      omega
  leaseCap := by
    show ctl.nextLease ≤ 2 ^ 64 - 1
    unfold u64SaturatingSucc at hlease
    omega
  leases := by
    refine pairwise_cons.mpr ⟨fun d' hd' => ?_, h.leases⟩
    have hle := h.leaseLe d' hd'
    unfold LeaseBelow
    unfold u64SaturatingSucc at hlease
    omega

/-! ### Every step -/

/-- **Every step keeps the invariant.** -/
theorem step (h : Fenced s) {l : FenceLabel} (hs : s.step l = some s') : Fenced s' := by
  cases l with
  | installEnter call =>
    obtain ⟨-, hs⟩ := ite_none_right_eq_some.mp hs
    cases hs
    refine h.ofTransition _ fun hheld => ?_
    obtain ⟨t, ht, hwriting⟩ := hheld
    cases ht
    cases hwriting
  | installStep =>
    obtain ⟨t, ht, hstep⟩ := bind_eq_some_iff.mp hs
    exact h.installStep ht hstep
  | installGivesUp =>
    obtain ⟨-, hs⟩ := ite_none_right_eq_some.mp hs
    cases hs
    exact h.giveUp
  | dispatchLease epoch owner frame =>
    obtain ⟨hopen, hs⟩ := ite_none_right_eq_some.mp hs
    cases hs
    refine h.ofLeases _ (fun t ht hpast => ?_) fun hheld => absurd hheld hopen.2
    rcases mem_append.mp ht with hmem | hnew
    · exact h.fenced t hmem hpast
    · -- it has not looked at the fence yet
      rw [mem_singleton.mp hnew] at hpast
      exact absurd hpast id
  | dispatchStep n =>
    obtain ⟨t, ht, rfl⟩ := map_eq_some_iff.mp hs
    exact h.dispatchStep ht
  | dispatchDropped n =>
    obtain ⟨-, hs⟩ := ite_none_right_eq_some.mp hs
    cases hs
    exact h.release n
  | pumpExits owner =>
    cases hs
    exact h.ofChannel owner fun c => rfl
  | requestStop owner =>
    cases hs
    exact h.ofChannel owner fun c => rfl
  | channelDropped owner =>
    obtain ⟨-, hs⟩ := ite_none_right_eq_some.mp hs
    cases hs
    exact h.ofChannel owner fun c => rfl
  | decideResume nonce generation token newToken remoteEpoch =>
    obtain ⟨⟨d, ctl⟩, hdecide, rfl⟩ := map_eq_some_iff.mp hs
    rcases decideResumeWithEpoch_books hdecide with
      ⟨hcached, rfl⟩ | ⟨hcached, howner, hepoch, hpending, hnext, hlease⟩
    · simp only [hcached, if_true]
      exact h.ofCtl (.refl _)
    · simp only [hcached, Bool.false_eq_true, if_false]
      exact h.decided howner hepoch hpending hnext hlease
  | rotateToken newGeneration newToken =>
    cases hs
    exact h.ofCtl (s.ctl.sameOwner_rotateToken newGeneration newToken)
  | observeRemoteEpoch epoch =>
    obtain ⟨ctl, hobserve, rfl⟩ := map_eq_some_iff.mp hs
    exact h.ofCtl (sameOwner_observeRemoteEpoch hobserve)
  | setPhase phase =>
    cases hs
    exact h.ofCtl ⟨rfl, rfl, rfl, fun _ hp => hp⟩
  | localOp op =>
    cases hs
    refine h.ofShared _ ?_
    exact .refl _

end Fenced

theorem fenced_of_reachable (h : fenceMachine.Reachable s) : Fenced s :=
  h.invariant
    (fun s hinit => by
      obtain ⟨sessionId, token, isClient, limits, rfl⟩ := hinit
      exact fenced_fresh sessionId token isClient limits)
    fun _ _ _ hinv _ hs => hinv.step hs

/-! ## The claim -/

namespace ChannelFence

/-- Each install has got an owner above all before it, and `channel_owner` is the newest. -/
def OwnersIncrease (s : ChannelFence) : Prop :=
  (installsOf s.log).Pairwise (fun later earlier => earlier < later)
    ∧ s.ctl.channelOwner = (installsOf s.log).head?.getD 0

def OneCurrent (s : ChannelFence) : Prop :=
  s.channels.countP (fun c => s.channelIsCurrent c.epoch c.owner) ≤ 1

end ChannelFence

theorem Fenced.oneCurrent (h : Fenced s) : s.OneCurrent := by
  have hnodup : (s.channels.map FencedChannel.owner).Nodup := by
    rw [h.owners]
    exact h.increasing.imp fun hlt => by omega
  have hcurrent : s.channels.countP (fun c => s.channelIsCurrent c.epoch c.owner)
      ≤ (s.channels.map FencedChannel.owner).count s.ctl.channelOwner := by
    rw [List.count, countP_map]
    refine countP_mono_left fun c _ hc => ?_
    simp only [ChannelFence.channelIsCurrent, Bool.and_eq_true, decide_eq_true_eq] at hc
    simp [hc.2]
  exact hcurrent.trans (nodup_iff_count_le_one.mp hnodup _)

theorem ChannelFence.past_of_commits {l : FenceLabel} {t : DispatchTask} (h : s.commits l = some t) :
    t ∈ s.leases ∧ t.past := by
  cases l with
  | dispatchStep n =>
    obtain ⟨ht, hplace⟩ := filter_eq_some_iff.mp h
    refine ⟨mem_of_getElem? ht, ?_⟩
    unfold DispatchTask.past
    split
    · next hleased => simp [hleased] at hplace
    · trivial
  | _ => cases h

/-- **Stale channels never commit.** In every run of installs, dispatches and the other users of
the control record: owners strictly increase, one channel is current at most, an effect of a
frame is committed while its channel is current, none of an older owner's channel after a newer
install, and no install brings a superseded decision. A booked decision stays superseded: no
later one has its lease, up to the end of the counter. -/
theorem stale_channels_never_commit {s : ChannelFence} (h : fenceMachine.Reachable s) :
    s.OwnersIncrease ∧ s.OneCurrent
      ∧ (∀ l t, s.commits l = some t → s.channelIsCurrent t.epoch t.owner = true)
      ∧ s.log.Pairwise NoLateCommit
      ∧ (∀ later owner d earlier, s.log = later ++ .installed owner (some d) :: earlier →
          ¬Superseded earlier d)
      ∧ (decisionsOf s.log).Pairwise (fun later earlier => LeaseBelow earlier later) := by
  have hinv := fenced_of_reachable h
  refine ⟨⟨hinv.increasing, hinv.newest⟩, hinv.oneCurrent, ?_, hinv.commits, ?_, hinv.leases⟩
  · intro l t hcommits
    obtain ⟨hmem, hpast⟩ := ChannelFence.past_of_commits hcommits
    exact hinv.fenced t hmem hpast
  · intro later owner d earlier hlog
    exact hinv.installs.not_superseded hlog

/-! ## An overtaken frame and an overtaken decision -/

namespace SampleFence

def bytes (b : UInt8) : BytesN 16 := ⟨List.replicate 16 b, by simp⟩

def channel (epoch : Nat) (decision : Option ResumeDecision) : InstallCall :=
  { epoch := epoch, policy := .force, decision := decision, expectedGeneration := none }

def ping : Frame :=
  { frameType := .ping, flags := 0, sessionId := bytes 1, streamId := 0,
    direction := .clientToProvider, byteOffset := 0, payload := [] }

def decision (lease : Nat) (nonce newToken : UInt8) : ResumeDecision :=
  { nonce := bytes nonce, fromGeneration := 1, fromToken := bytes 7, resultGeneration := lease + 1,
    resultToken := bytes newToken, leaseId := lease, remoteEpoch := 5, cached := false }

/-- A frame of the first channel is under way when the second campaign installs; the next one
comes too late, as does the install of the first campaign. -/
def overtaken : List FenceLabel :=
  [.installEnter (channel 1 none), .installStep, .installStep, .installStep, .installStep,
    .installStep, .installStep,
    .decideResume (bytes 20) 0 (bytes 7) (bytes 8) 5,
    .decideResume (bytes 21) 0 (bytes 7) (bytes 9) 5,
    .dispatchLease 1 1 ping,
    .installEnter (channel 2 (some (decision 2 21 9))), .installStep, .installStep, .installStep,
    .installStep,
    .dispatchStep 0, .pumpExits 1, .installStep, .dispatchStep 0, .dispatchStep 0,
    .installStep, .installStep,
    .dispatchLease 1 1 ping, .dispatchStep 0,
    .installEnter (channel 3 (some (decision 1 20 8))), .installStep, .installStep]

def start : ChannelFence := .fresh (bytes 1) (bytes 7) false .default

theorem overtaken_run : ∃ s, fenceMachine.run start overtaken = some s
    ∧ s.log = [.installed 2 (some (decision 2 21 9)), .committed 1, .decided (decision 2 21 9),
        .decided (decision 1 20 8), .installed 1 none]
    ∧ s.shared.staleFrameCount = 1 ∧ s.transition = none ∧ s.leases = [] :=
  ⟨_, rfl, rfl, rfl, rfl, rfl⟩

theorem overtaken_committed_before : ∃ s, fenceMachine.run start overtaken = some s
    ∧ installsOf s.log = [2, 1] ∧ s.OneCurrent ∧ s.log.Pairwise NoLateCommit := by
  obtain ⟨s, hrun, hlog, -⟩ := overtaken_run
  have hreach : fenceMachine.Reachable s :=
    Machine.reachable_of_run ⟨bytes 1, bytes 7, false, .default, rfl⟩ hrun
  obtain ⟨-, hone, -, hcommits, -⟩ := stale_channels_never_commit hreach
  exact ⟨s, hrun, by rw [hlog]; rfl, hone, hcommits⟩

end SampleFence

end Dweb
