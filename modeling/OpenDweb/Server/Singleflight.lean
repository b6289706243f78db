import OpenDweb.Server.CallbackRuns

/-!
# OpenDweb — one leader for each key

Who leads a key of the policy webhook, and what becomes of a key whose leader is gone. The channel
of a key is owned by the table of calls in flight, so nobody who waits on it notices a task that
ended without `finish`.

* **`Led`** — the keys in the table are those of the leaders at work and of those that vanished;
  every step keeps it.
* **`singleflight_recovery`** — at most one leader at work for each key; a key is blocked exactly in
  the runs in which a leader vanished, and stays so.
-/

namespace Dweb

open Std (ExtTreeMap)
open Option Std.ExtTreeMap
open Function (update update_of_ne update_self)

namespace Callback

section

variable {parse : Bytes → Option WebhookBody} {s s' : Flights}

/-- The task of leader `n` is at work. -/
def Flights.Alive (s : Flights) (n : Nat) : Prop :=
  s.tasks n = some .running ∨ ∃ d, s.tasks n = some (.stored d)

def Flights.Blocked (s : Flights) (key : CacheKey) : Prop :=
  ∃ n, s.provider.inflight[key]? = some n ∧ s.tasks n = some .vanished

/-- What a call in this phase may rely on: it finds its channel in the table, or a decision in it;
before it enters it leads nothing. -/
def JoinOk (p : Provider) (tasks : Nat → Option TaskPhase) (i : Nat) : Phase → Prop
  | .joining ask m => p.inflight[ask.key]? = some m ∨ p.published m ≠ none
  | .idle => p.leaders i = none ∧ tasks i = none
  | .missed _ => p.leaders i = none ∧ tasks i = none
  | _ => True

structure Led (s : Flights) : Prop where
  named : ∀ n, s.tasks n ≠ none → ∃ key, Leads s.provider n key
  inflight : ∀ (key : CacheKey) n, s.provider.inflight[key]? = some n →
    Leads s.provider n key ∧ (s.Alive n ∨ s.tasks n = some .vanished)
  holds : ∀ n key, Leads s.provider n key → s.Alive n ∨ s.tasks n = some .vanished →
    s.provider.inflight[key]? = some n
  calls : ∀ i, JoinOk s.provider s.tasks i (s.calls i)

theorem Leads.unique {p : Provider} {n : Nat} {key key' : CacheKey} (h : Leads p n key)
    (h' : Leads p n key') : key = key' := by
  obtain ⟨l, hl, rfl⟩ := h
  obtain ⟨l', hl', rfl⟩ := h'
  rw [hl, some.injEq] at hl'
  rw [hl']

theorem Led.setCall (h : Led s) {i : Nat} {phase : Phase}
    (hphase : JoinOk s.provider s.tasks i phase) : Led (s.setCall i phase) := by
  refine { h with calls := fun j => ?_ }
  show JoinOk s.provider s.tasks j (update s.calls i phase j)
  by_cases hji : j = i
  · rw [hji, update_self]
    exact hphase
  · rw [update_of_ne hji]
    exact h.calls j

theorem Led.leave (h : Led s) (channel : Nat) : Led (s.leave channel) := { h with }

theorem Led.cache (h : Led s) (key : CacheKey) (now : Nat) :
    Led { s with provider := (s.provider.lookup key now).1 } := by
  obtain ⟨cache, hcache⟩ := Provider.lookup_fst s.provider key now
  rw [hcache]
  exact { h with }

/-- **A call leads** a key that nobody has. -/
theorem Led.lead (h : Led s) {i : Nat} (hleaders : s.provider.leaders i = none)
    (htasks : s.tasks i = none) {ask : Ask} (hfree : s.provider.inflight[ask.key]? = none) :
    Led ({ s with
      provider := s.provider.lead i { key := ask.key, subject := ask.subject }
      receivers := update s.receivers i 0
      tasks := update s.tasks i (some .running) }.setCall i (.leading ask)) := by
  let p := s.provider.lead i { key := ask.key, subject := ask.subject }
  have hself : Leads p i ask.key := ⟨_, update_self i _ s.provider.leaders, rfl⟩
  -- who leads already is not `i`, and leads on
  have hother : ∀ {n key}, Leads p n key → n ≠ i → Leads s.provider n key := by
    intro n key ⟨l, hl, hkey⟩ hni
    refine ⟨l, ?_, hkey⟩
    rwa [show p.leaders n = s.provider.leaders n from update_of_ne hni _ _] at hl
  have hne : ∀ {n key}, Leads s.provider n key → n ≠ i := by
    intro n key ⟨l, hl, _⟩ hni
    rw [hni, hleaders] at hl
    cases hl
  have hsame : ∀ {n}, n ≠ i → update s.tasks i (some .running) n = s.tasks n :=
    fun hni => update_of_ne hni _ _
  constructor
  · intro n htask
    by_cases hni : n = i
    · rw [hni]
      exact ⟨ask.key, hself⟩
    · replace htask : update s.tasks i (some .running) n ≠ none := htask
      rw [hsame hni] at htask
      obtain ⟨key, hleads⟩ := h.named n htask
      exact ⟨key, hleads.lead hleaders _⟩
  · intro key n hin
    rcases getElem?_insert_cases hin with ⟨rfl, rfl⟩ | ⟨-, hin⟩
    · exact ⟨hself, Or.inl (Or.inl (update_self i _ s.tasks))⟩
    · obtain ⟨hleads, hphase⟩ := h.inflight key n hin
      refine ⟨hleads.lead hleaders _, ?_⟩
      unfold Flights.Alive
      rw [show Flights.tasks _ n = s.tasks n from hsame (hne hleads)]
      exact hphase
  · intro n key hleads hphase
    show (s.provider.inflight.insert ask.key i)[key]? = some n
    rw [getElem?_insert]
    by_cases hni : n = i
    · subst hni
      rw [if_pos (compare_eq_iff_eq.mpr (hself.unique hleads))]
    · have hold : s.provider.inflight[key]? = some n := by
        refine h.holds n key (hother hleads hni) ?_
        unfold Flights.Alive at hphase
        rw [show Flights.tasks _ n = s.tasks n from hsame hni] at hphase
        exact hphase
      rw [if_neg, hold]
      rw [compare_eq_iff_eq]
      intro heq
      rw [← heq, hfree] at hold
      cases hold
  · intro j
    show JoinOk p _ j (update s.calls i (.leading ask) j)
    by_cases hji : j = i
    · rw [hji, update_self]
      trivial
    · rw [update_of_ne hji]
      have hcall := h.calls j
      cases hphase : s.calls j with
      | joining ask' m =>
        rw [hphase] at hcall
        rcases hcall with hin | hpublished
        · left
          show (s.provider.inflight.insert ask.key i)[ask'.key]? = some m
          rw [getElem?_insert, if_neg, hin]
          rw [compare_eq_iff_eq]
          intro heq
          rw [← heq, hfree] at hin
          cases hin
        · exact Or.inr hpublished
      | idle =>
        rw [hphase] at hcall
        exact ⟨(update_of_ne hji _ _).trans hcall.1, (hsame hji).trans hcall.2⟩
      | missed ask' =>
        rw [hphase] at hcall
        exact ⟨(update_of_ne hji _ _).trans hcall.1, (hsame hji).trans hcall.2⟩
      | leading ask' => trivial
      | done ask' d route => trivial
      | dropped => trivial

/-- **A leader reaches `finish`, or vanishes**: its key stays in the table. -/
theorem Led.progress (h : Led s) {n : Nat} (hrunning : s.tasks n = some .running)
    {phase : TaskPhase} (hphase : (∃ d, phase = .stored d) ∨ phase = .vanished)
    (cache : ExtTreeMap CacheKey (Decision × Nat)) (asked : List (Subject × WebhookReply))
    (finished : List Finished) :
    Led { s with
      provider := { s.provider with cache, asked }
      tasks := update s.tasks n (some phase)
      finished } := by
  let tasks := update s.tasks n (some phase)
  have hself : tasks n = some phase := update_self n _ s.tasks
  have hsame : ∀ {m}, m ≠ n → tasks m = s.tasks m := fun hmn => update_of_ne hmn _ _
  have hbusy : (tasks n = some .running ∨ ∃ d, tasks n = some (.stored d))
      ∨ tasks n = some .vanished := by
    rw [hself]
    rcases hphase with ⟨d, rfl⟩ | rfl
    · exact Or.inl (Or.inr ⟨d, rfl⟩)
    · exact Or.inr rfl
  constructor
  · intro m htask
    by_cases hmn : m = n
    · rw [hmn]
      exact h.named n (by rw [hrunning]; exact some_ne_none _)
    · replace htask : tasks m ≠ none := htask
      rw [hsame hmn] at htask
      exact h.named m htask
  · intro key m hin
    obtain ⟨hleads, hold⟩ := h.inflight key m hin
    refine ⟨hleads, ?_⟩
    show (tasks m = some .running ∨ ∃ d, tasks m = some (.stored d)) ∨ tasks m = some .vanished
    by_cases hmn : m = n
    · rw [hmn]
      exact hbusy
    · rw [hsame hmn]
      exact hold
  · intro m key hleads hnow
    refine h.holds m key hleads ?_
    by_cases hmn : m = n
    · rw [hmn]
      exact Or.inl (Or.inl hrunning)
    · replace hnow : (tasks m = some .running ∨ ∃ d, tasks m = some (.stored d))
          ∨ tasks m = some .vanished := hnow
      rw [hsame hmn] at hnow
      exact hnow
  · intro i
    have hcall := h.calls i
    have hne : s.tasks i = none → i ≠ n := fun hnone hin => by
      rw [hin, hrunning] at hnone
      cases hnone
    show JoinOk { s.provider with cache, asked } tasks i (s.calls i)
    cases hi : s.calls i with
    | joining ask m =>
      rw [hi] at hcall
      exact hcall
    | idle =>
      rw [hi] at hcall
      exact ⟨hcall.1, (hsame (hne hcall.2)).trans hcall.2⟩
    | missed ask =>
      rw [hi] at hcall
      exact ⟨hcall.1, (hsame (hne hcall.2)).trans hcall.2⟩
    | leading ask => trivial
    | done ask d route => trivial
    | dropped => trivial

/-- **A leader publishes**: its key is free again, and its channel has a decision. -/
theorem Led.publish (h : Led s) {n : Nat} {leader : Leader} {d : Decision}
    (hleader : s.provider.leaders n = some leader) (hstored : s.tasks n = some (.stored d)) :
    Led { s with
      provider := s.provider.publish n leader.key d
      tasks := update s.tasks n (some .ended) } := by
  let tasks := update s.tasks n (some .ended)
  have hself : tasks n = some .ended := update_self n _ s.tasks
  have hsame : ∀ {m}, m ≠ n → tasks m = s.tasks m := fun hmn => update_of_ne hmn _ _
  have hleads : Leads s.provider n leader.key := ⟨leader, hleader, rfl⟩
  -- the channel that is used is its own
  have hown : s.provider.inflight[leader.key]? = some n :=
    h.holds n leader.key hleads (Or.inl (Or.inr ⟨d, hstored⟩))
  have hpublished : (s.provider.publish n leader.key d).published
      = update s.provider.published n (some d) := by
    simp only [Provider.publish, hown]
  constructor
  · intro m htask
    by_cases hmn : m = n
    · rw [hmn]
      exact ⟨leader.key, hleads⟩
    · replace htask : tasks m ≠ none := htask
      rw [hsame hmn] at htask
      exact h.named m htask
  · intro key m hin
    obtain ⟨hkey, hin⟩ := getElem?_erase_some hin
    obtain ⟨hm, hold⟩ := h.inflight key m hin
    have hmn : m ≠ n := fun heq => hkey (by
      rw [heq] at hm
      exact hleads.unique hm)
    refine ⟨hm, ?_⟩
    show (tasks m = some .running ∨ ∃ d, tasks m = some (.stored d)) ∨ tasks m = some .vanished
    rw [hsame hmn]
    exact hold
  · intro m key hm hnow
    have hmn : m ≠ n := fun heq => by
      replace hnow : (tasks m = some .running ∨ ∃ d, tasks m = some (.stored d))
          ∨ tasks m = some .vanished := hnow
      rw [heq, hself] at hnow
      rcases hnow with (hr | ⟨d', hd⟩) | hv
      · cases hr
      · cases hd
      · cases hv
    have hold : s.provider.inflight[key]? = some m := by
      refine h.holds m key hm ?_
      replace hnow : (tasks m = some .running ∨ ∃ d, tasks m = some (.stored d))
          ∨ tasks m = some .vanished := hnow
      rw [hsame hmn] at hnow
      exact hnow
    show (s.provider.inflight.erase leader.key)[key]? = some m
    rw [getElem?_erase, if_neg, hold]
    rw [compare_eq_iff_eq]
    intro heq
    rw [← heq, hown, some.injEq] at hold
    exact hmn hold.symm
  · intro i
    have hcall := h.calls i
    have hne : s.tasks i = none → i ≠ n := fun hnone hin => by
      rw [hin, hstored] at hnone
      cases hnone
    show JoinOk (s.provider.publish n leader.key d) tasks i (s.calls i)
    cases hi : s.calls i with
    | joining ask m =>
      rw [hi] at hcall
      show (s.provider.inflight.erase leader.key)[ask.key]? = some m
        ∨ (s.provider.publish n leader.key d).published m ≠ none
      rw [hpublished]
      by_cases hmn : m = n
      · right
        rw [hmn, update_self]
        exact some_ne_none d
      · rw [update_of_ne hmn]
        rcases hcall with hin | hdone
        · left
          rw [getElem?_erase, if_neg, hin]
          rw [compare_eq_iff_eq]
          intro heq
          rw [← heq, hown, some.injEq] at hin
          exact hmn hin.symm
        · exact Or.inr hdone
    | idle =>
      rw [hi] at hcall
      exact ⟨hcall.1, (hsame (hne hcall.2)).trans hcall.2⟩
    | missed ask =>
      rw [hi] at hcall
      exact ⟨hcall.1, (hsame (hne hcall.2)).trans hcall.2⟩
    | leading ask => trivial
    | done ask d route => trivial
    | dropped => trivial

theorem Led.not_lost (h : Led s) (i : Nat) : (flightMachine parse).step s (.lost i) = none := by
  simp only [flightMachine, Flights.step]
  split
  · next ask m hjoining =>
    have hcall := h.calls i
    rw [hjoining] at hcall
    refine if_neg ?_
    rintro ⟨hnone, hother⟩
    rcases hcall with hin | hpublished
    · exact hother hin
    · exact hpublished hnone
  · rfl

theorem Led.step (h : Led s) {l : FlightStep} (hstep : (flightMachine parse).step s l = some s') :
    Led s' := by
  cases l with
  | tick ms =>
    cases hstep
    exact { h with }
  | call i ask =>
    simp only [flightMachine, Flights.step] at hstep
    split at hstep
    · next hidle =>
      have hfresh : s.provider.leaders i = none ∧ s.tasks i = none := by
        have hcall := h.calls i
        rw [hidle] at hcall
        exact hcall
      have hlooked := h.cache ask.key s.now
      split at hstep
      · cases hstep
        exact hlooked.setCall trivial
      · cases hstep
        refine hlooked.setCall ?_
        obtain ⟨cache, hcache⟩ := Provider.lookup_fst s.provider ask.key s.now
        rw [hcache]
        exact hfresh
    · cases hstep
  | enter i =>
    simp only [flightMachine, Flights.step] at hstep
    split at hstep
    · next ask hmissed =>
      split at hstep
      · next m hin =>
        cases hstep
        have hjoined : Led { s with
            receivers := update s.receivers m (s.receivers m + 1) } := { h with }
        exact hjoined.setCall (Or.inl hin)
      · next hfree =>
        cases hstep
        have hcall := h.calls i
        rw [hmissed] at hcall
        exact h.lead hcall.1 hcall.2 hfree
    · cases hstep
  | receive i =>
    simp only [flightMachine, Flights.step] at hstep
    split at hstep
    · split at hstep
      · cases hstep
        exact (h.leave _).setCall trivial
      · cases hstep
    · split at hstep
      · cases hstep
        exact h.setCall trivial
      · cases hstep
    · cases hstep
  | giveUp i =>
    simp only [flightMachine, Flights.step] at hstep
    split at hstep
    · cases hstep
      exact (h.leave _).setCall trivial
    · cases hstep
      exact h.setCall trivial
    · cases hstep
  | lost i =>
    rw [h.not_lost i] at hstep
    cases hstep
  | drop i =>
    simp only [flightMachine, Flights.step] at hstep
    split at hstep
    · cases hstep
      exact (h.leave _).setCall trivial
    · cases hstep
      exact h.setCall trivial
    · cases hstep
  | store n ending =>
    simp only [flightMachine, Flights.step] at hstep
    split at hstep
    · next hrunning hleader =>
      cases hstep
      exact h.progress hrunning (Or.inl ⟨_, rfl⟩) _ _ _
    · cases hstep
  | publish n =>
    simp only [flightMachine, Flights.step] at hstep
    split at hstep
    · next d leader hstored hleader =>
      cases hstep
      exact h.publish hleader hstored
    · cases hstep
  | vanish n =>
    simp only [flightMachine, Flights.step] at hstep
    split at hstep
    · next hrunning =>
      cases hstep
      exact h.progress hrunning (Or.inr rfl) s.provider.cache s.provider.asked s.finished
    · cases hstep
  | invalidate =>
    cases hstep
    exact { h with }

theorem led_of_reachable (h : (flightMachine parse).Reachable s) : Led s := by
  refine h.invariant (fun s hinit => ?_) fun s l s' hled _ hstep => hled.step hstep
  obtain ⟨cacheTtlMs, rfl⟩ := hinit
  constructor
  · exact fun n htask => absurd rfl htask
  · intro key n hin
    replace hin : (∅ : ExtTreeMap CacheKey Nat)[key]? = some n := hin
    rw [getElem?_empty] at hin
    cases hin
  · exact fun n key ⟨l, hl, _⟩ => by cases hl
  · exact fun i => ⟨rfl, rfl⟩

/-! ## Leaders that vanish -/

/-- What a step does to who leads, and to who vanished. -/
structure Onward (s s' : Flights) (l : FlightStep) : Prop where
  leads : ∀ n key, Leads s.provider n key → Leads s'.provider n key
  gone : ∀ n, s'.tasks n = some .vanished ↔ s.tasks n = some .vanished ∨ l = .vanish n

theorem Onward.same {l : FlightStep} (hleaders : s'.provider.leaders = s.provider.leaders)
    (htasks : s'.tasks = s.tasks) (hl : ∀ n, l ≠ .vanish n) : Onward s s' l where
  leads n key hleads := by
    obtain ⟨leader, hleader, hkey⟩ := hleads
    exact ⟨leader, hleaders ▸ hleader, hkey⟩
  gone n := by rw [htasks, or_iff_left (hl n)]

theorem Onward.task {l : FlightStep} (hleads : ∀ n key, Leads s.provider n key →
      Leads s'.provider n key) {n : Nat} {phase : TaskPhase}
    (htasks : s'.tasks = update s.tasks n (some phase)) (hphase : phase ≠ .vanished)
    (hold : s.tasks n ≠ some .vanished) (hl : ∀ n, l ≠ .vanish n) : Onward s s' l where
  leads := hleads
  gone m := by
    rw [htasks, or_iff_left (hl m)]
    by_cases hmn : m = n
    · rw [hmn, update_self]
      exact iff_of_false (fun heq => hphase (some.inj heq)) hold
    · rw [update_of_ne hmn]

theorem Led.onward (h : Led s) {l : FlightStep} (hstep : (flightMachine parse).step s l = some s') :
    Onward s s' l := by
  cases l with
  | tick ms =>
    cases hstep
    exact .same rfl rfl (by simp)
  | call i ask =>
    simp only [flightMachine, Flights.step] at hstep
    obtain ⟨cache, hcache⟩ := Provider.lookup_fst s.provider ask.key s.now
    split at hstep
    · split at hstep
      · cases hstep
        refine .same ?_ rfl (by simp)
        show (s.provider.lookup ask.key s.now).1.leaders = _
        rw [hcache]
      · cases hstep
        refine .same ?_ rfl (by simp)
        show (s.provider.lookup ask.key s.now).1.leaders = _
        rw [hcache]
    · cases hstep
  | enter i =>
    simp only [flightMachine, Flights.step] at hstep
    split at hstep
    · next ask hmissed =>
      have hcall := h.calls i
      rw [hmissed] at hcall
      split at hstep
      · cases hstep
        exact .same rfl rfl (by simp)
      · cases hstep
        refine .task (fun n key hleads => hleads.lead hcall.1 _) rfl (by simp) ?_
          (by simp)
        rw [hcall.2]
        simp
    · cases hstep
  | receive i =>
    simp only [flightMachine, Flights.step] at hstep
    split at hstep
    · split at hstep
      · cases hstep
        exact .same rfl rfl (by simp)
      · cases hstep
    · split at hstep
      · cases hstep
        exact .same rfl rfl (by simp)
      · cases hstep
    · cases hstep
  | giveUp i =>
    simp only [flightMachine, Flights.step] at hstep
    split at hstep
    · cases hstep
      exact .same rfl rfl (by simp)
    · cases hstep
      exact .same rfl rfl (by simp)
    · cases hstep
  | lost i =>
    rw [h.not_lost i] at hstep
    cases hstep
  | drop i =>
    simp only [flightMachine, Flights.step] at hstep
    split at hstep
    · cases hstep
      exact .same rfl rfl (by simp)
    · cases hstep
      exact .same rfl rfl (by simp)
    · cases hstep
  | store n ending =>
    simp only [flightMachine, Flights.step] at hstep
    split at hstep
    · next hrunning hleader =>
      cases hstep
      refine .task (fun _ _ hleads => hleads) rfl (by simp) ?_
        (by simp)
      rw [hrunning]
      simp
    · cases hstep
  | publish n =>
    simp only [flightMachine, Flights.step] at hstep
    split at hstep
    · next d leader hstored hleader =>
      cases hstep
      refine .task (fun _ _ hleads => hleads) rfl (by simp) ?_
        (by simp)
      rw [hstored]
      simp
    · cases hstep
  | vanish n =>
    simp only [flightMachine, Flights.step] at hstep
    split at hstep
    · cases hstep
      refine ⟨fun _ _ hleads => hleads, fun m => ?_⟩
      show update s.tasks n (some .vanished) m = some .vanished ↔ _
      by_cases hmn : m = n
      · rw [hmn, update_self]
        exact iff_of_true rfl (Or.inr rfl)
      · rw [update_of_ne hmn, or_iff_left]
        intro heq
        cases heq
        exact hmn rfl
    · cases hstep
  | invalidate =>
    cases hstep
    exact .same rfl rfl (by simp)

theorem Led.blocked_iff (h : Led s) (key : CacheKey) :
    s.Blocked key ↔ ∃ n, Leads s.provider n key ∧ s.tasks n = some .vanished := by
  constructor
  · intro ⟨n, hin, hgone⟩
    exact ⟨n, (h.inflight key n hin).1, hgone⟩
  · intro ⟨n, hleads, hgone⟩
    exact ⟨n, h.holds n key hleads (Or.inr hgone), hgone⟩

def NoVanish (_ : Flights) : FlightStep → Prop
  | .vanish _ => False
  | _ => True

instance (s : Flights) (l : FlightStep) : Decidable (NoVanish s l) :=
  match l with
  | .vanish _ => .isFalse id
  | .tick _ | .call _ _ | .enter _ | .receive _ | .giveUp _ | .lost _ | .drop _ | .store _ _
  | .publish _ | .invalidate => .isTrue trivial

theorem Led.unblocked_step (h : Led s) {l : FlightStep}
    (hstep : (flightMachine parse).step s l = some s') :
    (∀ key, ¬s'.Blocked key) ↔ (∀ key, ¬s.Blocked key) ∧ NoVanish s l := by
  have h' := h.step hstep
  have honward := h.onward hstep
  constructor
  · intro hfree
    refine ⟨fun key hblocked => ?_, ?_⟩
    · obtain ⟨n, hleads, hgone⟩ := (h.blocked_iff key).mp hblocked
      exact hfree key ((h'.blocked_iff key).mpr
        ⟨n, honward.leads n key hleads, (honward.gone n).mpr (Or.inl hgone)⟩)
    · cases l with
      | vanish n =>
        have hgone : s'.tasks n = some .vanished := (honward.gone n).mpr (Or.inr rfl)
        obtain ⟨key, hleads⟩ := h'.named n (by rw [hgone]; exact some_ne_none _)
        exact hfree key ((h'.blocked_iff key).mpr ⟨n, hleads, hgone⟩)
      | tick => trivial
      | call => trivial
      | enter => trivial
      | receive => trivial
      | giveUp => trivial
      | lost => trivial
      | drop => trivial
      | store => trivial
      | publish => trivial
      | invalidate => trivial
  · intro ⟨hfree, hno⟩ key hblocked
    obtain ⟨n, hleads, hgone⟩ := (h'.blocked_iff key).mp hblocked
    rcases (honward.gone n).mp hgone with hold | hl
    · obtain ⟨key', hleads'⟩ := h.named n (by rw [hold]; exact some_ne_none _)
      exact hfree key' ((h.blocked_iff key').mpr ⟨n, hleads', hold⟩)
    · rw [hl] at hno
      exact hno

/-- **One leader at work for each key; none recovers.** A run blocks no key if and only if no
leader vanished in it. A key that is blocked stays in the table for good, and every call that comes
to it joins the leader that is gone. -/
theorem singleflight_recovery (parse : Bytes → Option WebhookBody) :
    (∀ s, (flightMachine parse).Reachable s → ∀ n m key, s.Alive n → s.Alive m →
      Leads s.provider n key → Leads s.provider m key → n = m)
      ∧ (∀ s₀ s ls, (flightMachine parse).init s₀ → (flightMachine parse).run s₀ ls = some s →
        ((∀ key, ¬s.Blocked key) ↔ (flightMachine parse).runUnder NoVanish s₀ ls = some s))
      ∧ ∀ s, (flightMachine parse).Reachable s → ∀ key, s.Blocked key →
        ∀ l s', (flightMachine parse).step s l = some s' → s'.Blocked key
          ∧ ∀ i ask, l = .enter i → s.calls i = .missed ask → ask.key = key →
            ∃ n, s'.calls i = .joining ask n := by
  refine ⟨?_, ?_, ?_⟩
  · intro s hreach n m key hn hm hleadsn hleadsm
    have hled := led_of_reachable hreach
    have hone := hled.holds n key hleadsn (Or.inl hn)
    rw [hled.holds m key hleadsm (Or.inl hm), some.injEq] at hone
    exact hone.symm
  · intro s₀ s ls hinit hrun
    refine Machine.iff_runUnder
      (fun s l s' hreach hstep => (led_of_reachable hreach).unblocked_step hstep) (.init hinit)
      ?_ hrun
    obtain ⟨cacheTtlMs, rfl⟩ := hinit
    intro key ⟨n, _, hgone⟩
    cases hgone
  · intro s hreach key hblocked l s' hstep
    have hled := led_of_reachable hreach
    have honward := hled.onward hstep
    constructor
    · obtain ⟨n, hleads, hgone⟩ := (hled.blocked_iff key).mp hblocked
      exact ((hled.step hstep).blocked_iff key).mpr
        ⟨n, honward.leads n key hleads, (honward.gone n).mpr (Or.inl hgone)⟩
    · intro i ask hl hmissed hkey
      obtain ⟨n, hin, _⟩ := hblocked
      subst hl hkey
      simp only [flightMachine, Flights.step, hmissed, hin] at hstep
      cases hstep
      exact ⟨n, update_self i _ s.calls⟩

end

namespace SampleWebhook

def aborted : List FlightStep :=
  [.call 0 ask, .enter 0, .call 1 ask, .enter 1, .vanish 0, .giveUp 0, .giveUp 1, .call 2 ask]

def timedOut : List FlightStep := [.call 0 ask, .enter 0, .store 0 .timedOut, .publish 0]

set_option maxRecDepth 4000 in
theorem timedOut_run : ∃ s, (flightMachine parse).run (.new 60000) timedOut = some s
    ∧ (flightMachine parse).runUnder NoVanish (.new 60000) timedOut = some s := ⟨_, rfl, rfl⟩

theorem finished_unblocked :
    ∃ s, (flightMachine parse).run (.new 60000) timedOut = some s ∧ ∀ key, ¬s.Blocked key := by
  obtain ⟨s, hrun, hunder⟩ := timedOut_run
  obtain ⟨-, hblocked, -⟩ := singleflight_recovery parse
  exact ⟨s, hrun, (hblocked (.new 60000) s timedOut ⟨60000, rfl⟩ hrun).mpr hunder⟩

set_option maxRecDepth 4000 in
theorem aborted_leader_blocks :
    ∃ s s', (flightMachine parse).Reachable s ∧ s.tasks 0 = some .vanished
      ∧ (∀ i ask n, s.calls i ≠ .joining ask n)
      ∧ s.provider.inflight[ask.key]? = some 0
      ∧ (flightMachine parse).step s (.enter 2) = some s' ∧ s'.calls 2 = .joining ask 0 := by
  have hrun : ∃ s s', (flightMachine parse).run (.new 60000) aborted = some s
      ∧ s.tasks 0 = some .vanished ∧ s.provider.inflight[ask.key]? = some 0
      ∧ (flightMachine parse).step s (.enter 2) = some s' ∧ s'.calls 2 = .joining ask 0
      ∧ s.calls = update (update (update (update
          (update (update (update (fun _ => .idle) 0 (.missed ask)) 0
          (.leading ask)) 1 (.missed ask)) 1 (.joining ask 0)) 0
          (.done ask .transientUnavailable .fallback)) 1
          (.done ask .transientUnavailable .fallback)) 2 (.missed ask) :=
    ⟨_, _, rfl, rfl, rfl, rfl, rfl, rfl⟩
  obtain ⟨s, s', hrun, hgone, hin, hstep, hjoins, hcalls⟩ := hrun
  refine ⟨s, s', Machine.reachable_of_run ⟨60000, rfl⟩ hrun, hgone, fun i a n => ?_, hin, hstep,
    hjoins⟩
  rw [hcalls]
  by_cases h2 : i = 2
  · subst h2
    simp
  · by_cases h1 : i = 1
    · subst h1
      simp
    · by_cases h0 : i = 0
      · subst h0
        simp
      · simp [update_of_ne h2, update_of_ne h1, update_of_ne h0]

end SampleWebhook

end Callback

end Dweb
