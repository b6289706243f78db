import OpenDweb.Lib.Machine
import OpenDweb.Server.Callback

/-!
# OpenDweb — calls of the policy webhook over time

`CallbackProvider::decide` and the tasks it spawns, one critical section after the other: the cache,
the calls in flight, the leader's exchange with the webhook, and the two halves of `finish`. Time
passes, callers give up or vanish, and the cache is cleared, between any two of them.

* **`webhookReply`** — the response handling of `webhook_call`.
* **`flightMachine`** — the calls, each with what it was asked, and the leaders' tasks.
* **`Stems`** — every decision that is stored, published, returned or answered is what a leader made
  of one finished exchange of its key.
* **`decisions_fresh`** — whoever is allowed is allowed by the webhook, for the same key, and not
  longer ago than the reply lets it be kept.
-/

namespace Dweb

open Std (ExtTreeMap)
open Std.ExtTreeMap
open Function (update update_of_ne update_self)

namespace Callback

def MAX_BODY_BYTES : Nat := 4096

/-! ## Responses -/

inductive BodyFrame where
  | data (bytes : Bytes)
  | trailers
  | failed

def readBody (buf : Bytes) : List BodyFrame → Option Bytes
  | [] => some buf
  | .data bytes :: rest =>
    if MAX_BODY_BYTES < buf.length + bytes.length then none else readBody (buf ++ bytes) rest
  | .trailers :: _ => none
  | .failed :: _ => none

/-- What `serde_json` finds in a body: `allow`, where it is a boolean, `reason`, where it is a
string, and `cache_ttl_s`. -/
structure WebhookBody where
  allow : Option Bool
  reason : Option String
  cacheTtl : CacheTtl

inductive Exchange where
  /-- The request is too long, there is no allowed address or no connection, or a handshake or the
  sending fails. -/
  | unreachable
  | responded (status : Nat) (frames : List BodyFrame)

section

-- `serde_json::from_slice`
variable (parse : Bytes → Option WebhookBody)

/-- `webhook_call`, up to the decision. -/
def webhookReply : Exchange → WebhookReply
  | .unreachable => .failed
  | .responded status frames =>
    if status ≠ 200 then .failed
    else
      match readBody [] frames with
      | none => .failed
      | some buf =>
        match parse buf with
        | none => .failed
        | some body => .answered body.allow body.reason body.cacheTtl

inductive TaskEnd where
  /-- The queue is full, no slot came free in time, or the endpoint has too many calls. -/
  | overloaded
  | exchanged (exchange : Exchange)
  | timedOut

def TaskEnd.leaderEnd : TaskEnd → LeaderEnd
  | .overloaded => .overloaded
  | .exchanged exchange => .replied (webhookReply parse exchange)
  | .timedOut => .timedOut

/-- An exchange that answered 200 and `allow = true`. -/
def Exchange.Allows (exchange : Exchange) (body : WebhookBody) : Prop :=
  ∃ frames buf, exchange = .responded 200 frames ∧ readBody [] frames = some buf
    ∧ parse buf = some body ∧ body.allow = some true

/-- **A leader allows only after such an exchange.** -/
theorem allow_leaderEnd {cacheTtlMs : UInt64} {ending : TaskEnd}
    (h : (leader cacheTtlMs (ending.leaderEnd parse)).allow = true) :
    ∃ exchange body, ending = .exchanged exchange ∧ exchange.Allows parse body
      ∧ (leader cacheTtlMs (ending.leaderEnd parse)).ttlMs
        = responseTtlMs body.cacheTtl cacheTtlMs := by
  obtain ⟨reason, cacheTtl, hreply⟩ := allow_leader h
  cases ending with
  | overloaded => cases hreply
  | timedOut => cases hreply
  | exchanged exchange =>
    replace hreply : LeaderEnd.replied (webhookReply parse exchange)
        = .replied (.answered (some true) reason cacheTtl) := hreply
    rw [LeaderEnd.replied.injEq] at hreply
    cases exchange with
    | unreachable => cases hreply
    | responded status frames =>
      rw [webhookReply] at hreply
      split at hreply
      · cases hreply
      · next hstatus =>
        rw [not_not] at hstatus
        split at hreply
        · cases hreply
        · next buf hbuf =>
          split at hreply
          · cases hreply
          · next body hbody =>
            rw [WebhookReply.answered.injEq] at hreply
            refine ⟨_, body, rfl, ⟨frames, buf, by rw [hstatus], hbuf, hbody, hreply.1⟩, ?_⟩
            have hrep : webhookReply parse (.responded status frames)
                = .answered (some true) body.reason body.cacheTtl := by
              rw [webhookReply, if_neg (not_not.mpr hstatus), hbuf]
              simp only [hbody, hreply.1]
            rw [TaskEnd.leaderEnd, hrep]
            rfl

theorem cacheable_leaderEnd {cacheTtlMs : UInt64} {ending : TaskEnd}
    (h : (leader cacheTtlMs (ending.leaderEnd parse)).cacheable = true) : ending ≠ .overloaded := by
  intro hload
  rw [hload] at h
  cases h

theorem responseTtlMs_le (raw : CacheTtl) (defaultTtlMs : UInt64) :
    (responseTtlMs raw defaultTtlMs).toNat ≤ defaultTtlMs.toNat
      ∧ ∀ n, raw = .secs n → (responseTtlMs raw defaultTtlMs).toNat ≤ n.toNat * 1000 := by
  have hmin : ∀ a : UInt64, (min a defaultTtlMs).toNat ≤ a.toNat
      ∧ (min a defaultTtlMs).toNat ≤ defaultTtlMs.toNat := fun a =>
    ⟨UInt64.le_iff_toNat_le.mp (min_le_left a defaultTtlMs),
      UInt64.le_iff_toNat_le.mp (min_le_right a defaultTtlMs)⟩
  constructor
  · exact (hmin _).2
  · intro n hraw
    subst hraw
    refine Nat.le_trans (hmin _).1 ?_
    show (if n ≤ MAX_CACHE_TTL_S then n * 1000 else 0).toNat ≤ n.toNat * 1000
    by_cases hle : n ≤ MAX_CACHE_TTL_S
    · rw [if_pos hle, UInt64.toNat_mul]
      exact Nat.mod_le _ _
    · rw [if_neg hle]
      exact Nat.zero_le _

/-! ## `finish`, in its two halves -/

def Provider.storeDecision (p : Provider) (leader : Leader) (ending : LeaderEnd) (now : Nat) :
    Provider :=
  { p with
    cache := p.store leader.key (Callback.leader p.cacheTtlMs ending) now
    asked := Provider.reply leader.subject ending ++ p.asked }

/-- The key is free again; who waits on the channel that was there gets the decision. -/
def Provider.publish (p : Provider) (n : Nat) (key : CacheKey) (d : Decision) : Provider :=
  { p with
    inflight := p.inflight.erase key
    published :=
      match p.inflight[key]? with
      | some m => update p.published m (some d)
      | none => p.published
    returned := update p.returned n (some d) }

/-! ## Calls and tasks -/

structure Ask where
  subject : Subject
  generation : UInt64
  visitorGeneration : UInt64

def Ask.key (ask : Ask) : CacheKey := ask.subject.key ask.generation ask.visitorGeneration

inductive Route where
  | cache (time : Nat)
  | shared
  | fallback

/-- Leaders go by the number of their call, channels by that of their leader. -/
inductive Phase where
  | idle
  | missed (ask : Ask)
  | joining (ask : Ask) (channel : Nat)
  | leading (ask : Ask)
  | done (ask : Ask) (d : Decision) (route : Route)
  | dropped

inductive TaskPhase where
  | running
  /-- Between the two halves of `finish`. -/
  | stored (d : Decision)
  | ended
  | vanished

/-- An exchange as it was when its leader reached `finish`. -/
structure Finished where
  leader : Leader
  ending : TaskEnd
  time : Nat

structure Flights where
  provider : Provider
  now : Nat
  /-- `receiver_count` of each channel. -/
  receivers : Nat → Nat
  tasks : Nat → Option TaskPhase
  calls : Nat → Phase
  finished : List Finished

inductive FlightStep where
  | tick (ms : Nat)
  /-- Call `i` looks into the cache. -/
  | call (i : Nat) (ask : Ask)
  | enter (i : Nat)
  | receive (i : Nat)
  | giveUp (i : Nat)
  | lost (i : Nat)
  | drop (i : Nat)
  /-- The task of leader `n` reaches `finish`. -/
  | store (n : Nat) (ending : TaskEnd)
  | publish (n : Nat)
  | vanish (n : Nat)
  /-- `invalidate_all`. -/
  | invalidate

namespace Flights

def setCall (s : Flights) (i : Nat) (phase : Phase) : Flights :=
  { s with calls := update s.calls i phase }

def leave (s : Flights) (channel : Nat) : Flights :=
  { s with receivers := update s.receivers channel (s.receivers channel - 1) }

/-- The key is taken out, if nobody receives on the channel that it has now. -/
def selfHeal (s : Flights) (key : CacheKey) : Flights :=
  if s.provider.inflight[key]?.any fun m => s.receivers m = 0 then
    { s with provider := s.provider.heal key }
  else s

def step (s : Flights) : FlightStep → Option Flights
  | .tick ms => some { s with now := s.now + ms }
  | .call i ask =>
    match s.calls i with
    | .idle =>
      let (provider, hit) := s.provider.lookup ask.key s.now
      match hit with
      | some d => some ({ s with provider }.setCall i (.done ask d (.cache s.now)))
      | none => some ({ s with provider }.setCall i (.missed ask))
    | _ => none
  | .enter i =>
    match s.calls i with
    | .missed ask =>
      match s.provider.inflight[ask.key]? with
      | some m =>
        some ({ s with
          receivers := update s.receivers m (s.receivers m + 1) }.setCall i
            (.joining ask m))
      | none =>
        some ({ s with
          provider := s.provider.lead i { key := ask.key, subject := ask.subject }
          receivers := update s.receivers i 0
          tasks := update s.tasks i (some .running) }.setCall i (.leading ask))
    | _ => none
  | .receive i =>
    match s.calls i with
    | .joining ask m =>
      match s.provider.published m with
      | some d => some ((s.leave m).setCall i (.done ask d .shared))
      | none => none
    | .leading ask =>
      match s.provider.returned i with
      | some d => some (s.setCall i (.done ask d .shared))
      | none => none
    | _ => none
  | .giveUp i =>
    match s.calls i with
    | .joining ask m =>
      some ((s.leave m).setCall i (.done ask .transientUnavailable .fallback))
    | .leading ask => some (s.setCall i (.done ask .transientUnavailable .fallback))
    | _ => none
  | .lost i =>
    match s.calls i with
    | .joining ask m =>
      -- the only sender of a channel is in the table
      if s.provider.published m = none ∧ s.provider.inflight[ask.key]? ≠ some m then
        some (((s.selfHeal ask.key).leave m).setCall i
          (.done ask .transientUnavailable .fallback))
      else none
    | _ => none
  | .drop i =>
    match s.calls i with
    | .joining _ m => some ((s.leave m).setCall i .dropped)
    | .leading _ => some (s.setCall i .dropped)
    | _ => none
  | .store n ending =>
    match s.tasks n, s.provider.leaders n with
    | some .running, some leader =>
      let d := Callback.leader s.provider.cacheTtlMs (ending.leaderEnd parse)
      some { s with
        provider := s.provider.storeDecision leader (ending.leaderEnd parse) s.now
        tasks := update s.tasks n (some (.stored d))
        finished := { leader, ending, time := s.now } :: s.finished }
    | _, _ => none
  | .publish n =>
    match s.tasks n, s.provider.leaders n with
    | some (.stored d), some leader =>
      some { s with
        provider := s.provider.publish n leader.key d
        tasks := update s.tasks n (some .ended) }
    | _, _ => none
  | .vanish n =>
    match s.tasks n with
    | some .running => some { s with tasks := update s.tasks n (some .vanished) }
    | _ => none
  | .invalidate => some { s with provider := s.provider.invalidateAll }

def new (cacheTtlMs : UInt64) : Flights where
  provider := .new cacheTtlMs
  now := 0
  receivers := fun _ => 0
  tasks := fun _ => none
  calls := fun _ => .idle
  finished := []

end Flights

def flightMachine : Machine Flights FlightStep where
  init s := ∃ cacheTtlMs, s = .new cacheTtlMs
  step := Flights.step parse

/-! ## Where decisions stem from -/

structure Leader.Named (l : Leader) : Prop where
  endpointId : l.subject.endpointId = l.key.endpointId
  projection : Callback.projection l.subject.cap = l.key.projection

/-- The decision is what a leader of the key made of this exchange. -/
structure Stems (cacheTtlMs : UInt64) (finished : List Finished) (key : CacheKey) (d : Decision)
    (f : Finished) : Prop where
  mem : f ∈ finished
  key : f.leader.key = key
  decision : d = Callback.leader cacheTtlMs (f.ending.leaderEnd parse)

/-- Leader `n` is one of this key. -/
def Leads (p : Provider) (n : Nat) (key : CacheKey) : Prop :=
  ∃ l, p.leaders n = some l ∧ l.key = key

/-- What the channel or the task of leader `n` holds. -/
def Sent (p : Provider) (finished : List Finished) (n : Nat) (d : Decision) : Prop :=
  ∃ key f, Leads p n key ∧ Stems parse p.cacheTtlMs finished key d f

def PhaseOk (p : Provider) (finished : List Finished) (i : Nat) : Phase → Prop
  | .idle => p.leaders i = none
  | .missed _ => p.leaders i = none
  | .joining ask m => Leads p m ask.key
  | .leading ask => Leads p i ask.key
  | .done ask d route => d = .transientUnavailable
      ∨ ∃ f, Stems parse p.cacheTtlMs finished ask.key d f
        ∧ ∀ t, route = .cache t → t < f.time + d.ttlMs.toNat
  | .dropped => True

structure Traced (s : Flights) : Prop where
  leaders : ∀ n l, s.provider.leaders n = some l → l.Named
  finished : ∀ f ∈ s.finished, f.leader.Named
  inflight : ∀ (key : CacheKey) n, s.provider.inflight[key]? = some n → Leads s.provider n key
  cache : ∀ (key : CacheKey) d expiry, s.provider.cache[key]? = some (d, expiry) →
    d.cacheable = true ∧ ∃ f, Stems parse s.provider.cacheTtlMs s.finished key d f
      ∧ expiry = f.time + d.ttlMs.toNat
  stored : ∀ n d, s.tasks n = some (.stored d) → Sent parse s.provider s.finished n d
  published : ∀ n d, s.provider.published n = some d → Sent parse s.provider s.finished n d
  returned : ∀ n d, s.provider.returned n = some d → Sent parse s.provider s.finished n d
  calls : ∀ i, PhaseOk parse s.provider s.finished i (s.calls i)

variable {parse} {s s' : Flights}

theorem Traced.setCall (h : Traced parse s) {i : Nat} {phase : Phase}
    (hphase : PhaseOk parse s.provider s.finished i phase) :
    Traced parse (s.setCall i phase) := by
  refine { h with calls := fun j => ?_ }
  show PhaseOk parse s.provider s.finished j (update s.calls i phase j)
  by_cases hji : j = i
  · rw [hji, update_self]
    exact hphase
  · rw [update_of_ne hji]
    exact h.calls j

theorem Traced.leave (h : Traced parse s) (channel : Nat) : Traced parse (s.leave channel) :=
  { h with }

theorem Sent.stems {p : Provider} {finished : List Finished} {n : Nat} {d : Decision}
    (h : Sent parse p finished n d) {key : CacheKey} (hkey : Leads p n key) :
    ∃ f, Stems parse p.cacheTtlMs finished key d f := by
  obtain ⟨key', f, ⟨l, hl, hlkey⟩, hstems⟩ := h
  obtain ⟨l', hl', hlkey'⟩ := hkey
  rw [hl, Option.some.injEq] at hl'
  rw [← hlkey', ← hl', hlkey]
  exact ⟨f, hstems⟩

/-- **A call looks into the cache.** -/
theorem Traced.lookup (h : Traced parse s) (key : CacheKey) :
    Traced parse { s with provider := (s.provider.lookup key s.now).1 }
      ∧ ∀ d, (s.provider.lookup key s.now).2 = some d →
        ∃ f, Stems parse s.provider.cacheTtlMs s.finished key d f
          ∧ s.now < f.time + d.ttlMs.toNat := by
  unfold Provider.lookup
  split
  · next d expiry hentry =>
    obtain ⟨-, f, hstems, hexpiry⟩ := h.cache key d expiry hentry
    split
    · next hlt =>
      refine ⟨h, fun d' hd' => ?_⟩
      cases hd'
      exact ⟨f, hstems, hexpiry ▸ hlt⟩
    · -- an entry that has expired is taken out
      refine ⟨{ h with cache := fun key' d' expiry' hcache => ?_ }, nofun⟩
      refine h.cache key' d' expiry' ?_
      obtain ⟨-, hcache⟩ := getElem?_erase_some hcache
      exact hcache
  · exact ⟨h, nofun⟩

theorem Leads.lead {p : Provider} {n : Nat} {key : CacheKey} (h : Leads p n key) {i : Nat}
    (hnone : p.leaders i = none) (leader : Leader) : Leads (p.lead i leader) n key := by
  obtain ⟨l, hl, hkey⟩ := h
  have hne : n ≠ i := fun heq => by
    rw [heq, hnone] at hl
    cases hl
  refine ⟨l, ?_, hkey⟩
  show update p.leaders i (some leader) n = some l
  rw [update_of_ne hne, hl]

/-- **A call leads.** -/
theorem Traced.lead (h : Traced parse s) {i : Nat} (hnone : s.provider.leaders i = none)
    (ask : Ask) :
    Traced parse ({ s with
      provider := s.provider.lead i { key := ask.key, subject := ask.subject }
      receivers := update s.receivers i 0
      tasks := update s.tasks i (some .running) }.setCall i (.leading ask)) := by
  have hsent : ∀ {n d}, Sent parse s.provider s.finished n d →
      Sent parse (s.provider.lead i { key := ask.key, subject := ask.subject }) s.finished n d :=
    fun ⟨key, f, hleads, hstems⟩ => ⟨key, f, hleads.lead hnone _, hstems⟩
  have hself : Leads (s.provider.lead i { key := ask.key, subject := ask.subject }) i ask.key :=
    ⟨_, update_self i _ s.provider.leaders, rfl⟩
  constructor
  · intro n l hl
    rcases update_cases hl with ⟨-, hl⟩ | ⟨-, hl⟩
    · cases hl
      exact ⟨rfl, rfl⟩
    · exact h.leaders n l hl
  · exact h.finished
  · intro key n hin
    rcases getElem?_insert_cases hin with ⟨rfl, rfl⟩ | ⟨-, hin⟩
    · exact hself
    · exact (h.inflight key n hin).lead hnone _
  · exact h.cache
  · intro n d hstored
    rcases update_cases hstored with ⟨-, hstored⟩ | ⟨-, hstored⟩
    · cases hstored
    · exact hsent (h.stored n d hstored)
  · exact fun n d hpublished => hsent (h.published n d hpublished)
  · exact fun n d hreturned => hsent (h.returned n d hreturned)
  · intro j
    show PhaseOk parse _ s.finished j (update s.calls i _ j)
    by_cases hji : j = i
    · rw [hji, update_self]
      exact hself
    · rw [update_of_ne hji]
      have hcall := h.calls j
      have hold : update s.provider.leaders i
          (some { key := ask.key, subject := ask.subject }) j = s.provider.leaders j :=
        update_of_ne hji _ _
      cases hphase : s.calls j with
      | idle =>
        rw [hphase] at hcall
        exact hold.trans hcall
      | missed ask' =>
        rw [hphase] at hcall
        exact hold.trans hcall
      | joining ask' m =>
        rw [hphase] at hcall
        exact hcall.lead hnone _
      | leading ask' =>
        rw [hphase] at hcall
        exact hcall.lead hnone _
      | done ask' d route =>
        rw [hphase] at hcall
        exact hcall
      | dropped => trivial

theorem Stems.cons {cacheTtlMs : UInt64} {finished : List Finished} {key : CacheKey}
    {d : Decision} {f : Finished} (h : Stems parse cacheTtlMs finished key d f) (g : Finished) :
    Stems parse cacheTtlMs (g :: finished) key d f :=
  ⟨List.mem_cons_of_mem g h.mem, h.key, h.decision⟩

/-- **A leader stores its decision.** -/
theorem Traced.store (h : Traced parse s) {n : Nat} {leader : Leader}
    (hleader : s.provider.leaders n = some leader) (ending : TaskEnd) :
    Traced parse { s with
      provider := s.provider.storeDecision leader (ending.leaderEnd parse) s.now
      tasks := update s.tasks n
        (some (.stored (Callback.leader s.provider.cacheTtlMs (ending.leaderEnd parse))))
      finished := { leader, ending, time := s.now } :: s.finished } := by
  let g : Finished := { leader, ending, time := s.now }
  have hself : Stems parse s.provider.cacheTtlMs (g :: s.finished) leader.key
      (Callback.leader s.provider.cacheTtlMs (ending.leaderEnd parse)) g :=
    ⟨List.mem_cons_self, rfl, rfl⟩
  have hsent : ∀ {m d}, Sent parse s.provider s.finished m d →
      Sent parse (s.provider.storeDecision leader (ending.leaderEnd parse) s.now)
        (g :: s.finished) m d :=
    fun ⟨key, f, hleads, hstems⟩ => ⟨key, f, hleads, hstems.cons g⟩
  constructor
  · exact h.leaders
  · intro f hf
    rcases List.mem_cons.mp hf with rfl | hf
    · exact h.leaders n leader hleader
    · exact h.finished f hf
  · exact h.inflight
  · intro key d expiry hcache
    replace hcache : (s.provider.store leader.key _ s.now)[key]? = some (d, expiry) := hcache
    have hkept : s.provider.cache[key]? = some (d, expiry) → d.cacheable = true
        ∧ ∃ f, Stems parse s.provider.cacheTtlMs (g :: s.finished) key d f
          ∧ expiry = f.time + d.ttlMs.toNat := fun hold => by
      obtain ⟨hcacheable, f, hstems, hexpiry⟩ := h.cache key d expiry hold
      exact ⟨hcacheable, f, hstems.cons g, hexpiry⟩
    unfold Provider.store at hcache
    split at hcache
    · next hcond =>
      rcases getElem?_insert_cases hcache with ⟨rfl, hnew⟩ | ⟨-, hcache⟩
      · cases hnew
        exact ⟨(Bool.and_eq_true_iff.mp hcond).1, g, hself, rfl⟩
      · split at hcache
        · rw [getElem?_empty] at hcache
          cases hcache
        · exact hkept hcache
    · exact hkept hcache
  · intro m d hstored
    rcases update_cases hstored with ⟨hmn, hstored⟩ | ⟨-, hstored⟩
    · cases hstored
      exact ⟨leader.key, g, ⟨leader, hmn ▸ hleader, rfl⟩, hself⟩
    · exact hsent (h.stored m d hstored)
  · exact fun m d hpublished => hsent (h.published m d hpublished)
  · exact fun m d hreturned => hsent (h.returned m d hreturned)
  · intro i
    have hcall := h.calls i
    show PhaseOk parse (s.provider.storeDecision leader (ending.leaderEnd parse) s.now)
      (g :: s.finished) i (s.calls i)
    cases hphase : s.calls i with
    | done ask d route =>
      rw [hphase] at hcall
      rcases hcall with htransient | ⟨f, hstems, hfresh⟩
      · exact Or.inl htransient
      · exact Or.inr ⟨f, hstems.cons g, hfresh⟩
    | idle =>
      rw [hphase] at hcall
      exact hcall
    | missed ask =>
      rw [hphase] at hcall
      exact hcall
    | joining ask m =>
      rw [hphase] at hcall
      exact hcall
    | leading ask =>
      rw [hphase] at hcall
      exact hcall
    | dropped => trivial

/-- **A leader publishes its decision**, on the channel of its key. -/
theorem Traced.publish (h : Traced parse s) {n : Nat} {leader : Leader} {d : Decision}
    (hleader : s.provider.leaders n = some leader) (hstored : s.tasks n = some (.stored d)) :
    Traced parse { s with
      provider := s.provider.publish n leader.key d
      tasks := update s.tasks n (some .ended) } := by
  obtain ⟨f, hstems⟩ := (h.stored n d hstored).stems ⟨leader, hleader, rfl⟩
  refine { h with inflight := ?_, stored := ?_, published := ?_, returned := ?_ }
  · intro key m hin
    obtain ⟨-, hin⟩ := getElem?_erase_some hin
    exact h.inflight key m hin
  · intro m d' hm
    rcases update_cases hm with ⟨-, hm⟩ | ⟨-, hm⟩
    · cases hm
    · exact h.stored m d' hm
  · intro m d' hm
    replace hm : (match s.provider.inflight[leader.key]? with
      | some k => update s.provider.published k (some d)
      | none => s.provider.published) m = some d' := hm
    cases hk : s.provider.inflight[leader.key]? with
    | none =>
      rw [hk] at hm
      exact h.published m d' hm
    | some k =>
      rw [hk] at hm
      rcases update_cases hm with ⟨hmk, hm⟩ | ⟨-, hm⟩
      · cases hm
        exact ⟨leader.key, f, hmk ▸ h.inflight leader.key k hk, hstems⟩
      · exact h.published m d' hm
  · intro m d' hm
    rcases update_cases hm with ⟨hmn, hm⟩ | ⟨-, hm⟩
    · cases hm
      exact ⟨leader.key, f, ⟨leader, hmn ▸ hleader, rfl⟩, hstems⟩
    · exact h.returned m d' hm

theorem Traced.heal (h : Traced parse s) (key : CacheKey) :
    Traced parse { s with provider := s.provider.heal key } := by
  refine { h with inflight := fun key' m hin => ?_ }
  obtain ⟨-, hin⟩ := getElem?_erase_some hin
  exact h.inflight key' m hin

theorem Traced.step (h : Traced parse s) {l : FlightStep}
    (hstep : (flightMachine parse).step s l = some s') : Traced parse s' := by
  cases l with
  | tick ms =>
    cases hstep
    exact { h with }
  | call i ask =>
    simp only [flightMachine, Flights.step] at hstep
    split at hstep
    · next hidle =>
      have hnone : s.provider.leaders i = none := by
        have hcall := h.calls i
        rw [hidle] at hcall
        exact hcall
      obtain ⟨hlooked, hhit⟩ := h.lookup ask.key
      split at hstep
      · next d hd =>
        cases hstep
        obtain ⟨f, hstems, hlt⟩ := hhit d hd
        refine hlooked.setCall (Or.inr ⟨f, ?_, fun t ht => by cases ht; exact hlt⟩)
        obtain ⟨cache, hcache⟩ := Provider.lookup_fst s.provider ask.key s.now
        rw [hcache]
        exact hstems
      · cases hstep
        refine hlooked.setCall ?_
        obtain ⟨cache, hcache⟩ := Provider.lookup_fst s.provider ask.key s.now
        rw [hcache]
        exact hnone
    · cases hstep
  | enter i =>
    simp only [flightMachine, Flights.step] at hstep
    split at hstep
    · next ask hmissed =>
      split at hstep
      · next m hin =>
        cases hstep
        have hjoined : Traced parse { s with
            receivers := update s.receivers m (s.receivers m + 1) } := { h with }
        exact hjoined.setCall (h.inflight ask.key m hin)
      · cases hstep
        refine h.lead ?_ ask
        have hcall := h.calls i
        rw [hmissed] at hcall
        exact hcall
    · cases hstep
  | receive i =>
    simp only [flightMachine, Flights.step] at hstep
    have hcall := h.calls i
    split at hstep
    · next ask m hjoining =>
      rw [hjoining] at hcall
      split at hstep
      · next d hd =>
        cases hstep
        obtain ⟨f, hstems⟩ := (h.published m d hd).stems hcall
        exact (h.leave m).setCall (Or.inr ⟨f, hstems, nofun⟩)
      · cases hstep
    · next ask hleading =>
      rw [hleading] at hcall
      split at hstep
      · next d hd =>
        cases hstep
        obtain ⟨f, hstems⟩ := (h.returned i d hd).stems hcall
        exact h.setCall (Or.inr ⟨f, hstems, nofun⟩)
      · cases hstep
    · cases hstep
  | giveUp i =>
    simp only [flightMachine, Flights.step] at hstep
    split at hstep
    · cases hstep
      exact (h.leave _).setCall (Or.inl rfl)
    · cases hstep
      exact h.setCall (Or.inl rfl)
    · cases hstep
  | lost i =>
    simp only [flightMachine, Flights.step] at hstep
    split at hstep
    · next ask m hjoining =>
      split at hstep
      · cases hstep
        have hhealed : Traced parse (s.selfHeal ask.key) := by
          unfold Flights.selfHeal
          split
          · exact h.heal ask.key
          · exact h
        exact (hhealed.leave m).setCall (Or.inl rfl)
      · cases hstep
    · cases hstep
  | drop i =>
    simp only [flightMachine, Flights.step] at hstep
    split at hstep
    · cases hstep
      exact (h.leave _).setCall trivial
    · cases hstep
      exact h.setCall trivial
    · cases hstep
  | store n ending =>
    simp only [flightMachine, Flights.step] at hstep
    split at hstep
    · next hrunning hleader =>
      cases hstep
      exact h.store hleader ending
    · cases hstep
  | publish n =>
    simp only [flightMachine, Flights.step] at hstep
    split at hstep
    · next d leader hstored hleader =>
      cases hstep
      exact h.publish hleader hstored
    · cases hstep
  | vanish n =>
    simp only [flightMachine, Flights.step] at hstep
    split at hstep
    · cases hstep
      refine { h with stored := fun m d hm => ?_ }
      rcases update_cases hm with ⟨-, hm⟩ | ⟨-, hm⟩
      · cases hm
      · exact h.stored m d hm
    · cases hstep
  | invalidate =>
    cases hstep
    refine { h with cache := fun key d expiry hcache => ?_ }
    replace hcache : (∅ : ExtTreeMap CacheKey (Decision × Nat))[key]? = some (d, expiry) := hcache
    rw [getElem?_empty] at hcache
    cases hcache

theorem traced_of_reachable (h : (flightMachine parse).Reachable s) : Traced parse s := by
  refine h.invariant (fun s hinit => ?_) fun s l s' htraced _ hstep => htraced.step hstep
  obtain ⟨cacheTtlMs, rfl⟩ := hinit
  constructor
  · exact nofun
  · exact nofun
  · intro key n hin
    replace hin : (∅ : ExtTreeMap CacheKey Nat)[key]? = some n := hin
    rw [getElem?_empty] at hin
    cases hin
  · intro key d expiry hcache
    replace hcache : (∅ : ExtTreeMap CacheKey (Decision × Nat))[key]? = some (d, expiry) := hcache
    rw [getElem?_empty] at hcache
    cases hcache
  · exact nofun
  · exact nofun
  · exact nofun
  · exact fun i => rfl

/-- **Decisions are fresh and never invented.** In every state of every run, a call that is allowed
is allowed by an exchange of its key that answered 200 and `allow = true`; one that the cache
answers, by an exchange that finished less than the reply's and the configured time ago. What the
cache has never stems from a refusal for load. -/
theorem decisions_fresh (h : (flightMachine parse).Reachable s) :
    (∀ i ask d route, s.calls i = .done ask d route → d.allow = true →
      ∃ f ∈ s.finished, f.leader.key = ask.key
        ∧ f.leader.subject.endpointId = ask.subject.endpointId
        ∧ projection f.leader.subject.cap = projection ask.subject.cap
        ∧ ∃ exchange body, f.ending = .exchanged exchange ∧ exchange.Allows parse body
          ∧ ∀ t, route = .cache t → t < f.time + s.provider.cacheTtlMs.toNat
            ∧ ∀ secs, body.cacheTtl = .secs secs → t < f.time + secs.toNat * 1000)
      ∧ ∀ (key : CacheKey) d expiry, s.provider.cache[key]? = some (d, expiry) →
        ∃ f ∈ s.finished, f.leader.key = key ∧ f.ending ≠ .overloaded
          ∧ d = Callback.leader s.provider.cacheTtlMs (f.ending.leaderEnd parse) := by
  have htraced := traced_of_reachable h
  constructor
  · intro i ask d route hcall hallow
    have hok := htraced.calls i
    rw [hcall] at hok
    rcases hok with rfl | ⟨f, ⟨hmem, hkey, rfl⟩, hfresh⟩
    · cases hallow
    · obtain ⟨exchange, body, hending, hallows, httl⟩ := allow_leaderEnd parse hallow
      obtain ⟨hendpoint, hprojection⟩ := htraced.finished f hmem
      rw [hkey] at hendpoint hprojection
      refine ⟨f, hmem, hkey, hendpoint, hprojection, exchange, body, hending, hallows, ?_⟩
      intro t ht
      have hlt := hfresh t ht
      rw [httl] at hlt
      obtain ⟨hconfigured, hsecs⟩ :=
        responseTtlMs_le body.cacheTtl s.provider.cacheTtlMs
      refine ⟨by omega, fun secs hs => ?_⟩
      have hle := hsecs secs hs
      omega
  · intro key d expiry hcache
    obtain ⟨hcacheable, f, ⟨hmem, hkey, rfl⟩, -⟩ := htraced.cache key d expiry hcache
    exact ⟨f, hmem, hkey, cacheable_leaderEnd parse hcacheable, rfl⟩

end

namespace SampleWebhook

def allowText : String := "\x7b\"allow\":true,\"cache_ttl_s\":30\x7d"

def parse (bytes : Bytes) : Option WebhookBody :=
  if bytes = utf8Bytes allowText then
    some { allow := some true, reason := none, cacheTtl := .secs 30 }
  else none

def ask : Ask where
  subject := { endpointId := BytesN.ofNat 32 7, cap := none }
  generation := 1
  visitorGeneration := 1

def steps : List FlightStep :=
  [.call 0 ask, .enter 0, .store 0 (.exchanged (.responded 200 [.data (utf8Bytes allowText)])),
    .publish 0, .receive 0, .tick 10000, .call 1 ask]

set_option maxRecDepth 4000 in
theorem cached_allow_fresh :
    ∃ s, (flightMachine parse).run (.new 60000) steps = some s
      ∧ (∃ d, s.calls 1 = .done ask d (.cache 10000) ∧ d.allow = true)
      ∧ ∃ f ∈ s.finished, f.leader.key = ask.key ∧ 10000 < f.time + 60000 := by
  have hrun : ∃ s d, (flightMachine parse).run (.new 60000) steps = some s
      ∧ s.calls 1 = .done ask d (.cache 10000) ∧ d.allow = true
      ∧ s.provider.cacheTtlMs = 60000 := ⟨_, _, rfl, rfl, rfl, rfl⟩
  obtain ⟨s, d, hrun, hcall, hallow, httl⟩ := hrun
  obtain ⟨hfresh, -⟩ := decisions_fresh (Machine.reachable_of_run ⟨60000, rfl⟩ hrun)
  obtain ⟨f, hmem, hkey, -, -, exchange, body, -, -, hroute⟩ := hfresh 1 ask d _ hcall hallow
  obtain ⟨hlt, -⟩ := hroute 10000 rfl
  rw [httl] at hlt
  exact ⟨s, hrun, ⟨d, hcall, hallow⟩, f, hmem, hkey, hlt⟩

end SampleWebhook

end Callback

end Dweb
