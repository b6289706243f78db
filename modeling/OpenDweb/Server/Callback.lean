import OpenDweb.Server.Cap
import OpenDweb.Lib.Updates

/-!
# OpenDweb — the policy webhook

Embedding of `CallbackProvider` of `dweb-server/src/access/callback.rs`: who asks the webhook, what
is made of its reply, and who shares the answer. The transport (resolution, TLS, HTTP) and the load
limits are what the environment makes of a call.

* **`Provider.lookup`**, **`Provider.lead`**, **`Provider.finish`** — the decision cache and the
  calls in flight, of which there is one for each key.
* **`Provider.Honest`** — a decision that allows is one that the webhook has given for this
  endpoint and this capability; every operation keeps it.
-/

namespace Dweb

open Std (ExtTreeMap)
open List Std.ExtTreeMap
open Function (update update_of_ne update_self)

namespace Callback

def MAX_CACHE_TTL_S : UInt64 := 60
def UNAVAILABLE_REASON : String := "dweb/policy-unavailable"
def POLICY_DENIED_REASON : String := "dweb/policy-denied"
def CACHE_MAX_ENTRIES : Nat := 10000

structure Decision where
  allow : Bool
  reason : String
  ttlMs : UInt64
  cacheable : Bool
  deriving DecidableEq

/-- `transient_unavailable`. -/
def Decision.transientUnavailable : Decision :=
  { allow := false, reason := UNAVAILABLE_REASON, ttlMs := 0, cacheable := false }

/-- `webhook_unavailable`. -/
def Decision.webhookUnavailable (defaultTtlMs : UInt64) : Decision :=
  { allow := false, reason := UNAVAILABLE_REASON, ttlMs := defaultTtlMs, cacheable := true }

/-! ## Replies -/

/-- `is_valid_reason`: `dweb/[a-z0-9][a-z0-9._-]\x7b0,63\x7d`. -/
def isValidReason (s : String) : Bool :=
  match (stripPrefix s "dweb/").map utf8Bytes with
  | none => false
  | some [] => false
  | some (first :: rest) =>
    (first :: rest).length ≤ 64 && ((97 ≤ first && first ≤ 122) || (48 ≤ first && first ≤ 57))
      && rest.all fun c => (97 ≤ c && c ≤ 122) || (48 ≤ c && c ≤ 57) || c == 46 || c == 95 || c == 45

/-- `sanitize_reason`. -/
def sanitizeReason : Option String → String
  | some reason => if isValidReason reason then reason else POLICY_DENIED_REASON
  | none => POLICY_DENIED_REASON

/-- The field `cache_ttl_s`: absent, a `u64`, or any other value. -/
inductive CacheTtl where
  | absent
  | secs (n : UInt64)
  | other

/-- `response_ttl_ms`. -/
def responseTtlMs (raw : CacheTtl) (defaultTtlMs : UInt64) : UInt64 :=
  let responseMs :=
    match raw with
    | .absent => defaultTtlMs
    | .secs secs => if secs ≤ MAX_CACHE_TTL_S then secs * 1000 else 0
    | .other => 0
  min responseMs defaultTtlMs

inductive WebhookReply where
  /-- No allowed address, no connection, a status other than 200, a body that is too long or is
  not JSON. -/
  | failed
  /-- A JSON body: `allow`, when it is a boolean, and the other two fields. -/
  | answered (allow : Option Bool) (reason : Option String) (cacheTtl : CacheTtl)

/-- `webhook_call`, on what came of it. -/
def webhookCall (defaultTtlMs : UInt64) : WebhookReply → Decision
  | .failed => .webhookUnavailable defaultTtlMs
  | .answered none _ _ => .webhookUnavailable defaultTtlMs
  | .answered (some true) _ cacheTtl =>
    { allow := true
      reason := ""
      ttlMs := responseTtlMs cacheTtl defaultTtlMs
      cacheable := true }
  | .answered (some false) reason cacheTtl =>
    { allow := false
      reason := sanitizeReason reason
      ttlMs := responseTtlMs cacheTtl defaultTtlMs
      cacheable := true }

inductive LeaderEnd where
  /-- The queue is full, no slot came free in time, or the endpoint has too many calls. -/
  | overloaded
  | replied (reply : WebhookReply)
  | timedOut

/-- `leader`. -/
def leader (cacheTtlMs : UInt64) : LeaderEnd → Decision
  | .overloaded => .transientUnavailable
  | .replied reply => webhookCall cacheTtlMs reply
  | .timedOut => .webhookUnavailable cacheTtlMs

theorem allow_leader {cacheTtlMs : UInt64} {ending : LeaderEnd}
    (h : (leader cacheTtlMs ending).allow = true) :
    ∃ reason cacheTtl, ending = .replied (.answered (some true) reason cacheTtl) := by
  cases ending with
  | overloaded => cases h
  | timedOut => cases h
  | replied reply =>
    cases reply with
    | failed => cases h
    | answered allow reason cacheTtl =>
      cases allow with
      | none => cases h
      | some allow =>
        cases allow with
        | false => cases h
        | true => exact ⟨reason, cacheTtl, rfl⟩

/-! ## Keys -/

/-- `hash_input`. -/
def hashInput (cap : RelayCap) : BytesN 113 :=
  ⟨[cap.caps] ++ (beBytes 8 cap.issuedAt.toNat ++ (beBytes 8 cap.expiresAt.toNat
    ++ (cap.fabricId.toBytes ++ (cap.issuer.toBytes ++ cap.recipient.toBytes)))), by
    simp only [length_append, length_singleton, length_beBytes, BytesN.length_toBytes]⟩

/-- `hash_input_none`. -/
def hashInputNone : BytesN 113 := ⟨List.replicate 113 0, length_replicate⟩

def projection : Option RelayCap → BytesN 113
  | some cap => hashInput cap
  | none => hashInputNone

theorem caps_of_hashInput {cap : RelayCap} (h : hashInput cap = hashInputNone) : cap.caps = 0 := by
  have hhead := congrArg (fun b : BytesN 113 => b.toBytes.head?) h
  exact Option.some.inj hhead

structure CacheKey where
  generation : UInt64
  visitorGeneration : UInt64
  endpointId : BytesN 32
  projection : BytesN 113

def CacheKey.tuple (k : CacheKey) : UInt64 ×ₗ UInt64 ×ₗ BytesN 32 ×ₗ BytesN 113 :=
  toLex (k.generation, toLex (k.visitorGeneration, toLex (k.endpointId, k.projection)))

instance : LinearOrder CacheKey := LinearOrder.lift' CacheKey.tuple fun a b h => by
  cases a
  cases b
  simp only [CacheKey.tuple, EmbeddingLike.apply_eq_iff_eq, Prod.mk.injEq] at h
  obtain ⟨rfl, rfl, rfl, rfl⟩ := h
  rfl

/-! ## The provider -/

/-- What the webhook is asked: an endpoint, and its capability if it has one. -/
structure Subject where
  endpointId : BytesN 32
  cap : Option RelayCap

/-- The key of a call, at the generations that its caller saw. -/
def Subject.key (subject : Subject) (generation visitorGeneration : UInt64) : CacheKey :=
  { generation
    visitorGeneration
    endpointId := subject.endpointId
    projection := projection subject.cap }

structure Leader where
  key : CacheKey
  subject : Subject

/-- The shared state of the provider. Leaders go by the number of the call that started them. -/
structure Provider where
  cacheTtlMs : UInt64
  cache : ExtTreeMap CacheKey (Decision × Nat)
  inflight : ExtTreeMap CacheKey Nat
  leaders : Nat → Option Leader
  published : Nat → Option Decision
  returned : Nat → Option Decision
  asked : List (Subject × WebhookReply)

namespace Provider

def new (cacheTtlMs : UInt64) : Provider :=
  { cacheTtlMs
    cache := ∅
    inflight := ∅
    leaders := fun _ => none
    published := fun _ => none
    returned := fun _ => none
    asked := [] }

/-- `cache_get`: an entry that has expired is removed. -/
def lookup (p : Provider) (key : CacheKey) (now : Nat) : Provider × Option Decision :=
  match p.cache[key]? with
  | some (d, expiry) =>
    if now < expiry then (p, some d) else ({ p with cache := p.cache.erase key }, none)
  | none => (p, none)

/-- Call `n` becomes the leader of its key. -/
def lead (p : Provider) (n : Nat) (leader : Leader) : Provider :=
  { p with
    inflight := p.inflight.insert leader.key n
    leaders := update p.leaders n (some leader) }

/-- The cache of `finish`. -/
def store (p : Provider) (key : CacheKey) (d : Decision) (now : Nat) :
    ExtTreeMap CacheKey (Decision × Nat) :=
  if d.cacheable && 0 < d.ttlMs then
    let cache := if CACHE_MAX_ENTRIES ≤ p.cache.size then ∅ else p.cache
    cache.insert key (d, now + d.ttlMs.toNat)
  else p.cache

def reply (subject : Subject) : LeaderEnd → List (Subject × WebhookReply)
  | .replied reply => [(subject, reply)]
  | _ => []

/-- Leader `n` ends: it returns, stores and publishes its decision. Whoever leads the key by now is
the one whose channel is used. -/
def finish (p : Provider) (n : Nat) (leader : Leader) (ending : LeaderEnd) (now : Nat) : Provider :=
  let d := Callback.leader p.cacheTtlMs ending
  { p with
    cache := p.store leader.key d now
    inflight := p.inflight.erase leader.key
    published :=
      match p.inflight[leader.key]? with
      | some m => update p.published m (some d)
      | none => p.published
    returned := update p.returned n (some d)
    asked := reply leader.subject ending ++ p.asked }

def heal (p : Provider) (key : CacheKey) : Provider := { p with inflight := p.inflight.erase key }

/-- `invalidate_all`. -/
def invalidateAll (p : Provider) : Provider := { p with cache := ∅ }

def Allowed (p : Provider) (subject : Subject) : Prop :=
  ∃ reason cacheTtl, (subject, .answered (some true) reason cacheTtl) ∈ p.asked

def Backed (p : Provider) (key : CacheKey) (d : Decision) : Prop :=
  d.allow = true → ∃ subject, p.Allowed subject ∧ subject.endpointId = key.endpointId
    ∧ projection subject.cap = key.projection

structure Honest (p : Provider) : Prop where
  caps : ∀ subject reply, (subject, reply) ∈ p.asked → ∀ cap ∈ subject.cap, cap.caps ≠ 0
  leaders : ∀ n leader, p.leaders n = some leader →
    (∀ cap ∈ leader.subject.cap, cap.caps ≠ 0)
      ∧ leader.key.endpointId = leader.subject.endpointId
      ∧ leader.key.projection = projection leader.subject.cap
  inflight : ∀ key n, p.inflight[key]? = some n → ∃ leader, p.leaders n = some leader
    ∧ leader.key = key
  cache : ∀ key d expiry, p.cache[key]? = some (d, expiry) → p.Backed key d
  published : ∀ n d, p.published n = some d → ∃ leader, p.leaders n = some leader
    ∧ p.Backed leader.key d
  returned : ∀ n d, p.returned n = some d → ∃ leader, p.leaders n = some leader
    ∧ p.Backed leader.key d

/-! ## Every operation keeps it -/

variable {p p' : Provider} {key : CacheKey} {d : Decision}

theorem Backed.mono (h : p.Backed key d) (hasked : ∀ a ∈ p.asked, a ∈ p'.asked) :
    p'.Backed key d := by
  intro hallow
  obtain ⟨subject, ⟨reason, cacheTtl, hmem⟩, hkey⟩ := h hallow
  exact ⟨subject, ⟨reason, cacheTtl, hasked _ hmem⟩, hkey⟩

theorem honest_new (cacheTtlMs : UInt64) : (new cacheTtlMs).Honest where
  caps _ _ h := absurd h not_mem_nil
  leaders _ _ h := nomatch h
  inflight key n h := by
    rw [new, getElem?_empty] at h
    cases h
  cache key d expiry h := by
    rw [new, getElem?_empty] at h
    cases h
  published _ _ h := nomatch h
  returned _ _ h := nomatch h

theorem lookup_fst (p : Provider) (key : CacheKey) (now : Nat) :
    ∃ cache, (p.lookup key now).1 = { p with cache } := by
  unfold Provider.lookup
  split
  · split
    · exact ⟨_, rfl⟩
    · exact ⟨_, rfl⟩
  · exact ⟨_, rfl⟩

theorem Honest.lookup (h : p.Honest) (key : CacheKey) (now : Nat) :
    (p.lookup key now).1.Honest ∧ ∀ d, (p.lookup key now).2 = some d →
      p.Backed key d := by
  unfold Provider.lookup
  split
  · next d expiry hentry =>
    split
    · refine ⟨h, fun d' hd' => ?_⟩
      cases hd'
      exact h.cache key d expiry hentry
    · refine ⟨{ h with cache := fun key' d' expiry' hcache => ?_ }, nofun⟩
      have hsub : p.cache[key']? = some (d', expiry') := by
        obtain ⟨-, hcache⟩ := getElem?_erase_some hcache
        exact hcache
      exact h.cache key' d' expiry' hsub
  · exact ⟨h, nofun⟩

theorem Honest.lead (h : p.Honest) {n : Nat} {leader : Leader} (hnew : p.leaders n = none)
    (hcaps : ∀ cap ∈ leader.subject.cap, cap.caps ≠ 0)
    (hendpoint : leader.key.endpointId = leader.subject.endpointId)
    (hprojection : leader.key.projection = projection leader.subject.cap) :
    (p.lead n leader).Honest := by
  -- the leaders that were there are there
  have hold : ∀ m leader', p.leaders m = some leader' →
      (p.lead n leader).leaders m = some leader' := by
    intro m leader' hm
    have hne : m ≠ n := by
      rintro rfl
      rw [hnew] at hm
      cases hm
    show update p.leaders n (some leader) m = some leader'
    rw [update_of_ne hne, hm]
  refine { h with leaders := ?_, inflight := ?_, published := ?_, returned := ?_ }
  · intro m leader' hm
    by_cases hmn : m = n
    · have hsame : update p.leaders n (some leader) n = some leader' := hmn ▸ hm
      rw [update_self] at hsame
      cases hsame
      exact ⟨hcaps, hendpoint, hprojection⟩
    · have hm' : update p.leaders n (some leader) m = some leader' := hm
      rw [update_of_ne hmn] at hm'
      exact h.leaders m leader' hm'
  · intro key m hm
    rcases getElem?_insert_cases hm with ⟨heq, rfl⟩ | ⟨-, hm'⟩
    · exact ⟨leader, update_self .., heq⟩
    · obtain ⟨leader', hleader, hkey⟩ := h.inflight key m hm'
      exact ⟨leader', hold m leader' hleader, hkey⟩
  · intro m d hm
    obtain ⟨leader', hleader, hbacked⟩ := h.published m d hm
    exact ⟨leader', hold m leader' hleader, hbacked⟩
  · intro m d hm
    obtain ⟨leader', hleader, hbacked⟩ := h.returned m d hm
    exact ⟨leader', hold m leader' hleader, hbacked⟩

theorem backed_leader {subject : Subject} {ending : LeaderEnd} {asked : List (Subject × WebhookReply)}
    (hendpoint : key.endpointId = subject.endpointId)
    (hprojection : key.projection = projection subject.cap)
    (hasked : p'.asked = reply subject ending ++ asked) :
    p'.Backed key (Callback.leader p.cacheTtlMs ending) := by
  intro hallow
  obtain ⟨reason, cacheTtl, rfl⟩ := allow_leader hallow
  refine ⟨subject, ⟨reason, cacheTtl, ?_⟩, hendpoint.symm, hprojection.symm⟩
  rw [hasked]
  exact mem_cons_self

theorem Honest.finish (h : p.Honest) {n : Nat} {leader : Leader} {ending : LeaderEnd} {now : Nat}
    (hleader : p.leaders n = some leader) : (p.finish n leader ending now).Honest := by
  obtain ⟨hcaps, hendpoint, hprojection⟩ := h.leaders n leader hleader
  have hmono : ∀ a ∈ p.asked, a ∈ (p.finish n leader ending now).asked :=
    fun a ha => mem_append_right _ ha
  have hdecision : (p.finish n leader ending now).Backed leader.key
      (Callback.leader p.cacheTtlMs ending) :=
    backed_leader hendpoint hprojection rfl
  refine ⟨?_, h.leaders, ?_, ?_, ?_, ?_⟩
  · intro subject rep hmem
    cases mem_append.mp hmem with
    | inr hold => exact h.caps subject rep hold
    | inl hnew =>
      cases ending with
      | replied rep' =>
        cases mem_singleton.mp hnew
        exact hcaps
      | overloaded => cases hnew
      | timedOut => cases hnew
  · intro key m hm
    obtain ⟨-, hm'⟩ := getElem?_erase_some hm
    exact h.inflight key m hm'
  · intro key d expiry hcache
    have hcache' : (p.store leader.key (Callback.leader p.cacheTtlMs ending) now)[key]?
        = some (d, expiry) := hcache
    -- the cache has what it had, and what was decided
    have hcases : (d = Callback.leader p.cacheTtlMs ending ∧ leader.key = key)
        ∨ p.cache[key]? = some (d, expiry) := by
      unfold Provider.store at hcache'
      split at hcache'
      · rcases getElem?_insert_cases hcache' with ⟨heq, hnew⟩ | ⟨-, hcache'⟩
        · cases hnew
          exact Or.inl ⟨rfl, heq⟩
        · split at hcache'
          · rw [getElem?_empty] at hcache'
            cases hcache'
          · exact Or.inr hcache'
      · exact Or.inr hcache'
    cases hcases with
    | inl hnew =>
      obtain ⟨rfl, rfl⟩ := hnew
      exact hdecision
    | inr hold => exact (h.cache key d expiry hold).mono hmono
  · intro m d hm
    have hm' : (match p.inflight[leader.key]? with
      | some k => update p.published k (some (Callback.leader p.cacheTtlMs ending))
      | none => p.published) m = some d := hm
    have hkept : p.published m = some d → ∃ leader', p.leaders m = some leader'
        ∧ (p.finish n leader ending now).Backed leader'.key d := by
      intro hpublished
      obtain ⟨leader', hl, hbacked⟩ := h.published m d hpublished
      exact ⟨leader', hl, hbacked.mono hmono⟩
    cases hk : p.inflight[leader.key]? with
    | none =>
      rw [hk] at hm'
      exact hkept hm'
    | some k =>
      rw [hk] at hm'
      have hchannel : update p.published k (some (Callback.leader p.cacheTtlMs ending)) m
          = some d := hm'
      by_cases hmk : m = k
      · -- the channel that is used is one of this key
        rw [hmk, update_self] at hchannel
        cases hchannel
        obtain ⟨leader', hl, hkey⟩ := h.inflight leader.key k hk
        rw [← hmk] at hl
        exact ⟨leader', hl, hkey ▸ hdecision⟩
      · rw [update_of_ne hmk] at hchannel
        exact hkept hchannel
  · intro m d hm
    rcases update_cases hm with ⟨hmn, hm'⟩ | ⟨-, hm'⟩
    · cases hm'
      exact ⟨leader, hmn ▸ hleader, hdecision⟩
    · obtain ⟨leader', hl, hbacked⟩ := h.returned m d hm'
      exact ⟨leader', hl, hbacked.mono hmono⟩

theorem Honest.heal (h : p.Honest) (key : CacheKey) : (p.heal key).Honest := by
  refine { h with inflight := ?_ }
  intro key' m hm
  obtain ⟨-, hm'⟩ := getElem?_erase_some hm
  exact h.inflight key' m hm'

theorem Honest.invalidateAll (h : p.Honest) : p.invalidateAll.Honest := by
  refine { h with cache := ?_ }
  intro key d expiry hcache
  have hcache' : (∅ : ExtTreeMap CacheKey (Decision × Nat))[key]? = some (d, expiry) := hcache
  rw [getElem?_empty] at hcache'
  cases hcache'

/-- **An answer that allows a call without a capability**, at a key of such a call, comes from a
reply to just that: no capability with a bit has the projection of none. -/
theorem Honest.allowed_none (h : p.Honest) {endpointId : BytesN 32} {g v : UInt64}
    (hbacked : p.Backed (Subject.key { endpointId, cap := none } g v) d) (hallow : d.allow = true) :
    p.Allowed { endpointId, cap := none } := by
  obtain ⟨subject, hallowed, hendpoint, hprojection⟩ := hbacked hallow
  have hnone : subject.cap = none := by
    cases hcap : subject.cap with
    | none => rfl
    | some cap =>
      obtain ⟨reason, cacheTtl, hmem⟩ := hallowed
      rw [hcap] at hprojection
      exact absurd (caps_of_hashInput hprojection) (h.caps _ _ hmem cap hcap)
  have hsubject : subject = { endpointId, cap := none } := by
    cases subject
    exact congrArg₂ Subject.mk hendpoint hnone
  rw [hsubject] at hallowed
  exact hallowed

end Provider

end Callback

end Dweb
