import OpenDweb.Lib.Machine
import OpenDweb.Server.CapAgreement
import OpenDweb.Server.Rendezvous

/-!
# OpenDweb — announcements in any order

Every announcement that is accepted overwrites what its endpoint announced before and starts its
lifetime again. A captured request is accepted again while its timestamp is in the window.

* **`Undisplaced`** — what resolves is what was announced with the greatest timestamp, and no
  longer than that announcement's timestamp, window and lifetime allow.
* **`rendezvous_iff`** — a run keeps to that exactly if no announcement older than an accepted one
  takes its place with other addresses.
-/

namespace Dweb

open Std (ExtTreeMap)
open Option

namespace Rendezvous

/-! ## Runs of announcements -/

/-- A request for an endpoint, and the server's clock when it is handled. -/
structure Announcement where
  idBytes : BytesN 32
  req : AnnounceRequest
  now : UInt64

def Announcement.entry (a : Announcement) : Entry where
  addrs := a.req.addrs
  expiresAtMs := a.now + a.req.ttlSecs * 1000

/-- The registry, and the announcements it accepted, the last one first. -/
structure RendezvousRun where
  entries : Entries
  accepted : List Announcement

section

variable [ServerCrypto]

/-- Accepted announcements, one after the other: replayed, reordered, of any endpoint, at any
reading of the clock. -/
def rendezvousMachine : Machine RendezvousRun Announcement where
  init s := s = { entries := ∅, accepted := [] }
  step s a :=
    match handleAnnounce s.entries a.idBytes a.req a.now with
    | .ok entries => some { entries, accepted := a :: s.accepted }
    | .error _ => none

end

def RendezvousRun.Latest (s : RendezvousRun) (a : Announcement) : Prop :=
  a ∈ s.accepted ∧ ∀ b ∈ s.accepted, b.idBytes = a.idBytes → b.req.timestampMs ≤ a.req.timestampMs

structure Undisplaced (s : RendezvousRun) : Prop where
  latest : ∀ idBytes now e, resolve s.entries idBytes now = some e →
    ∃ a, s.Latest a ∧ a.idBytes = idBytes ∧ a.req.addrs = e.addrs
  expiry : ∀ idBytes now e, resolve s.entries idBytes now = some e →
    ∃ a ∈ s.accepted, a.idBytes = idBytes ∧ a.entry = e
      ∧ now.toNat < a.req.timestampMs.toNat + TIMESTAMP_WINDOW_MS.toNat + a.req.ttlSecs.toNat * 1000

/-- The announcement is not older than an accepted one, or says the same, or expires at zero. -/
def TakesNoPlace (s : RendezvousRun) (a : Announcement) : Prop :=
  a.entry.expiresAtMs = 0
    ∨ (∀ b ∈ s.accepted, b.idBytes = a.idBytes → b.req.timestampMs ≤ a.req.timestampMs)
    ∨ ∃ b ∈ s.accepted, b.idBytes = a.idBytes ∧ b.req.addrs = a.req.addrs
      ∧ ∀ c ∈ s.accepted, c.idBytes = a.idBytes → c.req.timestampMs ≤ b.req.timestampMs

instance (s : RendezvousRun) (a : Announcement) : Decidable (TakesNoPlace s a) := by
  unfold TakesNoPlace
  have hlatest : DecidablePred fun b : Announcement => b.idBytes = a.idBytes
      ∧ b.req.addrs = a.req.addrs
      ∧ ∀ c ∈ s.accepted, c.idBytes = a.idBytes → c.req.timestampMs ≤ b.req.timestampMs :=
    fun _ => inferInstance
  infer_instance

/-! ## What every run keeps -/

/-- The registry holds the last accepted announcement of each endpoint, accepted in its window. -/
structure Registered (s : RendezvousRun) : Prop where
  entries : ∀ idBytes, s.entries[idBytes]?
    = (s.accepted.find? fun a => a.idBytes = idBytes).map Announcement.entry
  window : ∀ a ∈ s.accepted, absDiff a.req.timestampMs a.now ≤ TIMESTAMP_WINDOW_MS

theorem toNat_le_of_absDiff {a b d : UInt64} (h : absDiff a b ≤ d) :
    b.toNat ≤ a.toNat + d.toNat := by
  unfold absDiff at h
  rw [UInt64.le_iff_toNat_le] at h
  split at h
  · next hlt =>
    rw [UInt64.toNat_sub_of_le _ _ (UInt64.le_of_lt hlt)] at h
    omega
  · next hle =>
    have := UInt64.le_iff_toNat_le.mp (UInt64.not_lt.mp hle)
    omega

theorem toNat_expiresAtMs_le (a : Announcement) :
    a.entry.expiresAtMs.toNat ≤ a.now.toNat + a.req.ttlSecs.toNat * 1000 := by
  unfold Announcement.entry
  rw [UInt64.toNat_add, UInt64.toNat_mul]
  have hmod := Nat.mod_le (a.now.toNat + a.req.ttlSecs.toNat * (1000 : UInt64).toNat % 2 ^ 64)
    (2 ^ 64)
  have hmul := Nat.mod_le (a.req.ttlSecs.toNat * (1000 : UInt64).toNat) (2 ^ 64)
  have hthousand : (1000 : UInt64).toNat = 1000 := rfl
  rw [hthousand] at hmod hmul ⊢
  omega

theorem resolve_eq_some {entries : Entries} {idBytes : BytesN 32} {now : UInt64} {e : Entry} :
    resolve entries idBytes now = some e ↔ entries[idBytes]? = some e ∧ now < e.expiresAtMs := by
  rw [resolve, filter_eq_some_iff, decide_eq_true_eq]

theorem pred_lt {x : UInt64} (h : x ≠ 0) : x - 1 < x := by
  have hpos : x.toNat ≠ 0 := fun hzero => h (UInt64.toNat_inj.mp hzero)
  have hone : (1 : UInt64).toNat = 1 := rfl
  have hle : (1 : UInt64) ≤ x := by
    rw [UInt64.le_iff_toNat_le]
    omega
  rw [UInt64.lt_iff_toNat_lt, UInt64.toNat_sub_of_le _ _ hle]
  omega

variable {s s' : RendezvousRun} {a : Announcement}

/-- **No registration outlives its announcement.** -/
theorem Registered.expiry (h : Registered s) {idBytes : BytesN 32} {now : UInt64} {e : Entry}
    (hres : resolve s.entries idBytes now = some e) :
    ∃ a ∈ s.accepted, a.idBytes = idBytes ∧ a.entry = e
      ∧ now.toNat
        < a.req.timestampMs.toNat + TIMESTAMP_WINDOW_MS.toNat + a.req.ttlSecs.toNat * 1000 := by
  obtain ⟨hentry, hactive⟩ := resolve_eq_some.mp hres
  rw [h.entries idBytes] at hentry
  obtain ⟨a, hfind, rfl⟩ := map_eq_some_iff.mp hentry
  have hmem := List.mem_of_find?_eq_some hfind
  have hid : a.idBytes = idBytes := by simpa using List.find?_some hfind
  have hwindow := toNat_le_of_absDiff (h.window a hmem)
  have hlifetime := toNat_expiresAtMs_le a
  have hnow := UInt64.lt_iff_toNat_lt.mp hactive
  exact ⟨a, hmem, hid, rfl, by omega⟩

section

variable [ServerCrypto]

theorem step_eq_some (hs : rendezvousMachine.step s a = some s') :
    absDiff a.req.timestampMs a.now ≤ TIMESTAMP_WINDOW_MS
      ∧ s' = { entries := s.entries.insert a.idBytes a.entry, accepted := a :: s.accepted } := by
  simp only [rendezvousMachine] at hs
  split at hs
  · next entries hok =>
    obtain ⟨-, -, hwindow, -, rfl⟩ := handleAnnounce_eq_ok.mp hok
    exact ⟨hwindow, (some.inj hs).symm⟩
  · cases hs

theorem Registered.step (h : Registered s) (hs : rendezvousMachine.step s a = some s') :
    Registered s' := by
  obtain ⟨hwindow, rfl⟩ := step_eq_some hs
  refine ⟨fun idBytes => ?_, List.forall_mem_cons.mpr ⟨hwindow, h.window⟩⟩
  show (s.entries.insert a.idBytes a.entry)[idBytes]? = _
  rw [ExtTreeMap.getElem?_insert]
  by_cases hid : a.idBytes = idBytes
  · simp [hid]
  · simp [hid, h.entries idBytes]

/-- **The step.** Exactly the announcements that take nobody's place leave the latest one. -/
theorem Registered.step_iff (h : Registered s) (hlatest : Undisplaced s)
    (hs : rendezvousMachine.step s a = some s') : Undisplaced s' ↔ TakesNoPlace s a := by
  have hregistered := h.step hs
  obtain ⟨-, rfl⟩ := step_eq_some hs
  constructor
  · intro hafter
    by_cases hzero : a.entry.expiresAtMs = 0
    · exact .inl hzero
    right
    -- it resolves just before it expires
    have hpos : a.entry.expiresAtMs - 1 < a.entry.expiresAtMs := pred_lt hzero
    obtain ⟨b, ⟨hmem, hmax⟩, hid, haddrs⟩ := hafter.latest a.idBytes (a.entry.expiresAtMs - 1)
      a.entry (resolve_eq_some.mpr ⟨ExtTreeMap.getElem?_insert_self, hpos⟩)
    rcases List.mem_cons.mp hmem with rfl | hmem
    · exact .inl fun c hc hcid => hmax c (List.mem_cons_of_mem _ hc) hcid
    · exact .inr ⟨b, hmem, hid, haddrs, fun c hc hcid =>
        hmax c (List.mem_cons_of_mem _ hc) (hcid.trans hid.symm)⟩
  · intro htakes
    refine ⟨fun idBytes now e hres => ?_, fun idBytes now e hres => hregistered.expiry hres⟩
    obtain ⟨hentry, hactive⟩ := resolve_eq_some.mp hres
    change (s.entries.insert a.idBytes a.entry)[idBytes]? = some e at hentry
    rw [ExtTreeMap.getElem?_insert] at hentry
    by_cases hid : a.idBytes = idBytes
    · subst hid
      rw [if_pos (by simp)] at hentry
      obtain rfl := some.inj hentry
      have hself : ∀ {bound : UInt64}, bound ≤ a.req.timestampMs →
          (∀ c ∈ s.accepted, c.idBytes = a.idBytes → c.req.timestampMs ≤ bound) →
          RendezvousRun.Latest
            { entries := s.entries.insert a.idBytes a.entry, accepted := a :: s.accepted } a :=
        fun hle hall => ⟨List.mem_cons_self, List.forall_mem_cons.mpr
          ⟨fun _ => le_refl _, fun c hc hcid => le_trans (hall c hc hcid) hle⟩⟩
      rcases htakes with hzero | hnewest | ⟨b, hmem, hbid, haddrs, hmax⟩
      · rw [hzero] at hactive
        exact absurd hactive UInt64.not_lt_zero
      · exact ⟨a, hself (le_refl _) hnewest, rfl, rfl⟩
      · -- the one with the same addresses is the latest still, or this one is
        by_cases hle : a.req.timestampMs ≤ b.req.timestampMs
        · exact ⟨b, ⟨List.mem_cons_of_mem _ hmem, List.forall_mem_cons.mpr
            ⟨fun _ => hle, fun c hc hcid => hmax c hc (hcid.trans hbid)⟩⟩, hbid, haddrs⟩
        · exact ⟨a, hself (le_of_lt (not_le.mp hle)) hmax, rfl, rfl⟩
    · rw [if_neg (by simpa using hid)] at hentry
      obtain ⟨b, ⟨hmem, hmax⟩, rfl, haddrs⟩ :=
        hlatest.latest idBytes now e (resolve_eq_some.mpr ⟨hentry, hactive⟩)
      exact ⟨b, ⟨List.mem_cons_of_mem _ hmem, List.forall_mem_cons.mpr
        ⟨fun heq => absurd heq hid, hmax⟩⟩, rfl, haddrs⟩

/-- **Registrations are not rolled back** in a run, at any point of it, exactly if each
announcement takes nobody's place. -/
theorem rendezvous_iff {as : List Announcement}
    (hrun : rendezvousMachine.run { entries := ∅, accepted := [] } as = some s) :
    (∀ k t, rendezvousMachine.run { entries := ∅, accepted := [] } (as.take k) = some t →
        Undisplaced t)
      ↔ rendezvousMachine.runUnder TakesNoPlace { entries := ∅, accepted := [] } as = some s := by
  have hempty : ∀ idBytes now, resolve (∅ : Entries) idBytes now = none := fun idBytes now => by
    simp [resolve]
  have hstart : Undisplaced { entries := ∅, accepted := [] } :=
    ⟨fun idBytes now e hres => (nomatch (hempty idBytes now).symm.trans hres),
      fun idBytes now e hres => (nomatch (hempty idBytes now).symm.trans hres)⟩
  refine Machine.forall_take_iff (I := fun t => Registered t ∧ Undisplaced t)
    (fun t a t' ht hs => ht.1.step_iff ht.2 hs) (fun t a t' ht hs hgood => ⟨ht.1.step hs, hgood⟩)
    ⟨⟨fun idBytes => by simp, fun a ha => nomatch ha⟩, hstart⟩ hstart hrun

end

/-! ## A captured request -/

namespace SampleRendezvous

def node : BytesN 32 := .ofNat 32 5

def request (timestampMs : UInt64) (addr : String) : AnnounceRequest where
  endpointId := hexStr node.toBytes
  addrs := [addr]
  ttlSecs := 3600
  timestampMs := timestampMs
  signature := base64Encode (BytesN.ofNat 64 timestampMs.toNat).toBytes

def signatures : List (BytesN 32 × Bytes × BytesN 64) :=
  [(node, announceCanonicalBytes node 1000 ["old"] 3600, .ofNat 64 1000),
    (node, announceCanonicalBytes node 2000 ["new"] 3600, .ofNat 64 2000)]

@[reducible] def serverCrypto : ServerCrypto := .known [node] signatures

attribute [local instance] serverCrypto

def announce (timestampMs : UInt64) (addr : String) (now : UInt64) : Announcement where
  idBytes := node
  req := request timestampMs addr
  now := now

/-- What `node` resolves to after a run. -/
def resolved (as : List Announcement) (now : UInt64) : Option (List String) :=
  ((rendezvousMachine.run { entries := ∅, accepted := [] } as).bind
    fun s => resolve s.entries node now).map Entry.addrs

/-- The node announces, moves and announces again; then somebody sends the first request once
more, within two minutes of its timestamp: for an hour the node resolves to where it was. -/
theorem replay_rolls_back :
    resolved [announce 1000 "old" 1000, announce 2000 "new" 2000] 60000 = some ["new"]
    ∧ resolved [announce 1000 "old" 1000, announce 2000 "new" 2000, announce 1000 "old" 50000] 60000
      = some ["old"]
    ∧ ∃ s, rendezvousMachine.run { entries := ∅, accepted := [] }
        [announce 1000 "old" 1000, announce 2000 "new" 2000, announce 1000 "old" 50000] = some s
      ∧ ¬Undisplaced s := by
  refine ⟨by decide +kernel, by decide +kernel, ?_⟩
  have hrun : (rendezvousMachine.run { entries := ∅, accepted := [] } [announce 1000 "old" 1000,
      announce 2000 "new" 2000, announce 1000 "old" 50000]).isSome = true := by decide +kernel
  obtain ⟨s, hrun⟩ := isSome_iff_exists.mp hrun
  refine ⟨s, hrun, fun h => ?_⟩
  simp only [Machine.run, bind_eq_some_iff] at hrun
  obtain ⟨t, ht, u, hu, v, hv, hs⟩ := hrun
  obtain ⟨-, rfl⟩ := step_eq_some ht
  obtain ⟨-, rfl⟩ := step_eq_some hu
  obtain ⟨-, rfl⟩ := step_eq_some hv
  obtain rfl := some.inj hs
  have hactive : 60000 < (announce 1000 "old" 50000).entry.expiresAtMs := by decide
  obtain ⟨b, ⟨hmem, hmax⟩, hid, haddrs⟩ := h.latest node 60000 _
    (resolve_eq_some.mpr ⟨ExtTreeMap.getElem?_insert_self, hactive⟩)
  have hle := hmax (announce 2000 "new" 2000) (by simp) hid.symm
  simp only [List.mem_cons, List.not_mem_nil, or_false] at hmem
  rcases hmem with rfl | rfl | rfl
  · exact absurd hle (by decide)
  · exact absurd haddrs (by decide)
  · exact absurd hle (by decide)

theorem moved_resolves :
    ∃ s, rendezvousMachine.run { entries := ∅, accepted := [] }
        [announce 1000 "old" 1000, announce 2000 "new" 2000] = some s ∧ Undisplaced s := by
  have hrun : (rendezvousMachine.runUnder TakesNoPlace { entries := ∅, accepted := [] }
      [announce 1000 "old" 1000, announce 2000 "new" 2000]).isSome = true := by decide +kernel
  obtain ⟨s, hrun⟩ := isSome_iff_exists.mp hrun
  have hplain := Machine.run_of_runUnder hrun
  exact ⟨s, hplain, (rendezvous_iff hplain).mpr hrun 2 s hplain⟩

end SampleRendezvous

end Rendezvous

end Dweb
