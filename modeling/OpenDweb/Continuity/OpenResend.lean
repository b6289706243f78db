import OpenDweb.Lib.Machine
import OpenDweb.Continuity.OpenAdmission
import OpenDweb.Lib.Updates

/-!
# OpenDweb — what a request's OPEN says, across resumes

A client opens streams through `send_open`, its channels die with everything in flight, and
after each RESUME the OPEN of every stream is written again. The provider keeps the payload
of the OPEN that is the first to arrive under its idempotency key: that is the metadata
`dispatch_stream` reads for the request.

Any channel may deliver at any time and the client may be handed any frame, so the runs here
include those that the channel fence or an honest provider would rule out.

* **`OpenInv`** — every OPEN on the way says what its caller gave or, repeated, what
  `replay_open_arbited` makes up for the stream and its key.
* **`open_meta_faithful`** — as long as no repeated OPEN is the first to open a stream whose
  payload says more than the repeated OPEN does, every opened stream has the metadata its
  caller gave.
* **`resend_faithful_iff`** — that condition is exact.
-/

namespace Dweb

open Std (ExtTreeMap)
open Machine
open List Option Std.ExtTreeMap

/-! ## The system -/

structure OpenChannel where
  alive : Bool
  inFlight : List Frame
  /-- What the resume that installed it still has to open again. -/
  resend : List (Nat × String)

def OpenChannel.write (c : OpenChannel) (f : Frame) : OpenChannel :=
  { c with inFlight := c.inFlight ++ [f] }

structure OpenExchange where
  client : SessionShared
  provider : SessionShared
  channels : List OpenChannel
  /-- The client's calls of `send_open`: key and payload by stream. -/
  opened : ExtTreeMap Nat (String × Bytes)
  /-- The streams the provider reported as `new_open`. -/
  newOpens : List Nat

inductive OpenLabel where
  /-- `send_open` over channel `i`, with an id `alloc_stream` gave to no other call. -/
  | sendOpen (i streamId : Nat) (idemKey : String) (payload : Bytes)
  | clientFrame (i : Nat) (f : Frame)
  | clientOp (op : LocalOp)
  | clientHandle (owner : Nat) (f : Frame)
  /-- The first frame in flight on channel `i` reaches the provider. -/
  | deliver (i owner : Nat)
  | providerOp (op : LocalOp)
  /-- Everything in flight is lost, and what is written from now on fails. -/
  | channelDies (i : Nat)
  /-- A RESUME round: a new channel, and a snapshot of what to open again on it. -/
  | resume (order : List Nat)
  /-- The replay task of channel `i` turns to its next OPEN. -/
  | resendOpen (i : Nat)

namespace OpenExchange

def step (s : OpenExchange) : OpenLabel → Option OpenExchange
  | .sendOpen i sid key payload =>
    s.channels[i]?.bind fun c =>
      if sid % 2 = 0 ∨ sid ∈ s.opened then none
      else
        let s := { s with opened := s.opened.insert sid (key, payload) }
        match s.client.sendOpen sid key payload with
        | .error _ => some s
        | .ok (none, client) => some { s with client := client }
        | .ok (some f, client) =>
          if c.alive then some { s with client := client, channels := s.channels.set i (c.write f) }
          else some { s with client := client.openFailed sid }
  | .clientFrame i f =>
    s.channels[i]?.bind fun c =>
      if c.alive = false ∨ f.frameType = .open_ then none
      else some { s with channels := s.channels.set i (c.write f) }
  | .clientOp op => some { s with client := op.apply s.client }
  | .clientHandle owner f => some { s with client := (s.client.handleFrame owner f).1 }
  | .deliver i owner =>
    s.channels[i]?.bind fun c =>
      c.inFlight.head?.map fun f =>
        let r := s.provider.handleFrame owner f
        { s with
          channels := s.channels.set i { c with inFlight := c.inFlight.tail }
          provider := r.1
          newOpens := s.newOpens ++ r.2.newOpen.toList }
  | .providerOp op => some { s with provider := op.apply s.provider }
  | .channelDies i =>
    s.channels[i]?.map fun c =>
      { s with channels := s.channels.set i { c with alive := false, inFlight := [] } }
  | .resume order =>
    some { s with
      channels := s.channels ++
        [{ alive := true, inFlight := [], resend := s.client.openResendList order }] }
  | .resendOpen i =>
    s.channels[i]?.bind fun c =>
      c.resend.head?.map fun p =>
        let next := { c with resend := c.resend.tail }
        match s.client.replayOpen p.1 p.2 with
        | none => { s with channels := s.channels.set i next }
        | some f =>
          if c.alive then { s with channels := s.channels.set i (next.write f) }
          -- the write fails and the task with it
          else { s with channels := s.channels.set i { c with resend := [] } }

/-- Every stream reported as newly opened has the metadata its caller gave. -/
def Faithful (s : OpenExchange) : Prop :=
  ∀ sid key payload, sid ∈ s.newOpens → s.opened[sid]? = some (key, payload) →
    s.provider.openMeta sid = some payload

end OpenExchange

/-- A client and a provider of one session, with no stream yet, over their first channel. -/
def openMachine : Machine OpenExchange OpenLabel where
  init s := ∃ sessionId token limits, s =
    { client := SessionShared.new sessionId token true limits
      provider := SessionShared.new sessionId token false limits
      channels := [{ alive := true, inFlight := [], resend := [] }]
      opened := ∅
      newOpens := [] }
  step := OpenExchange.step

def Frame.isReplay (f : Frame) : Bool := f.flags &&& FrameFlags.replay ≠ 0

theorem isReplay_first (s : SessionShared) (sid : Nat) (payload : Bytes) :
    (s.openFrame FrameFlags.start sid payload).isReplay = false := by
  show decide (FrameFlags.start &&& FrameFlags.replay ≠ 0) = false
  decide

theorem isReplay_repeated (s : SessionShared) (sid : Nat) (payload : Bytes) :
    (s.openFrame (FrameFlags.start + FrameFlags.replay) sid payload).isReplay = true := by
  show decide (FrameFlags.start + FrameFlags.replay &&& FrameFlags.replay ≠ 0) = true
  decide

/-- A repeated OPEN opens a stream only if its caller had given the payload that repeated
OPENs carry. -/
def ResendHarmless (s : OpenExchange) : OpenLabel → Prop
  | .deliver i _ => ∀ c ∈ s.channels[i]?, ∀ f ∈ c.inFlight.head?,
      f.isReplay = true → s.provider.AdmitsOpen f → f.streamId ∉ s.provider.resetTombstones →
        ∀ o ∈ s.opened[f.streamId]?, o.2 = SessionShared.replayOpenPayload f.streamId o.1
  | _ => True

instance (s : OpenExchange) (l : OpenLabel) : Decidable (ResendHarmless s l) := by
  cases l <;> unfold ResendHarmless <;> infer_instance

/-! ## What is on the way -/

/-- An OPEN of a stream the client opened says what its caller gave, or what a repeated OPEN
of that stream says. -/
def OpenSays (opened : ExtTreeMap Nat (String × Bytes)) (f : Frame) : Prop :=
  f.frameType = .open_ → f.streamId % 2 = 1 →
    ∃ key payload, opened[f.streamId]? = some (key, payload)
      ∧ f.payload = if f.isReplay then SessionShared.replayOpenPayload f.streamId key else payload

/-- What a channel holds, on the wire or still to be opened again. -/
structure ChannelOk (opened : ExtTreeMap Nat (String × Bytes)) (c : OpenChannel) : Prop where
  inFlight : ∀ f ∈ c.inFlight, OpenSays opened f
  resend : ∀ p ∈ c.resend, p.1 % 2 = 1 → ∃ payload, opened[p.1]? = some (p.2, payload)

structure OpenInv (s : OpenExchange) : Prop where
  client : s.client.isClient = true
  provider : s.provider.isClient = false
  keys : ∀ sid key, sid % 2 = 1 → s.client.streamKeys[sid]? = some key →
    ∃ payload, s.opened[sid]? = some (key, payload)
  channels : ∀ c ∈ s.channels, ChannelOk s.opened c
  reported : ∀ sid ∈ s.newOpens,
    sid ∈ s.provider.streams ∧ sid ∉ s.provider.resetTombstones ∧ sid ∈ s.opened

variable {opened : ExtTreeMap Nat (String × Bytes)} {s s' : OpenExchange}

theorem ChannelOk.write {c : OpenChannel} {f : Frame} (h : ChannelOk opened c)
    (hf : OpenSays opened f) : ChannelOk opened (c.write f) := by
  refine ⟨fun g hg => ?_, h.resend⟩
  rcases mem_append.mp hg with hg | hg
  · exact h.inFlight g hg
  · exact mem_singleton.mp hg ▸ hf

theorem getElem?_insert_fresh {sid sid' : Nat} {o o' : String × Bytes} (hfresh : sid ∉ opened)
    (h : opened[sid']? = some o') : (opened.insert sid o)[sid']? = some o' := by
  have hne : sid ≠ sid' := by
    intro heq
    rw [← heq] at h
    exact hfresh (mem_iff_isSome_getElem?.mpr (by simp [h]))
  rw [ExtTreeMap.getElem?_insert]
  simp [hne, h]

theorem ChannelOk.insert {c : OpenChannel} {sid : Nat} {o : String × Bytes} (h : ChannelOk opened c)
    (hfresh : sid ∉ opened) : ChannelOk (opened.insert sid o) c := by
  refine ⟨fun f hf hopen hodd => ?_, fun p hp hodd => ?_⟩
  · obtain ⟨key, payload, hget, hsays⟩ := h.inFlight f hf hopen hodd
    exact ⟨key, payload, getElem?_insert_fresh hfresh hget, hsays⟩
  · obtain ⟨payload, hget⟩ := h.resend p hp hodd
    exact ⟨payload, getElem?_insert_fresh hfresh hget⟩

/-! ## One lemma a step -/

namespace OpenInv

variable {s s' : OpenExchange}

variable {client : SessionShared} {i sid : Nat} {key : String}

theorem of_client (h : OpenInv s) (hkeeps : s.client.Keeps client) :
    OpenInv { s with client := client } where
  client := hkeeps.isClient.trans h.client
  provider := h.provider
  keys sid key hodd hkey := by
    have hown : s.client.OwnParity sid := by simp [SessionShared.OwnParity, hodd, h.client]
    exact h.keys sid key hodd ((hkeeps.streamKeys sid hown).symm.trans hkey)
  channels := h.channels
  reported := h.reported

theorem of_provider (h : OpenInv s) {provider : SessionShared}
    (hkeeps : s.provider.Keeps provider) : OpenInv { s with provider := provider } where
  client := h.client
  provider := hkeeps.isClient.trans h.provider
  keys := h.keys
  channels := h.channels
  reported sid hsid :=
    have ⟨hmem, htomb, hopened⟩ := h.reported sid hsid
    ⟨hkeeps.streams sid hmem, fun ht => htomb (hkeeps.tombstones sid hmem ht), hopened⟩

theorem setChannel (h : OpenInv s) {c : OpenChannel} (hc : ChannelOk s.opened c) :
    OpenInv { s with channels := s.channels.set i c } :=
  ⟨h.client, h.provider, h.keys, forall_mem_set h.channels hc, h.reported⟩

theorem of_opened (h : OpenInv s) (payload : Bytes) (hfresh : sid ∉ s.opened)
    (hclient : client.isClient = true)
    (hkeys : ∀ sid' key', sid' % 2 = 1 → client.streamKeys[sid']? = some key' → (sid' = sid ∧ key' = key) ∨ s.client.streamKeys[sid']? = some key') :
    OpenInv { s with opened := s.opened.insert sid (key, payload), client := client } where
  client := hclient
  provider := h.provider
  keys sid' key' hodd hkey := by
    rcases hkeys sid' key' hodd hkey with ⟨rfl, rfl⟩ | hold
    · exact ⟨payload, getElem?_insert_self⟩
    · obtain ⟨payload', hget⟩ := h.keys sid' key' hodd hold
      exact ⟨payload', getElem?_insert_fresh hfresh hget⟩
  channels c hc := (h.channels c hc).insert hfresh
  reported sid' hsid' :=
    have ⟨hmem, htomb, hopened⟩ := h.reported sid' hsid'
    ⟨hmem, htomb, ExtTreeMap.mem_insert.mpr (Or.inr hopened)⟩

theorem booked_of_sendOpen {t : SessionShared} {payload : Bytes} {written : Option Frame}
    (hclient : client.isClient = true) (h : client.sendOpen sid key payload = .ok (written, t)) :
    t.isClient = true ∧ ∀ sid' key', sid' % 2 = 1 → t.streamKeys[sid']? = some key' →
      (sid' = sid ∧ key' = key) ∨ client.streamKeys[sid']? = some key' := by
  obtain ⟨u, hu, rfl, -⟩ := SessionShared.sendOpen_eq_ok h
  have hkeeps := client.keeps_reserveStreamSlot hu
  refine ⟨hkeeps.isClient.trans hclient, fun sid' key' hodd hkey => ?_⟩
  have hown : client.OwnParity sid' := by simp [SessionShared.OwnParity, hodd, hclient]
  rcases getElem?_insert_cases hkey with ⟨heq, hkey⟩ | ⟨-, hkey⟩
  · exact Or.inl ⟨heq.symm, hkey.symm⟩
  · exact Or.inr ((hkeeps.streamKeys sid' hown).symm.trans hkey)

theorem booked_of_openFailed {t : SessionShared} {sid' : Nat} {key' : String}
    (hclient : t.isClient = true) (hodd : sid' % 2 = 1)
    (h : (t.openFailed sid).streamKeys[sid']? = some key') : t.streamKeys[sid']? = some key' := by
  have hown : t.OwnParity sid' := by simp [SessionShared.OwnParity, hodd, hclient]
  obtain ⟨-, h⟩ := getElem?_erase_some h
  exact ((t.keeps_markLocalAbort sid).streamKeys sid' hown).symm.trans h

theorem sendOpen {payload : Bytes} (h : OpenInv s)
    (hstep : s.step (.sendOpen i sid key payload) = some s') : OpenInv s' := by
  obtain ⟨c, hc, hstep⟩ := bind_eq_some_iff.mp hstep
  have hok := h.channels c (mem_of_getElem? hc)
  split at hstep
  · cases hstep
  · next hguard =>
    obtain ⟨hodd, hfresh⟩ := not_or.mp hguard
    dsimp only at hstep
    split at hstep
    · obtain rfl := some.inj hstep
      exact h.of_opened payload hfresh h.client fun _ _ _ hkey => Or.inr hkey
    · next client hsend =>
      obtain rfl := some.inj hstep
      obtain ⟨hclient, hkeys⟩ := booked_of_sendOpen h.client hsend
      exact h.of_opened payload hfresh hclient hkeys
    · next f client hsend =>
      obtain ⟨hclient, hkeys⟩ := booked_of_sendOpen h.client hsend
      obtain ⟨t, -, -, hframe⟩ := SessionShared.sendOpen_eq_ok hsend
      obtain rfl := hframe f rfl
      split at hstep
      · obtain rfl := some.inj hstep
        refine (h.of_opened payload hfresh hclient hkeys).setChannel
          ((hok.insert hfresh).write fun _ _ => ?_)
        refine ⟨key, payload, getElem?_insert_self, ?_⟩
        rw [isReplay_first]
        rfl
      · obtain rfl := some.inj hstep
        refine h.of_opened payload hfresh ?_ fun sid' key' hodd hkey => ?_
        · exact (client.keeps_markLocalAbort sid).isClient.trans hclient
        · exact hkeys sid' key' hodd (booked_of_openFailed hclient hodd hkey)

theorem clientFrame {f : Frame} (h : OpenInv s) (hstep : s.step (.clientFrame i f) = some s') :
    OpenInv s' := by
  obtain ⟨c, hc, hstep⟩ := bind_eq_some_iff.mp hstep
  split at hstep
  · cases hstep
  · next hguard =>
    obtain rfl := some.inj hstep
    have hok := h.channels c (mem_of_getElem? hc)
    exact h.setChannel (hok.write fun hopen => absurd (Or.inr hopen) hguard)

theorem step_deliver {owner : Nat} (hstep : s.step (.deliver i owner) = some s') :
    ∃ c f rest, s.channels[i]? = some c ∧ c.inFlight = f :: rest
      ∧ s' = { s with
          channels := s.channels.set i { c with inFlight := rest }
          provider := (s.provider.handleFrame owner f).1
          newOpens := s.newOpens ++ (s.provider.handleFrame owner f).2.newOpen.toList } := by
  obtain ⟨c, hc, hstep⟩ := bind_eq_some_iff.mp hstep
  obtain ⟨f, hf, rfl⟩ := map_eq_some_iff.mp hstep
  obtain ⟨rest, hrest⟩ := head?_eq_some_iff.mp hf
  exact ⟨c, f, rest, hc, hrest, by rw [hrest]; rfl⟩

theorem says_of_admits (h : OpenInv s) {c : OpenChannel} {f : Frame} (hc : c ∈ s.channels)
    (hf : f ∈ c.inFlight) (hadmits : s.provider.AdmitsOpen f) :
    ∃ key payload, s.opened[f.streamId]? = some (key, payload)
      ∧ f.payload = if f.isReplay then SessionShared.replayOpenPayload f.streamId key
          else payload := by
  obtain ⟨htype, -, -, -, hparity, -⟩ := hadmits
  have hodd : f.streamId % 2 = 1 := by
    have hpeer := SessionShared.not_ownParity htype hparity
    rw [SessionShared.OwnParity, h.provider] at hpeer
    simpa using hpeer
  exact (h.channels c hc).inFlight f hf htype hodd

theorem deliver {owner : Nat} (h : OpenInv s) (hstep : s.step (.deliver i owner) = some s') :
    OpenInv s' := by
  obtain ⟨c, f, rest, hc, hrest, rfl⟩ := step_deliver hstep
  have hok := h.channels c (mem_of_getElem? hc)
  have hrest' : ChannelOk s.opened { c with inFlight := rest } :=
    ⟨fun g hg => hok.inFlight g (hrest ▸ mem_cons_of_mem f hg), hok.resend⟩
  have hpassed := (h.setChannel (i := i) hrest').of_provider (s.provider.keeps_handleFrame owner f)
  refine ⟨hpassed.client, hpassed.provider, hpassed.keys, hpassed.channels, fun sid hsid => ?_⟩
  rcases mem_append.mp hsid with hold | hnew
  · exact hpassed.reported sid hold
  · have hnew := mem_toList.mp hnew
    by_cases hadmits : s.provider.AdmitsOpen f
    · obtain ⟨-, -, hreport, hmem, htomb⟩ := SessionShared.handleFrame_opens owner hadmits
      rw [hreport] at hnew
      split at hnew
      · cases hnew
      · obtain rfl := some.inj hnew
        obtain ⟨key, payload, hget, -⟩ :=
          h.says_of_admits (mem_of_getElem? hc) (hrest ▸ mem_cons_self) hadmits
        exact ⟨hmem, htomb, mem_iff_isSome_getElem?.mpr (by simp [hget])⟩
    · rw [(SessionShared.handleFrame_ignores owner hadmits).2.2] at hnew
      cases hnew

theorem mem_openResendList {order : List Nat} {p : Nat × String}
    (h : p ∈ client.openResendList order) : client.streamKeys[p.1]? = some p.2 := by
  obtain ⟨id, -, hp⟩ := List.mem_filterMap.mp h
  split at hp
  · cases hp
  · obtain ⟨key, hkey, rfl⟩ := map_eq_some_iff.mp hp
    exact hkey

theorem resume {order : List Nat} (h : OpenInv s)
    (hstep : s.step (.resume order) = some s') : OpenInv s' := by
  obtain rfl := some.inj hstep
  refine ⟨h.client, h.provider, h.keys, fun c hc => ?_, h.reported⟩
  rcases mem_append.mp hc with hc | hc
  · exact h.channels c hc
  · obtain rfl := mem_singleton.mp hc
    exact ⟨fun f hf => (by cases hf), fun p hp hodd => h.keys p.1 p.2 hodd (mem_openResendList hp)⟩

theorem resendOpen (h : OpenInv s) (hstep : s.step (.resendOpen i) = some s') : OpenInv s' := by
  obtain ⟨c, hc, hstep⟩ := bind_eq_some_iff.mp hstep
  obtain ⟨p, hp, hstep⟩ := map_eq_some_iff.mp hstep
  have hok := h.channels c (mem_of_getElem? hc)
  have hnext : ChannelOk s.opened { c with resend := c.resend.tail } :=
    ⟨hok.inFlight, fun q hq => hok.resend q (mem_of_mem_tail hq)⟩
  dsimp only at hstep
  split at hstep
  · obtain rfl := hstep
    exact h.setChannel hnext
  · next f hf =>
    split at hstep
    · obtain rfl := hstep
      refine h.setChannel (hnext.write ?_)
      obtain ⟨ctx, -, hf⟩ := bind_eq_some_iff.mp hf
      split at hf
      · obtain rfl := some.inj hf
        intro _ hodd
        obtain ⟨payload, hget⟩ := hok.resend p (mem_of_head? hp) hodd
        refine ⟨p.2, payload, hget, ?_⟩
        rw [isReplay_repeated]
        rfl
      · cases hf
    · obtain rfl := hstep
      exact h.setChannel ⟨hok.inFlight, fun q hq => (by cases hq)⟩

theorem step {l : OpenLabel} (h : OpenInv s) (hstep : s.step l = some s') : OpenInv s' := by
  cases l with
  | sendOpen i sid key payload => exact h.sendOpen hstep
  | clientFrame i f => exact h.clientFrame hstep
  | clientOp op =>
    obtain rfl := some.inj hstep
    exact h.of_client (s.client.keeps_localOp op).1
  | clientHandle owner f =>
    obtain rfl := some.inj hstep
    exact h.of_client (s.client.keeps_handleFrame owner f)
  | deliver i owner => exact h.deliver hstep
  | providerOp op =>
    obtain rfl := some.inj hstep
    exact h.of_provider (s.provider.keeps_localOp op).1
  | channelDies i =>
    obtain ⟨c, hc, rfl⟩ := map_eq_some_iff.mp hstep
    have hok := h.channels c (mem_of_getElem? hc)
    exact h.setChannel ⟨fun f hf => (by cases hf), hok.resend⟩
  | resume order => exact h.resume hstep
  | resendOpen i => exact h.resendOpen hstep

end OpenInv

theorem OpenInv.of_init (h : openMachine.init s) : OpenInv s := by
  obtain ⟨sessionId, token, limits, rfl⟩ := h
  refine ⟨rfl, rfl, fun sid key _ hkey => ?_, fun c hc => ?_, fun sid hsid => (by cases hsid)⟩
  · change (∅ : ExtTreeMap Nat String)[sid]? = some key at hkey
    simp at hkey
  · obtain rfl := mem_singleton.mp hc
    exact ⟨fun f hf => (by cases hf), fun p hp => (by cases hp)⟩

/-! ## Every run -/

theorem OpenInv.of_reachable (h : openMachine.Reachable s) : OpenInv s :=
  h.invariant (fun _ => OpenInv.of_init) fun _ _ _ hs _ hstep => hs.step hstep

/-- **The condition is exact.** The arrival of a frame keeps the metadata faithful if and only
if the frame is no harmful repeated OPEN. -/
theorem resend_faithful_iff {i owner : Nat} (h : openMachine.Reachable s) (hfaithful : s.Faithful)
    (hstep : s.step (.deliver i owner) = some s') :
    s'.Faithful ↔ ResendHarmless s (.deliver i owner) := by
  have hinv := OpenInv.of_reachable h
  obtain ⟨c, f, rest, hc, hrest, rfl⟩ := OpenInv.step_deliver hstep
  have hmem := mem_of_getElem? hc
  have hf : f ∈ c.inFlight := hrest ▸ mem_cons_self
  constructor
  · intro hnext c' hc' f' hf' hreplay hadmits htomb o ho
    obtain rfl : c = c' := some.inj (hc.symm.trans hc')
    obtain rfl : f = f' := by
      rw [hrest] at hf'
      exact some.inj hf'
    -- what was made up for the stream is what is read for it now
    obtain ⟨-, hmetas, hreport, -⟩ := SessionShared.handleFrame_opens owner hadmits
    obtain ⟨key, payload, hget, hsays⟩ := hinv.says_of_admits hmem hf hadmits
    obtain rfl : o = (key, payload) := some.inj (ho.symm.trans hget)
    have hread := hnext f.streamId key payload
      (mem_append.mpr (Or.inr (by rw [hreport, if_neg htomb]; simp))) hget
    change (s.provider.handleFrame owner f).1.openMetas[f.streamId]? = some payload at hread
    rw [hmetas, getElem?_insert_self] at hread
    rw [if_pos hreplay] at hsays
    exact (some.inj hread).symm.trans hsays
  · intro hguard sid key payload hsid hget
    have hguard := hguard c hc f (by rw [hrest]; rfl)
    show (s.provider.handleFrame owner f).1.openMetas[sid]? = some payload
    by_cases hadmits : s.provider.AdmitsOpen f
    · obtain ⟨-, hmetas, hreport, -⟩ := SessionShared.handleFrame_opens owner hadmits
      obtain ⟨key', payload', hget', hsays⟩ := hinv.says_of_admits hmem hf hadmits
      rw [hmetas, ExtTreeMap.getElem?_insert]
      by_cases hsame : f.streamId = sid
      · subst hsame
        obtain ⟨rfl, rfl⟩ := Prod.mk.inj (some.inj (hget.symm.trans hget'))
        rw [if_pos (compare_eq_iff_eq.mpr rfl), hsays]
        by_cases hreplay : f.isReplay = true
        · rw [if_pos hreplay]
          by_cases htomb : f.streamId ∈ s.provider.resetTombstones
          · -- cancelled: not reported now, and not before either
            rw [hreport, if_pos htomb] at hsid
            have hold : f.streamId ∈ s.newOpens := by simpa using hsid
            exact absurd htomb (hinv.reported _ hold).2.1
          · exact congrArg some (hguard hreplay hadmits htomb _ hget).symm
        · rw [if_neg hreplay]
      · have hold : sid ∈ s.newOpens := by
          rcases mem_append.mp hsid with hold | hnew
          · exact hold
          · rw [hreport] at hnew
            split at hnew
            · cases hnew
            · exact absurd (mem_singleton.mp hnew).symm hsame
        rw [if_neg (fun heq => hsame (compare_eq_iff_eq.mp heq))]
        exact hfaithful sid key payload hold hget
    · obtain ⟨-, hmetas, hreport⟩ := SessionShared.handleFrame_ignores owner hadmits
      have hold : sid ∈ s.newOpens := by
        rw [hreport] at hsid
        simpa using hsid
      rw [hmetas]
      exact hfaithful sid key payload hold hget

/-- A step that is no delivery changes neither what was reported, nor what is kept for it,
nor what its caller gave. -/
theorem OpenExchange.step_other {l : OpenLabel} (hother : ∀ i owner, l ≠ .deliver i owner)
    (hstep : s.step l = some s') :
    s'.newOpens = s.newOpens ∧ s'.provider.openMetas = s.provider.openMetas
      ∧ ∀ sid ∈ s.opened, s'.opened[sid]? = s.opened[sid]? := by
  cases l with
  | sendOpen i sid key payload =>
    obtain ⟨c, -, hstep⟩ := bind_eq_some_iff.mp hstep
    split at hstep
    · cases hstep
    · next hguard =>
      have hopened : ∀ sid' ∈ s.opened,
          (s.opened.insert sid (key, payload))[sid']? = s.opened[sid']? := by
        intro sid' hmem
        have hne : sid ≠ sid' := fun heq => (not_or.mp hguard).2 (heq ▸ hmem)
        rw [ExtTreeMap.getElem?_insert]
        simp [hne]
      dsimp only at hstep
      repeat' split at hstep
      all_goals
        obtain rfl := some.inj hstep
        exact ⟨rfl, rfl, hopened⟩
  | clientFrame i f =>
    obtain ⟨c, -, hstep⟩ := bind_eq_some_iff.mp hstep
    split at hstep
    · cases hstep
    · obtain rfl := some.inj hstep
      exact ⟨rfl, rfl, fun _ _ => rfl⟩
  | deliver i owner => exact absurd rfl (hother i owner)
  | providerOp op =>
    obtain rfl := some.inj hstep
    exact ⟨rfl, (s.provider.keeps_localOp op).2, fun _ _ => rfl⟩
  | channelDies i =>
    obtain ⟨c, -, rfl⟩ := map_eq_some_iff.mp hstep
    exact ⟨rfl, rfl, fun _ _ => rfl⟩
  | resendOpen i =>
    obtain ⟨c, -, hstep⟩ := bind_eq_some_iff.mp hstep
    obtain ⟨p, -, hstep⟩ := map_eq_some_iff.mp hstep
    dsimp only at hstep
    repeat' split at hstep
    all_goals
      obtain rfl := hstep
      exact ⟨rfl, rfl, fun _ _ => rfl⟩
  | _ =>
    obtain rfl := some.inj hstep
    exact ⟨rfl, rfl, fun _ _ => rfl⟩

theorem OpenExchange.Faithful.step {l : OpenLabel} (h : openMachine.Reachable s)
    (hfaithful : s.Faithful) (hguard : ResendHarmless s l) (hstep : s.step l = some s') :
    s'.Faithful := by
  by_cases hdeliver : ∃ i owner, l = .deliver i owner
  · obtain ⟨i, owner, rfl⟩ := hdeliver
    exact (resend_faithful_iff h hfaithful hstep).mpr hguard
  · obtain ⟨hreported, hmetas, hopened⟩ :=
      OpenExchange.step_other (fun i owner heq => hdeliver ⟨i, owner, heq⟩) hstep
    intro sid key payload hsid hget
    rw [hreported] at hsid
    rw [hopened sid ((OpenInv.of_reachable h).reported sid hsid).2.2] at hget
    show s'.provider.openMetas[sid]? = some payload
    rw [hmetas]
    exact hfaithful sid key payload hsid hget

/-- **The metadata is the caller's.** In every run in which no repeated OPEN is the first to
open a stream, unless its caller gave the payload repeated OPENs carry, whatever channels
died in between, every stream reported as newly opened has the payload given to
`send_open`. -/
theorem open_meta_faithful {s : OpenExchange} (h : openMachine.ReachableUnder ResendHarmless s)
    {sid : Nat} {key : String} {payload : Bytes} (hreported : sid ∈ s.newOpens)
    (hopened : s.opened[sid]? = some (key, payload)) :
    s.provider.openMeta sid = some payload := by
  suffices hfaithful : s.Faithful from hfaithful sid key payload hreported hopened
  clear hreported hopened
  induction h with
  | init hinit =>
    obtain ⟨sessionId, token, limits, rfl⟩ := hinit
    exact fun sid _ _ hsid _ => (by cases hsid)
  | step hreach hguard hstep ih => exact ih.step hreach.reachable hguard hstep

/-! ## Runs -/

def postPay : Bytes :=
  ("\x7b\"requestId\":\"r\",\"idempotencyKey\":\"k\",\"method\":\"POST\",\"path\":\"/pay\","
    ++ "\"headers\":[]\x7d").toUTF8.data.toList

def freshExchange : OpenExchange where
  client := SessionShared.new (.ofNat 16 1) (.ofNat 16 2) true .default
  provider := SessionShared.new (.ofNat 16 1) (.ofNat 16 2) false .default
  channels := [{ alive := true, inFlight := [], resend := [] }]
  opened := ∅
  newOpens := []

theorem init_freshExchange : openMachine.init freshExchange := ⟨_, _, _, rfl⟩

theorem open_meta_faithful_repeated :
    ∃ s, openMachine.ReachableUnder ResendHarmless s ∧ 1 ∈ s.newOpens
      ∧ s.opened[1]? = some ("k", postPay) ∧ s.provider.openMeta 1 = some postPay := by
  have hrun : (openMachine.runUnder ResendHarmless freshExchange
      [.sendOpen 0 1 "k" postPay, .deliver 0 1, .channelDies 0, .resume [1], .resendOpen 1,
       .deliver 1 2]).any
      (fun s => decide (1 ∈ s.newOpens ∧ s.opened[1]? = some ("k", postPay))) = true := by
    decide +kernel
  obtain ⟨s, hs, hp⟩ := exists_reachableUnder init_freshExchange hrun
  obtain ⟨hreported, hopened⟩ := of_decide_eq_true hp
  exact ⟨s, hs, hreported, hopened, open_meta_faithful hs hreported hopened⟩

/-- The OPEN is lost with its channel; the repeated one opens the stream and the request
loses its method and path. -/
theorem open_meta_lost :
    ∃ s, openMachine.run freshExchange
        [.sendOpen 0 1 "k" postPay, .channelDies 0, .resume [1], .resendOpen 1, .deliver 1 1]
          = some s
      ∧ openMachine.Reachable s ∧ 1 ∈ s.newOpens ∧ s.opened[1]? = some ("k", postPay)
      ∧ s.provider.openMeta 1 = some (SessionShared.replayOpenPayload 1 "k")
      ∧ s.provider.openMeta 1 ≠ some postPay := by
  have hrun : (openMachine.run freshExchange
      [.sendOpen 0 1 "k" postPay, .channelDies 0, .resume [1], .resendOpen 1,
       .deliver 1 1]).any
      (fun s => decide (1 ∈ s.newOpens ∧ s.opened[1]? = some ("k", postPay)
        ∧ s.provider.openMeta 1 = some (SessionShared.replayOpenPayload 1 "k")
        ∧ s.provider.openMeta 1 ≠ some postPay)) = true := by
    decide +kernel
  obtain ⟨s, hs, hp⟩ := (Option.any_eq_true _ _).mp hrun
  exact ⟨s, hs, reachable_of_run init_freshExchange hs, of_decide_eq_true hp⟩

end Dweb
