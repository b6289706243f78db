import OpenDweb.Continuity.SessionRuns
import OpenDweb.Continuity.StreamInvariant

/-!
# OpenDweb — where the bytes of a stream are

Bytes that have crossed a window are on their way to the delivery queue, in the queue, in the
hands of a reader, consumed, or lost; and what was consumed is on its way out of `recv`,
returned, or was in the hands of a call that was dropped.

* **`weigh`** — a quantity of a stream's parcels, for any weight of a segment.
* **`Accounts`** — the balance, for every weight, and what it says of the windows and of the
  committed offsets.
* **`accounts`** — it holds in every run.
-/

namespace Dweb

open Std (ExtTreeMap)
open Relation (ReflTransGen)
open List

/-! ## Weights -/

def ofStream (sid : Nat) (parcels : List Parcel) : List Bytes :=
  (parcels.filter fun p => p.1 = sid).map Prod.snd

def weigh (g : Bytes → Nat) (sid : Nat) (parcels : List Parcel) : Nat :=
  ((ofStream sid parcels).map g).sum

@[simp] theorem ofStream_append (sid : Nat) (a b : List Parcel) :
    ofStream sid (a ++ b) = ofStream sid a ++ ofStream sid b := by
  simp [ofStream]

theorem ofStream_singleton (sid sid' : Nat) (b : Bytes) :
    ofStream sid [(sid', b)] = if sid' = sid then [b] else [] := by
  unfold ofStream
  by_cases h : sid' = sid <;> simp [h]

theorem ofStream_parcels (sid : Nat) (d : Delivery) :
    ofStream sid d.parcels = if d.streamId = sid then d.segments else [] := by
  unfold ofStream Delivery.parcels
  by_cases h : d.streamId = sid <;> simp [h, filter_map, Function.comp_def]

@[simp] theorem weigh_nil (g : Bytes → Nat) (sid : Nat) : weigh g sid [] = 0 := rfl

@[simp] theorem weigh_append (g : Bytes → Nat) (sid : Nat) (a b : List Parcel) :
    weigh g sid (a ++ b) = weigh g sid a + weigh g sid b := by
  simp [weigh]

theorem weigh_singleton (g : Bytes → Nat) (sid sid' : Nat) (b : Bytes) :
    weigh g sid [(sid', b)] = if sid' = sid then g b else 0 := by
  unfold weigh
  rw [ofStream_singleton]
  split <;> simp

variable {sid : Nat}

theorem weigh_eq_zero {g : Bytes → Nat} {parcels : List Parcel} (h : ∀ p ∈ parcels, p.1 ≠ sid) :
    weigh g sid parcels = 0 := by
  have hnone : ofStream sid parcels = [] := by
    unfold ofStream
    rw [filter_eq_nil_iff.mpr fun p hp => by simp [h p hp]]
    rfl
  rw [weigh, hnone]
  rfl

def weighPlaces {π : Type} (g : Bytes → Nat) (sid : Nat) (parcels : π → List Parcel)
    (places : List π) : Nat :=
  (places.map fun place => weigh g sid (parcels place)).sum

theorem weighPlaces_append {π : Type} (g : Bytes → Nat) (sid : Nat) (parcels : π → List Parcel)
    (places : List π) (place : π) :
    weighPlaces g sid parcels (places ++ [place])
      = weighPlaces g sid parcels places + weigh g sid (parcels place) := by
  simp [weighPlaces]

theorem weighPlaces_set {π : Type} (g : Bytes → Nat) (sid : Nat) (parcels : π → List Parcel)
    {places : List π} {i : Nat} {place : π} (h : places[i]? = some place) (place' : π) :
    weighPlaces g sid parcels (places.set i place') + weigh g sid (parcels place)
      = weighPlaces g sid parcels places + weigh g sid (parcels place') := by
  induction places generalizing i with
  | nil => cases h
  | cons first rest ih =>
    cases i with
    | zero =>
      obtain rfl := Option.some.inj h
      simp only [weighPlaces, set_cons_zero, map_cons, sum_cons]
      omega
    | succ i =>
      have hrest := ih h
      simp only [weighPlaces, set_cons_succ, map_cons, sum_cons] at hrest ⊢
      omega

/-! ## The balance -/

def FramePlace.parcels : FramePlace → List Parcel
  | .delivering _ d => d.parcels
  | .refused _ | .done => []

def RecvPlace.held (place : RecvPlace) : List Parcel := place.dropping.1

def RecvPlace.leaving (place : RecvPlace) : List Parcel := place.dropping.2

def SessionShared.queued (s : SessionShared) (sid : Nat) : List Bytes :=
  (s.delivered[sid]?.map DeliverQueue.frames).getD []

structure Accounts (r : SessionRun) : Prop where
  known : ∀ p ∈ r.crossed, p.1 ∈ r.session.streams
  tracks : ∀ (sid : Nat) (c : StreamCtx), r.session.streams[sid]? = some c →
    Tracks (ofStream sid r.crossed).flatten c.recv
  balance : ∀ (g : Bytes → Nat) (sid : Nat), weigh g sid r.crossed
    = weigh g sid r.consumed + weighPlaces g sid RecvPlace.held r.recvs
      + ((r.session.queued sid).map g).sum + weighPlaces g sid FramePlace.parcels r.frames
      + weigh g sid r.lost
  outward : ∀ (g : Bytes → Nat) (sid : Nat), weigh g sid r.consumed
    = weigh g sid r.returned + weighPlaces g sid RecvPlace.leaving r.recvs
      + weigh g sid r.unreturned
  committed : ∀ (sid : Nat) (c : StreamCtx), r.session.streams[sid]? = some c →
    c.committedOffset = weigh List.length sid r.consumed

/-! ## Each step keeps it -/

variable {admits : Nat → StreamCtx → Nat → Prop} {r : SessionRun}

@[simp] theorem terminate_recv (c : StreamCtx) (t : StreamTerm) :
    (c.terminate t).recv = c.recv := by
  unfold StreamCtx.terminate StreamCtx.clearJournal
  rw [setTerm_recv]

@[simp] theorem terminate_committedOffset (c : StreamCtx) (t : StreamTerm) :
    (c.terminate t).committedOffset = c.committedOffset := by
  unfold StreamCtx.terminate StreamCtx.clearJournal
  rw [setTerm_committedOffset]

@[simp] theorem noteAck_recv (c : StreamCtx) : c.noteAck.recv = c.recv := by
  obtain ⟨n, hn⟩ := noteAck_eq c
  rw [hn]

@[simp] theorem noteAck_journal (c : StreamCtx) : c.noteAck.journal = c.journal := by
  obtain ⟨n, hn⟩ := noteAck_eq c
  rw [hn]

@[simp] theorem noteAck_term (c : StreamCtx) : c.noteAck.term = c.term := by
  obtain ⟨n, hn⟩ := noteAck_eq c
  rw [hn]

@[simp] theorem noteAck_committedOffset (c : StreamCtx) :
    c.noteAck.committedOffset = c.committedOffset := by
  obtain ⟨n, hn⟩ := noteAck_eq c
  rw [hn]

theorem StreamChange.account {a : StreamCtx → Nat → Prop} {D : Bytes} {c c' : StreamCtx} {n : Nat}
    (h : StreamChange a c c') (hc : Tracks D c.recv ∧ c.committedOffset = n) :
    Tracks D c'.recv ∧ c'.committedOffset = n := by
  cases h with
  | kept off p w action hfinal hfed haction =>
    have htracks := hc.1.fedAs hfed
    have hnothing : deliveredBytes (.ok action) = [] := by
      rcases haction with rfl | rfl <;> rfl
    rw [hnothing, append_nil] at htracks
    exact ⟨htracks, hc.2⟩
  | refused m =>
    rw [terminate_recv, terminate_committedOffset]
    exact ⟨hc.1.recount m, hc.2⟩
  | noted =>
    rw [noteAck_recv, noteAck_committedOffset]
    exact hc
  | finished final | cancelled =>
    rw [setTerm_recv, setTerm_committedOffset]
    exact hc
  | reset =>
    rw [terminate_recv, terminate_committedOffset]
    exact hc
  | aborted =>
    have hrecv := setTerm_recv c .localAbort
    have hcommitted := setTerm_committedOffset c .localAbort
    exact ⟨hrecv.symm ▸ hc.1, hcommitted.trans hc.2⟩
  | acked | recorded | finalSent | retracted => exact hc

namespace Accounts

variable {s : SessionShared} {owner i sid : Nat} {d : Delivery} {b : Bytes}

theorem session (h : Accounts r) {opens : Nat → Prop} (hs : r.session.StreamsChange admits opens s) :
    Accounts (r.withSession s) := by
  have hctx : ∀ (sid : Nat) (c : StreamCtx), s.streams[sid]? = some c →
      Tracks (ofStream sid r.crossed).flatten c.recv
        ∧ c.committedOffset = weigh List.length sid r.consumed := by
    intro sid c hc
    refine keeps_of_changes (fun c c' hI (hchange : StreamChange (admits sid) c c') =>
      hchange.account hI) ?_ (hs.each sid c hc)
    cases hold : r.session.streams[sid]? with
    | some c =>
      rw [SessionShared.ctxOf_of_some hold]
      exact ⟨h.tracks sid c hold, h.committed sid c hold⟩
    | none =>
      -- a stream that was not there: nothing of it has crossed a window
      have hnew : ∀ p ∈ r.crossed, p.1 ≠ sid := by
        intro p hp heq
        have hmem := h.known p hp
        rw [heq, ExtTreeMap.mem_iff_isSome_getElem?, hold] at hmem
        cases hmem
      have hnone : ofStream sid r.crossed = [] := by
        unfold ofStream
        rw [filter_eq_nil_iff.mpr fun p hp => by simp [hnew p hp]]
        rfl
      have hbalance := h.balance List.length sid
      rw [weigh_eq_zero hnew] at hbalance
      rw [SessionShared.ctxOf, hold, hnone]
      refine ⟨Tracks.new, ?_⟩
      show 0 = _
      omega
  have hqueue : ∀ sid, (r.withSession s).session.queued sid = r.session.queued sid := fun sid => by
    show s.queued sid = _
    unfold SessionShared.queued
    rw [hs.delivered]
  exact
    { known := fun p hp => hs.kept p.1 (h.known p hp)
      tracks := fun sid c hc => (hctx sid c hc).1
      balance := fun g sid => by
        rw [hqueue]
        exact h.balance g sid
      outward := h.outward
      committed := fun sid c hc => (hctx sid c hc).2 }

theorem crossed (h : Accounts r) {f : Frame} (hs : r.session.Crosses f d s) :
    Accounts { r with
      session := s
      frames := r.frames ++ [.delivering owner d]
      crossed := r.crossed ++ d.parcels } := by
  obtain ⟨c, w, hc, hfinal, hfed⟩ := hs
  have hmem : ∀ p ∈ d.parcels, p.1 = d.streamId := by
    intro p hp
    obtain ⟨b, -, rfl⟩ := mem_map.mp hp
    rfl
  refine ⟨fun p hp => ?_, fun sid c' hc' => ?_, fun g sid => ?_, h.outward, fun sid c' hc' => ?_⟩
  · refine ExtTreeMap.mem_insert.mpr ?_
    rcases mem_append.mp hp with hold | hnew
    · exact Or.inr (h.known p hold)
    · exact Or.inl (compare_eq_iff_eq.mpr (hmem p hnew).symm)
  · change (r.session.streams.insert d.streamId _)[sid]? = some c' at hc'
    show Tracks (ofStream sid (r.crossed ++ d.parcels)).flatten c'.recv
    rw [ofStream_append, ofStream_parcels]
    rcases getElem?_insert_cases hc' with ⟨rfl, rfl⟩ | ⟨hne, hc'⟩
    · rw [if_pos rfl, flatten_append, noteAck_recv]
      exact (h.tracks _ c hc).fedAs hfed
    · rw [if_neg hne, append_nil]
      exact h.tracks sid c' hc'
  · have hbalance := h.balance g sid
    show weigh g sid (r.crossed ++ d.parcels) = weigh g sid r.consumed
      + weighPlaces g sid RecvPlace.held r.recvs + ((r.session.queued sid).map g).sum
      + weighPlaces g sid FramePlace.parcels (r.frames ++ [.delivering owner d])
      + weigh g sid r.lost
    rw [weigh_append, weighPlaces_append, hbalance]
    show _ + weigh g sid d.parcels = _ + (_ + weigh g sid d.parcels) + _
    omega
  · rcases getElem?_insert_cases hc' with ⟨rfl, rfl⟩ | ⟨-, hc'⟩
    · rw [noteAck_committedOffset]
      exact h.committed _ c hc
    · exact h.committed sid c' hc'

theorem enqueued (h : Accounts r) (hplace : r.frames[i]? = some (.delivering owner d))
    (hroom : r.session.queueHasRoom d) :
    Accounts ((r.withSession (r.session.enqueueDelivered owner d).1).moveFrame i .done) := by
  have hstreams : (r.session.enqueueDelivered owner d).1.streams = r.session.streams := by
    unfold SessionShared.enqueueDelivered
    rw [if_pos hroom]
  have hqueued : ∀ sid, (r.session.enqueueDelivered owner d).1.queued sid
      = r.session.queued sid ++ ofStream sid d.parcels := by
    intro sid
    unfold SessionShared.enqueueDelivered SessionShared.queued
    rw [if_pos hroom, ofStream_parcels, ExtTreeMap.getElem?_insert]
    by_cases heq : d.streamId = sid
    · rw [if_pos (compare_eq_iff_eq.mpr heq), if_pos heq, heq]
      cases r.session.delivered[sid]? <;> rfl
    · rw [if_neg fun hcmp => heq (compare_eq_iff_eq.mp hcmp), if_neg heq, append_nil]
  refine ⟨fun p hp => hstreams ▸ h.known p hp, fun sid c hc => h.tracks sid c (hstreams ▸ hc),
    fun g sid => ?_, h.outward, fun sid c hc => h.committed sid c (hstreams ▸ hc)⟩
  have hbalance := h.balance g sid
  have hset := weighPlaces_set g sid FramePlace.parcels hplace .done
  have hparcels : weigh g sid (FramePlace.parcels (.delivering owner d))
      = ((ofStream sid d.parcels).map g).sum := rfl
  show weigh g sid r.crossed = weigh g sid r.consumed + weighPlaces g sid RecvPlace.held r.recvs
    + (((r.session.enqueueDelivered owner d).1.queued sid).map g).sum
    + weighPlaces g sid FramePlace.parcels (r.frames.set i .done) + weigh g sid r.lost
  rw [hqueued, map_append, sum_append]
  change _ + _ = _ + 0 at hset
  omega

theorem refused (h : Accounts r) (hplace : r.frames[i]? = some (.delivering owner d)) :
    Accounts { r.moveFrame i (.refused d) with lost := r.lost ++ d.parcels } := by
  refine ⟨h.known, h.tracks, fun g sid => ?_, h.outward, h.committed⟩
  have hbalance := h.balance g sid
  have hset := weighPlaces_set g sid FramePlace.parcels hplace
    (.refused d)
  show weigh g sid r.crossed = weigh g sid r.consumed + weighPlaces g sid RecvPlace.held r.recvs
    + ((r.session.queued sid).map g).sum
    + weighPlaces g sid FramePlace.parcels (r.frames.set i (.refused d))
    + weigh g sid (r.lost ++ d.parcels)
  rw [weigh_append]
  change _ + weigh g sid d.parcels = _ + 0 at hset
  omega

theorem shut (h : Accounts r) (hplace : r.frames[i]? = some (.refused d)) :
    Accounts (r.moveFrame i .done) := by
  refine ⟨h.known, h.tracks, fun g sid => ?_, h.outward, h.committed⟩
  have hset := weighPlaces_set g sid FramePlace.parcels hplace .done
  change _ + 0 = _ + 0 at hset
  show weigh g sid r.crossed = weigh g sid r.consumed + weighPlaces g sid RecvPlace.held r.recvs
    + ((r.session.queued sid).map g).sum
    + weighPlaces g sid FramePlace.parcels (r.frames.set i .done) + weigh g sid r.lost
  have hbalance := h.balance g sid
  omega

theorem moved (h : Accounts r) {place place' : RecvPlace} (hplace : r.recvs[i]? = some place)
    (hfrom : place.dropping = ([], [])) (hto : place'.dropping = ([], [])) :
    Accounts (r.moveRecv i place') := by
  refine ⟨h.known, h.tracks, fun g sid => ?_, fun g sid => ?_, h.committed⟩
  · have hset := weighPlaces_set g sid RecvPlace.held hplace place'
    rw [RecvPlace.held, RecvPlace.held, hfrom, hto] at hset
    show weigh g sid r.crossed = weigh g sid r.consumed
      + weighPlaces g sid RecvPlace.held (r.recvs.set i place') + ((r.session.queued sid).map g).sum
      + weighPlaces g sid FramePlace.parcels r.frames + weigh g sid r.lost
    have hbalance := h.balance g sid
    omega
  · have hset := weighPlaces_set g sid RecvPlace.leaving hplace place'
    rw [RecvPlace.leaving, RecvPlace.leaving, hfrom, hto] at hset
    show weigh g sid r.consumed = weigh g sid r.returned
      + weighPlaces g sid RecvPlace.leaving (r.recvs.set i place') + weigh g sid r.unreturned
    have houtward := h.outward g sid
    omega

theorem called (h : Accounts r) (sid : Nat) :
    Accounts { r with recvs := r.recvs ++ [.popping sid] } := by
  refine ⟨h.known, h.tracks, fun g sid' => ?_, fun g sid' => ?_, h.committed⟩
  · show _ = _ + weighPlaces g sid' RecvPlace.held (r.recvs ++ [.popping sid]) + _ + _ + _
    rw [weighPlaces_append]
    exact h.balance g sid'
  · show _ = _ + weighPlaces g sid' RecvPlace.leaving (r.recvs ++ [.popping sid]) + _
    rw [weighPlaces_append]
    exact h.outward g sid'

theorem popped (h : Accounts r) (hplace : r.recvs[i]? = some (.popping sid))
    (hpop : r.session.recvPop sid = some (b, s)) :
    Accounts ((r.withSession s).moveRecv i (.holding sid b)) := by
  obtain ⟨q, rest, hq, hframes, rfl⟩ := SessionShared.recvPop_eq_some hpop
  refine ⟨h.known, h.tracks, fun g sid' => ?_, fun g sid' => ?_, h.committed⟩
  · have hbalance := h.balance g sid'
    have hset := weighPlaces_set g sid' RecvPlace.held hplace
      (.holding sid b)
    change _ + 0 = _ + weigh g sid' [(sid, b)] at hset
    rw [weigh_singleton] at hset
    have hqueue : ((r.session.queued sid').map g).sum
        = (if sid = sid' then g b else 0)
          + ((SessionShared.queued { r.session with
              delivered := r.session.delivered.insert sid
                { frames := rest, bytes := q.bytes - b.length } } sid').map g).sum := by
      unfold SessionShared.queued
      dsimp only
      rw [ExtTreeMap.getElem?_insert]
      by_cases heq : sid = sid'
      · subst heq
        rw [if_pos rfl, if_pos (compare_eq_iff_eq.mpr rfl), hq]
        simp [hframes]
      · rw [if_neg heq, if_neg fun hcmp => heq (compare_eq_iff_eq.mp hcmp), Nat.zero_add]
    show weigh g sid' r.crossed = weigh g sid' r.consumed
      + weighPlaces g sid' RecvPlace.held (r.recvs.set i (.holding sid b)) + _
      + weighPlaces g sid' FramePlace.parcels r.frames + weigh g sid' r.lost
    rw [hbalance, hqueue]
    change _ = _ + _ + ((SessionShared.queued { r.session with
      delivered := r.session.delivered.insert sid
        { frames := rest, bytes := q.bytes - b.length } } sid').map g).sum + _ + _
    omega
  · have hset := weighPlaces_set g sid' RecvPlace.leaving hplace
      (.holding sid b)
    change _ + 0 = _ + 0 at hset
    have houtward := h.outward g sid'
    show weigh g sid' r.consumed = weigh g sid' r.returned
      + weighPlaces g sid' RecvPlace.leaving (r.recvs.set i (.holding sid b))
      + weigh g sid' r.unreturned
    omega

theorem consumed (h : Accounts r) (hplace : r.recvs[i]? = some (.holding sid b)) :
    Accounts
      { (r.withSession (r.session.recvCommit sid b.length).1).moveRecv i (.committed sid b) with
        consumed := r.consumed ++ [(sid, b)] } := by
  have hqueued : ∀ sid', (r.session.recvCommit sid b.length).1.queued sid'
      = r.session.queued sid' := by
    intro sid'
    unfold SessionShared.recvCommit SessionShared.queued
    split <;> rfl
  have hctx : ∀ (sid' : Nat) (c' : StreamCtx),
      (r.session.recvCommit sid b.length).1.streams[sid']? = some c' →
        Tracks (ofStream sid' r.crossed).flatten c'.recv
          ∧ c'.committedOffset
            = weigh List.length sid' r.consumed + if sid = sid' then b.length else 0 := by
    intro sid' c' hc'
    unfold SessionShared.recvCommit at hc'
    split at hc'
    · next hnone =>
      have hne : sid ≠ sid' := fun heq => by
        rw [heq] at hnone
        rw [hnone] at hc'
        cases hc'
      rw [if_neg hne, Nat.add_zero]
      exact ⟨h.tracks sid' c' hc', h.committed sid' c' hc'⟩
    · next c hc =>
      dsimp only at hc'
      rcases getElem?_insert_cases hc' with ⟨rfl, rfl⟩ | ⟨hne, hc'⟩
      · rw [noteAck_recv, noteAck_committedOffset, if_pos rfl]
        exact ⟨h.tracks sid c hc, congrArg (· + b.length) (h.committed sid c hc)⟩
      · rw [if_neg hne, Nat.add_zero]
        exact ⟨h.tracks sid' c' hc', h.committed sid' c' hc'⟩
  have hkept : ∀ sid' ∈ r.session.streams,
      sid' ∈ (r.session.recvCommit sid b.length).1.streams :=
    (r.session.keeps_recvCommit sid b.length).streams
  refine ⟨fun p hp => hkept p.1 (h.known p hp), fun sid' c' hc' => (hctx sid' c' hc').1,
    fun g sid' => ?_, fun g sid' => ?_, fun sid' c' hc' => ?_⟩
  · have hset := weighPlaces_set g sid' RecvPlace.held hplace
      (.committed sid b)
    change _ + weigh g sid' [(sid, b)] = _ + 0 at hset
    have hbalance := h.balance g sid'
    show weigh g sid' r.crossed = weigh g sid' (r.consumed ++ [(sid, b)])
      + weighPlaces g sid' RecvPlace.held (r.recvs.set i (.committed sid b))
      + (((r.session.recvCommit sid b.length).1.queued sid').map g).sum
      + weighPlaces g sid' FramePlace.parcels r.frames + weigh g sid' r.lost
    rw [weigh_append, hqueued]
    omega
  · have hset := weighPlaces_set g sid' RecvPlace.leaving hplace
      (.committed sid b)
    change _ + 0 = _ + weigh g sid' [(sid, b)] at hset
    have houtward := h.outward g sid'
    show weigh g sid' (r.consumed ++ [(sid, b)]) = weigh g sid' r.returned
      + weighPlaces g sid' RecvPlace.leaving (r.recvs.set i (.committed sid b))
      + weigh g sid' r.unreturned
    rw [weigh_append]
    omega
  · show c'.committedOffset = weigh List.length sid' (r.consumed ++ [(sid, b)])
    rw [weigh_append, weigh_singleton]
    exact (hctx sid' c' hc').2

theorem returned (h : Accounts r) (hplace : r.recvs[i]? = some (.committed sid b)) :
    Accounts { r.moveRecv i (.returned sid b) with returned := r.returned ++ [(sid, b)] } := by
  refine ⟨h.known, h.tracks, fun g sid' => ?_, fun g sid' => ?_, h.committed⟩
  · have hset := weighPlaces_set g sid' RecvPlace.held hplace
      (.returned sid b)
    change _ + 0 = _ + 0 at hset
    have hbalance := h.balance g sid'
    show weigh g sid' r.crossed = weigh g sid' r.consumed
      + weighPlaces g sid' RecvPlace.held (r.recvs.set i (.returned sid b))
      + ((r.session.queued sid').map g).sum
      + weighPlaces g sid' FramePlace.parcels r.frames + weigh g sid' r.lost
    omega
  · have hset := weighPlaces_set g sid' RecvPlace.leaving hplace
      (.returned sid b)
    change _ + weigh g sid' [(sid, b)] = _ + 0 at hset
    have houtward := h.outward g sid'
    show weigh g sid' r.consumed = weigh g sid' (r.returned ++ [(sid, b)])
      + weighPlaces g sid' RecvPlace.leaving (r.recvs.set i (.returned sid b))
      + weigh g sid' r.unreturned
    rw [weigh_append]
    omega

theorem dropped (h : Accounts r) {place : RecvPlace} (hplace : r.recvs[i]? = some place) :
    Accounts { r.moveRecv i .dropped with
      lost := r.lost ++ place.dropping.1
      unreturned := r.unreturned ++ place.dropping.2 } := by
  refine ⟨h.known, h.tracks, fun g sid => ?_, fun g sid => ?_, h.committed⟩
  · have hset := weighPlaces_set g sid RecvPlace.held hplace .dropped
    change _ + weigh g sid place.dropping.1 = _ + 0 at hset
    have hbalance := h.balance g sid
    show weigh g sid r.crossed = weigh g sid r.consumed
      + weighPlaces g sid RecvPlace.held (r.recvs.set i .dropped)
      + ((r.session.queued sid).map g).sum
      + weighPlaces g sid FramePlace.parcels r.frames
      + weigh g sid (r.lost ++ place.dropping.1)
    rw [weigh_append]
    omega
  · have hset := weighPlaces_set g sid RecvPlace.leaving hplace .dropped
    change _ + weigh g sid place.dropping.2 = _ + 0 at hset
    have houtward := h.outward g sid
    show weigh g sid r.consumed = weigh g sid r.returned
      + weighPlaces g sid RecvPlace.leaving (r.recvs.set i .dropped)
      + weigh g sid (r.unreturned ++ place.dropping.2)
    rw [weigh_append]
    omega

theorem init (sessionId : BytesN 16) (token : Token) (isClient : Bool) (limits : JournalLimits) :
    Accounts (.init (.new sessionId token isClient limits)) where
  known p hp := by cases hp
  tracks sid c hc := by simp [SessionRun.init, SessionShared.new] at hc
  balance g sid := by
    simp [SessionRun.init, SessionShared.new, SessionShared.queued, weighPlaces]
  outward g sid := rfl
  committed sid c hc := by simp [SessionRun.init, SessionShared.new] at hc

/-- **Any step** keeps the balance. -/
theorem step (h : Accounts r) {e : SessionEvent} {r' : SessionRun} (hstep : StepAs admits r e r') :
    Accounts r' := by
  cases hstep with
  | session e s hs => exact h.session hs
  | allocated => exact ⟨h.known, h.tracks, h.balance, h.outward, h.committed⟩
  | crossed owner f d s hs => exact h.crossed hs
  | enqueued i owner d hplace hroom => exact h.enqueued hplace hroom
  | refused i owner d hplace hfull => exact h.refused hplace
  | shut i d s hplace hstreams hs => exact (h.session hs).shut (r := r.withSession s) hplace
  | called sid => exact h.called sid
  | popped i sid b s hplace hpop => exact h.popped hplace hpop
  | consumed i sid b hplace => exact h.consumed hplace
  | returned i sid b hplace => exact h.returned hplace
  | moved e i place place' hplace hfrom hto hended => exact h.moved hplace hfrom hto
  | dropped i place hplace => exact h.dropped hplace

end Accounts

theorem admits_any (e : SessionEvent) (s : SessionShared) :
    e.Admits (fun _ _ _ => True) s := by
  cases e with
  | frame owner f => exact fun _ _ _ _ _ _ => trivial
  | _ => trivial

/-- **The balance holds in every run.** -/
theorem accounts {G : SessionRun → SessionEvent → Prop}
    (h : sessionMachine.ReachableUnder G r) : Accounts r := by
  refine h.invariant ?_ fun r e r' hI _ hstep => hI.step (step_as (admits_any e r.session) hstep)
  rintro _ ⟨sessionId, token, isClient, limits, rfl⟩
  exact .init sessionId token isClient limits

theorem Accounts.known_of_weigh (h : Accounts r) {g : Bytes → Nat}
    (hcrossed : weigh g sid r.crossed ≠ 0) : ∃ c, r.session.streams[sid]? = some c := by
  cases hc : r.session.streams[sid]? with
  | some c => exact ⟨c, rfl⟩
  | none =>
    refine absurd (weigh_eq_zero fun p hp heq => ?_) hcrossed
    have hmem := h.known p hp
    rw [heq, ExtTreeMap.mem_iff_isSome_getElem?, hc] at hmem
    cases hmem

theorem Accounts.committed_le (h : Accounts r) {c : StreamCtx}
    (hc : r.session.streams[sid]? = some c) : c.committedOffset ≤ c.recv.expectedOffset := by
  have hbalance := h.balance List.length sid
  have htracks := h.tracks sid c hc
  rw [h.committed sid c hc, htracks.expectedOffset, length_flatten]
  show weigh List.length sid r.consumed ≤ weigh List.length sid r.crossed
  omega

end Dweb
