import OpenDweb.Continuity.FinalOffset

/-!
# OpenDweb — the end of a stream as its readers see it

A DATA frame advances the window under one lock and fills the delivery queue under another;
`recv` looks at the queue, at the window, and at the queue again. Between them, bytes below the
final offset may be in nobody's sight.

* **`NoBytes`** — no byte of a stream is among some parcels.
* **`SeesAll`** — the steps after which a reader may trust what it saw: when it ends the call
  nothing is on its way to the queue or in another reader's hands, and nothing was lost.
* **`clean_end_returns_all`** — in a run of such steps a clean end comes after every byte.
-/

namespace Dweb

open Std (ExtTreeMap)
open Relation (ReflTransGen)
open List

/-! ## Parcels without bytes -/

def NoBytes (sid : Nat) (parcels : List Parcel) : Prop := (ofStream sid parcels).flatten = []

instance (sid : Nat) (parcels : List Parcel) : Decidable (NoBytes sid parcels) := by
  unfold NoBytes
  infer_instance

variable {sid : Nat} {c : StreamCtx} {r : SessionRun}

theorem noBytes_append {a b : List Parcel} :
    NoBytes sid (a ++ b) ↔ NoBytes sid a ∧ NoBytes sid b := by
  unfold NoBytes
  rw [ofStream_append, flatten_append, append_eq_nil_iff]

theorem NoBytes.weigh {g : Bytes → Nat} {parcels : List Parcel} (h : NoBytes sid parcels)
    (hg : g [] = 0) : weigh g sid parcels = 0 := by
  refine sum_eq_zero fun n hn => ?_
  obtain ⟨b, hb, rfl⟩ := mem_map.mp hn
  rw [flatten_eq_nil_iff.mp h b hb, hg]

theorem noBytes_parcels {d : Delivery} :
    NoBytes sid d.parcels ↔ (d.streamId = sid → d.segments.flatten = []) := by
  unfold NoBytes
  rw [ofStream_parcels]
  by_cases h : d.streamId = sid <;> simp [h]

theorem weighPlaces_eq_zero {π : Type} {g : Bytes → Nat} {parcels : π → List Parcel}
    {places : List π} (hg : g [] = 0) (h : ∀ place ∈ places, NoBytes sid (parcels place)) :
    weighPlaces g sid parcels places = 0 := by
  refine sum_eq_zero fun n hn => ?_
  obtain ⟨place, hplace, rfl⟩ := mem_map.mp hn
  exact (h place hplace).weigh hg

/-! ## Streams at their end -/

def AtEnd (c : StreamCtx) : Prop := c.remoteFinal = some c.recv.expectedOffset

theorem StreamChange.atEnd {a : StreamCtx → Nat → Prop} {c' : StreamCtx} (h : StreamChange a c c')
    (hc : AtEnd c) : AtEnd c' := by
  unfold AtEnd at hc ⊢
  cases h with
  | kept off p w action hfinal hfed haction =>
    have hsame : w.expectedOffset = c.recv.expectedOffset := by
      rcases haction with rfl | rfl
      · cases hfed <;> rfl
      · cases hfed
        rfl
    rw [hsame]
    exact hc
  | noted =>
    obtain ⟨n, hn⟩ := noteAck_eq c
    rw [hn]
    exact hc
  | refused n =>
    rw [terminate_remoteFinal, terminate_recv]
  | reset =>
    rw [terminate_remoteFinal, terminate_recv]
  | cancelled =>
    rw [setTerm_remoteFinal, setTerm_recv]
  | finished final hnone hadmits =>
    rw [hnone] at hc
    cases hc
  | aborted =>
    show (c.setTerm .localAbort).remoteFinal = some (c.setTerm .localAbort).recv.expectedOffset
    rw [setTerm_remoteFinal, setTerm_recv]
    exact hc
  | acked | recorded | finalSent | retracted => exact hc

theorem StreamChange.errorTerm {a : StreamCtx → Nat → Prop} {c' : StreamCtx}
    (h : StreamChange a c c') (hc : isErrorTerm c.term = true) : isErrorTerm c'.term = true := by
  cases h with
  | noted =>
    obtain ⟨n, hn⟩ := noteAck_eq c
    rw [hn]
    exact hc
  | refused n => exact isErrorTerm_setTerm_of hc
  | reset => exact isErrorTerm_setTerm_of hc
  | cancelled => exact isErrorTerm_setTerm_of hc
  | finished final hnone hadmits => exact isErrorTerm_setTerm_of hc
  | aborted => exact isErrorTerm_setTerm_of hc
  | kept | acked | recorded | finalSent | retracted => exact hc

theorem AtEnd.crosses {w : RecvWindow} {off : Nat} {p : Bytes} {segments : List Bytes} {D : Bytes}
    (hc : AtEnd c) (hdue : c.recv.dueGap = none) (htracks : Tracks D c.recv)
    (hfinal : ∀ final ∈ c.remoteFinal, off + p.length ≤ final)
    (hfed : c.recv.FedAs off p gapCap gapByteCap (w, .ok (.deliver segments))) :
    w.expectedOffset = c.recv.expectedOffset := by
  have hwithin : RecvWindow.Within c.recv.expectedOffset c.recv := ⟨Nat.le_refl _, .inl rfl⟩
  have hle := (RecvWindow.within_fedAs hdue hwithin (hfinal _ hc) hfed).le
  have hafter := (htracks.fedAs hfed).expectedOffset
  have hbefore := htracks.expectedOffset
  rw [length_append] at hafter
  dsimp only at hafter
  omega

/-! ## The steps a reader may trust -/

def FramePlace.givenUp : FramePlace → List Parcel
  | .refused d => d.parcels
  | .delivering _ _ | .done => []

/-- A reader that ends a call of a finished stream sees all there is: when it looks at the
window, no bytes of the stream have been given up; when it looks at the queue again, none are on
their way there or in another reader's hands; the queue gives none up in between; and no call is
dropped with bytes in its hands. -/
def SeesAll (r : SessionRun) : SessionEvent → Prop
  | .recvCheck i =>
    match r.recvs[i]? with
    | some (.checking sid) => r.session.recvEnded sid = (true, some .fin) →
        ∀ place ∈ r.frames, NoBytes sid place.givenUp
    | _ => True
  | .enqueue i =>
    match r.frames[i]? with
    | some (.delivering _ d) => ¬r.session.queueHasRoom d →
        .rechecking d.streamId (some .fin) ∈ r.recvs → NoBytes d.streamId d.parcels
    | _ => True
  | .recvRecheck i =>
    match r.recvs[i]? with
    | some (.rechecking sid (some .fin)) => r.session.queueEmpty sid = true →
        (∀ place ∈ r.frames, NoBytes sid place.parcels)
          ∧ ∀ place ∈ r.recvs, NoBytes sid place.held ∧ NoBytes sid place.leaving
    | _ => True
  | .recvDrop i =>
    match r.recvs[i]? with
    | some place => ∀ p ∈ place.held ++ place.leaving, p.2 = []
    | none => True
  | _ => True

instance (r : SessionRun) (e : SessionEvent) : Decidable (SeesAll r e) := by
  cases e
  all_goals
    unfold SeesAll
    dsimp only
    repeat' split
    all_goals infer_instance

/-! ## What a reader may rely on -/

def SessionShared.StreamAtEnd (s : SessionShared) (sid : Nat) : Prop :=
  ∃ c, s.streams[sid]? = some c ∧ AtEnd c

def SessionShared.StreamFailed (s : SessionShared) (sid : Nat) : Prop :=
  ∃ c, s.streams[sid]? = some c ∧ isErrorTerm c.term = true

structure Sighted (r : SessionRun) : Prop where
  lost : ∀ sid, NoBytes sid r.lost ∨ (∃ place ∈ r.frames, ¬NoBytes sid place.givenUp)
    ∨ r.session.StreamFailed sid
  unreturned : ∀ sid, NoBytes sid r.unreturned
  rechecking : ∀ (i : Nat) (sid : Nat), r.recvs[i]? = some (.rechecking sid (some .fin)) →
    r.session.StreamAtEnd sid ∧ NoBytes sid r.lost

/-! ## Every such step keeps it -/

theorem noBytes_iff {parcels : List Parcel} :
    NoBytes sid parcels ↔ weigh List.length sid parcels = 0 := by
  unfold NoBytes weigh
  rw [← length_flatten, length_eq_zero_iff]

theorem Accounts.known_of_lost (h : Accounts r) (hlost : ¬NoBytes sid r.lost) :
    ∃ c, r.session.streams[sid]? = some c := by
  have hbalance := h.balance List.length sid
  have hbytes : weigh List.length sid r.lost ≠ 0 := fun hzero => hlost (noBytes_iff.mpr hzero)
  exact h.known_of_weigh (g := List.length) (by omega)

section Steps

variable {r r' : SessionRun} {sid : Nat}

/-- Nothing is lost, no delivery that was given up is settled, and no reader comes to rely on
anything. -/
theorem Sighted.of_kept (h : Sighted r)
    (hend : ∀ sid, r.session.StreamAtEnd sid → r'.session.StreamAtEnd sid)
    (hfail : ∀ sid, r.session.StreamFailed sid → r'.session.StreamFailed sid)
    (hlost : r'.lost = r.lost) (hunreturned : r'.unreturned = r.unreturned)
    (hframes : ∀ place ∈ r.frames, ∀ sid, ¬NoBytes sid place.givenUp → place ∈ r'.frames)
    (hrecvs : ∀ (i : Nat) (sid : Nat), r'.recvs[i]? = some (.rechecking sid (some .fin)) →
      r.recvs[i]? = some (.rechecking sid (some .fin))) : Sighted r' where
  lost sid := by
    rw [hlost]
    rcases h.lost sid with hnone | ⟨place, hplace, hbytes⟩ | hfailed
    · exact .inl hnone
    · exact .inr (.inl ⟨place, hframes place hplace sid hbytes, hbytes⟩)
    · exact .inr (.inr (hfail sid hfailed))
  unreturned sid := hunreturned ▸ h.unreturned sid
  rechecking i sid hplace := by
    obtain ⟨hatEnd, hnone⟩ := h.rechecking i sid (hrecvs i sid hplace)
    exact ⟨hend sid hatEnd, hlost ▸ hnone⟩

variable {i : Nat}

theorem Sighted.refused (h : Sighted r) {owner : Nat} {d : Delivery}
    (hplace : r.frames[i]? = some (.delivering owner d))
    (hreader : .rechecking d.streamId (some .fin) ∈ r.recvs → NoBytes d.streamId d.parcels) :
    Sighted { r.moveFrame i (.refused d) with lost := r.lost ++ d.parcels } where
  lost sid := by
    have hi : i < r.frames.length := (List.getElem?_eq_some_iff.mp hplace).1
    by_cases hbytes : NoBytes sid d.parcels
    · rcases h.lost sid with hnone | ⟨place, hmem, hgiven⟩ | hfailed
      · exact .inl (noBytes_append.mpr ⟨hnone, hbytes⟩)
      · refine .inr (.inl ⟨place, mem_set_of_ne _ hplace hmem ?_, hgiven⟩)
        rintro rfl
        exact hgiven rfl
      · exact .inr (.inr hfailed)
    · exact .inr (.inl ⟨.refused d, mem_set hi _, hbytes⟩)
  unreturned := h.unreturned
  rechecking j sid hj := by
    obtain ⟨hatEnd, hnone⟩ := h.rechecking j sid hj
    refine ⟨hatEnd, noBytes_append.mpr ⟨hnone, noBytes_parcels.mpr fun heq => ?_⟩⟩
    subst heq
    exact noBytes_parcels.mp (hreader (mem_of_getElem? hj)) rfl

theorem Sighted.shut (h : Sighted r) (haccounts : Accounts r) {d : Delivery} {s : SessionShared}
    (hplace : r.frames[i]? = some (.refused d))
    (hstreams : s.streams = r.session.streams.modify d.streamId fun ctx => ctx.terminate .protocolError)
    (hend : ∀ sid, r.session.StreamAtEnd sid → s.StreamAtEnd sid)
    (hfail : ∀ sid, r.session.StreamFailed sid → s.StreamFailed sid) :
    Sighted ((r.withSession s).moveFrame i .done) where
  lost sid := by
    by_cases hnone : NoBytes sid r.lost
    · exact .inl hnone
    rcases h.lost sid with hnone' | ⟨place, hmem, hgiven⟩ | hfailed
    · exact .inl hnone'
    · by_cases hsame : place = .refused d
      · -- the delivery was of this stream, which is known
        subst hsame
        have hid : d.streamId = sid := by
          by_contra hne
          exact hgiven (noBytes_parcels.mpr fun heq => absurd heq hne)
        obtain ⟨c, hc⟩ := haccounts.known_of_lost hnone
        refine .inr (.inr ⟨c.terminate .protocolError, ?_, isErrorTerm_setTerm rfl⟩)
        show s.streams[sid]? = _
        rw [hstreams, hid, modify_eq_insert hc, ExtTreeMap.getElem?_insert_self]
      · exact .inr (.inl ⟨place, mem_set_of_ne _ hplace hmem hsame, hgiven⟩)
    · exact .inr (.inr (hfail sid hfailed))
  unreturned := h.unreturned
  rechecking j sid hj := (h.rechecking j sid hj).imp_left (hend sid)

theorem Sighted.dropped (h : Sighted r) {place : RecvPlace}
    (hempty : ∀ p ∈ place.held ++ place.leaving, p.2 = []) :
    Sighted { r.moveRecv i .dropped with
      lost := r.lost ++ place.dropping.1
      unreturned := r.unreturned ++ place.dropping.2 } := by
  have hnone : ∀ sid parcels, (∀ p ∈ parcels, p.2 = []) → NoBytes sid parcels := by
    intro sid parcels hall
    refine flatten_eq_nil_iff.mpr fun b hb => ?_
    obtain ⟨p, hp, rfl⟩ := mem_map.mp hb
    exact hall p (mem_filter.mp hp).1
  have hheld : ∀ sid, NoBytes sid place.dropping.1 := fun sid =>
    hnone sid _ fun p hp => hempty p (mem_append_left _ hp)
  have hleaving : ∀ sid, NoBytes sid place.dropping.2 := fun sid =>
    hnone sid _ fun p hp => hempty p (mem_append_right _ hp)
  refine ⟨fun sid => ?_, fun sid => noBytes_append.mpr ⟨h.unreturned sid, hleaving sid⟩,
    fun j sid hj => ?_⟩
  · exact (h.lost sid).imp_left fun hlost => noBytes_append.mpr ⟨hlost, hheld sid⟩
  · obtain ⟨hatEnd, hlost⟩ := h.rechecking j sid (getElem?_of_set hj (by simp))
    exact ⟨hatEnd, noBytes_append.mpr ⟨hlost, hheld sid⟩⟩

theorem Sighted.checked (h : Sighted r)
    (hended : r.session.recvEnded sid = (true, some .fin))
    (hgiven : ∀ place ∈ r.frames, NoBytes sid place.givenUp) :
    r.session.StreamAtEnd sid ∧ NoBytes sid r.lost := by
  unfold SessionShared.recvEnded at hended
  split at hended
  · cases hended
  · next c hc =>
    obtain ⟨hover, hterm⟩ := Prod.mk.inj hended
    refine ⟨⟨c, hc, ?_⟩, ?_⟩
    · rw [hterm] at hover
      simpa [AtEnd] using hover
    · rcases h.lost sid with hnone | ⟨place, hmem, hbytes⟩ | ⟨c', hc', hfailed⟩
      · exact hnone
      · exact absurd (hgiven place hmem) hbytes
      · -- a finished stream has not ended in error
        obtain rfl := Option.some.inj (hc.symm.trans hc')
        rw [hterm] at hfailed
        cases hfailed

end Steps

theorem dueGap_of_reachable {G : SessionRun → SessionEvent → Prop}
    (h : sessionMachine.ReachableUnder G r) :
    ∀ (sid : Nat) (c : StreamCtx), r.session.streams[sid]? = some c → c.recv.dueGap = none := by
  refine streams_invariant (fun sid limits => (Settling.new sid limits).dueGap)
    (fun r e _ => admits_any e r.session) (fun sid c c' hc hchange => ?_)
    (fun _ _ _ _ _ hc _ hfed => RecvWindow.dueGap_fedAs hc hfed) (fun _ _ hc => hc) h
  cases hchange with
  | kept off p w a hfinal hfed haction => exact RecvWindow.dueGap_fedAs hc hfed
  | noted =>
    rw [noteAck_recv]
    exact hc
  | refused n =>
    rw [terminate_recv]
    exact hc
  | reset =>
    rw [terminate_recv]
    exact hc
  | cancelled | finished =>
    rw [setTerm_recv]
    exact hc
  | aborted =>
    show (c.setTerm .localAbort).recv.dueGap = none
    rw [setTerm_recv]
    exact hc
  | acked | recorded | finalSent | retracted => exact hc

/-- **Any step a reader may trust.** -/
theorem Sighted.step {admits : Nat → StreamCtx → Nat → Prop} {r' : SessionRun} {e : SessionEvent}
    (h : Sighted r) (haccounts : Accounts r)
    (hdue : ∀ (sid : Nat) (c : StreamCtx), r.session.streams[sid]? = some c → c.recv.dueGap = none)
    (hguard : SeesAll r e) (hstep : StepAs admits r e r') : Sighted r' := by
  have hend : ∀ sid, r.session.StreamAtEnd sid → r'.session.StreamAtEnd sid := by
    intro sid hs
    refine hstep.keeps (I := AtEnd) (fun _ _ hI hchange => hchange.atEnd hI)
      (fun c w off p segments hc hI hfinal hfed => ?_) (fun _ _ hI => hI) hs
    have hstays := hI.crosses (hdue sid c hc) (haccounts.tracks sid c hc) hfinal hfed
    unfold AtEnd at hI ⊢
    rw [hstays]
    exact hI
  have hfail : ∀ sid, r.session.StreamFailed sid → r'.session.StreamFailed sid := fun sid hs =>
    hstep.keeps (I := fun c => isErrorTerm c.term = true)
      (fun _ _ hI hchange => hchange.errorTerm hI) (fun _ _ _ _ _ _ hI _ _ => hI)
      (fun _ _ hI => hI) hs
  cases hstep with
  | session e s hs =>
    exact h.of_kept hend hfail rfl rfl (fun _ hmem _ _ => hmem) (fun _ _ hj => hj)
  | allocated => exact h.of_kept hend hfail rfl rfl (fun _ hmem _ _ => hmem) (fun _ _ hj => hj)
  | crossed owner f d s hs =>
    exact h.of_kept hend hfail rfl rfl (fun _ hmem _ _ => mem_append_left _ hmem)
      (fun _ _ hj => hj)
  | enqueued i owner d hplace hroom =>
    refine h.of_kept hend hfail rfl rfl (fun place hmem sid hbytes => ?_) (fun _ _ hj => hj)
    refine mem_set_of_ne _ hplace hmem ?_
    rintro rfl
    exact hbytes rfl
  | refused i owner d hplace hfull =>
    refine h.refused hplace fun hmem => ?_
    simp only [SeesAll, hplace] at hguard
    exact hguard hfull hmem
  | shut i d s hplace hstreams hs => exact h.shut haccounts hplace hstreams hend hfail
  | called sid =>
    refine h.of_kept hend hfail rfl rfl (fun _ hmem _ _ => hmem) fun j sid' hj => ?_
    change (r.recvs ++ [.popping sid])[j]? = _ at hj
    rw [getElem?_append] at hj
    split at hj
    · exact hj
    · have hnew := mem_singleton.mp (mem_of_getElem? hj)
      cases hnew
  | popped i sid b s hplace hpop =>
    exact h.of_kept hend hfail rfl rfl (fun _ hmem _ _ => hmem)
      fun j sid' hj => getElem?_of_set hj (by simp)
  | consumed i sid b hplace =>
    exact h.of_kept hend hfail rfl rfl (fun _ hmem _ _ => hmem)
      fun j sid' hj => getElem?_of_set hj (by simp)
  | returned i sid b hplace =>
    exact h.of_kept hend hfail rfl rfl (fun _ hmem _ _ => hmem)
      fun j sid' hj => getElem?_of_set hj (by simp)
  | moved e i place place' hplace hfrom hto hended =>
    refine ⟨h.lost, h.unreturned, fun j sid hj => ?_⟩
    by_cases hnew : place' = .rechecking sid (some .fin)
    · obtain ⟨rfl, rfl, hover⟩ := hended sid (some .fin) hnew
      simp only [SeesAll, hplace] at hguard
      exact h.checked hover (hguard hover)
    · exact h.rechecking j sid (getElem?_of_set hj hnew)
  | dropped i place hplace =>
    simp only [SeesAll, hplace] at hguard
    exact h.dropped hguard

theorem sighted_of_reachable (h : sessionMachine.ReachableUnder SeesAll r) : Sighted r := by
  refine h.invariant_of (fun r => Accounts r
    ∧ ∀ (sid : Nat) (c : StreamCtx), r.session.streams[sid]? = some c → c.recv.dueGap = none)
    (fun r hr => ⟨accounts hr, dueGap_of_reachable hr⟩) ?_
    fun r e r' hJ _ hI hguard hstep =>
      hI.step hJ.1 hJ.2 hguard (step_as (admits_any e r.session) hstep)
  rintro _ ⟨sessionId, token, isClient, limits, rfl⟩ -
  exact ⟨fun sid => .inl rfl, fun sid => rfl, fun i sid hj => nomatch hj⟩

/-- **No premature clean end.** In a run whose steps a reader may trust, when `recv` ends with a
finished stream, the window has delivered every byte up to the final offset, and each segment of
them has been returned once. -/
theorem clean_end_returns_all {r : SessionRun} (h : sessionMachine.ReachableUnder SeesAll r)
    {i sid : Nat} (hplace : r.recvs[i]? = some (.rechecking sid (some .fin)))
    (hempty : r.session.queueEmpty sid = true) (hguard : SeesAll r (.recvRecheck i)) :
    ∃ c final, r.session.streams[sid]? = some c ∧ c.remoteFinal = some final
      ∧ (ofStream sid r.crossed).flatten.length = final
      ∧ ((ofStream sid r.returned).filter fun b => b ≠ []).Perm
          ((ofStream sid r.crossed).filter fun b => b ≠ []) := by
  have haccounts := accounts h
  have hsighted := sighted_of_reachable h
  obtain ⟨⟨c, hc, hatEnd⟩, hlost⟩ := hsighted.rechecking i sid hplace
  simp only [SeesAll, hplace] at hguard
  obtain ⟨hframes, hrecvs⟩ := hguard hempty
  have hqueued : r.session.queued sid = [] := by
    unfold SessionShared.queueEmpty at hempty
    unfold SessionShared.queued
    cases hq : r.session.delivered[sid]? with
    | none => rfl
    | some q =>
      rw [hq, Option.all_some, List.isEmpty_iff] at hempty
      exact hempty
  refine ⟨c, c.recv.expectedOffset, hc, hatEnd, ?_, ?_⟩
  · exact (haccounts.tracks sid c hc).expectedOffset.symm
  · -- each nonempty segment was returned as often as it crossed the window
    refine perm_iff_count.mpr fun b => ?_
    by_cases hb : b = []
    · rw [count_eq_zero_of_not_mem fun hmem => by simp [hb] at hmem,
        count_eq_zero_of_not_mem fun hmem => by simp [hb] at hmem]
    · rw [count_filter (by simp [hb]), count_filter (by simp [hb])]
      let g : Bytes → Nat := fun x => if x = b then 1 else 0
      have hg : g [] = 0 := if_neg fun heq => hb heq.symm
      have hcount : ∀ parcels, weigh g sid parcels = (ofStream sid parcels).count b := by
        intro parcels
        unfold weigh
        induction ofStream sid parcels with
        | nil => rfl
        | cons x rest ih =>
          rw [map_cons, sum_cons, ih, count_cons]
          by_cases heq : x = b <;> simp [g, heq, Nat.add_comm]
      have hbalance := haccounts.balance g sid
      have houtward := haccounts.outward g sid
      rw [hqueued, weighPlaces_eq_zero hg hframes,
        weighPlaces_eq_zero hg fun place hp => (hrecvs place hp).1, hlost.weigh hg] at hbalance
      rw [weighPlaces_eq_zero hg fun place hp => (hrecvs place hp).2,
        (hsighted.unreturned sid).weigh hg] at houtward
      rw [hcount] at hbalance
      rw [hcount r.returned] at houtward
      simp only [map_nil, sum_nil] at hbalance
      omega

namespace SampleEof

open SampleFinal (client client_init fromProvider)

def readToEnd : List SessionEvent :=
  [.allocStream, .reserveStreamSlot 1, .frame 0 (fromProvider .data 0 [1, 2, 3]), .enqueue 0,
    .frame 0 (fromProvider .fin 3 []), .recv 1, .recvPop 0, .recvCommit 0, .recvReturn 0,
    .recv 1, .recvPop 1, .recvCheck 1]

/-- The FIN comes first; the reader looks at the queue before the bytes cross the window, and at
the window after that. -/
def overtaken : List SessionEvent :=
  [.allocStream, .reserveStreamSlot 1, .frame 0 (fromProvider .fin 3 []), .recv 1, .recvPop 0,
    .frame 0 (fromProvider .data 0 [1, 2, 3]), .recvCheck 0, .recvRecheck 0]

theorem end_after_all :
    ∃ r, sessionMachine.ReachableUnder SeesAll r ∧ r.returned = [(1, [1, 2, 3])]
      ∧ ∃ c final, r.session.streams[1]? = some c ∧ c.remoteFinal = some final
        ∧ (ofStream 1 r.crossed).flatten.length = final
        ∧ ((ofStream 1 r.returned).filter fun b => b ≠ []).Perm
            ((ofStream 1 r.crossed).filter fun b => b ≠ []) := by
  have hrun : (sessionMachine.runUnder SeesAll (.init client) readToEnd).any
      (fun r => r.returned = [(1, [1, 2, 3])] && r.recvs[1]? = some (.rechecking 1 (some .fin))
        && r.session.queueEmpty 1 && decide (SeesAll r (.recvRecheck 1))) = true := by
    decide +kernel
  obtain ⟨r, hreach, hstate⟩ := Machine.exists_reachableUnder client_init hrun
  simp only [Bool.and_eq_true, decide_eq_true_eq] at hstate
  obtain ⟨⟨⟨hreturned, hplace⟩, hempty⟩, hguard⟩ := hstate
  exact ⟨r, hreach, hreturned, clean_end_returns_all hreach hplace hempty hguard⟩

/-- **A clean end before the first byte**: the call ended with a finished stream of three bytes,
none of which had been returned; they were on their way to the delivery queue. -/
theorem end_before_all :
    ∃ r, sessionMachine.Reachable r
      ∧ r.recvs = [.failed 1 (SessionShared.recvEndText (some .fin))]
      ∧ (r.session.streams[1]?.map fun c => (c.remoteFinal, c.term)) = some (some 3, some .fin)
      ∧ r.crossed = [(1, [1, 2, 3])] ∧ r.returned = [] := by
  have hrun : (sessionMachine.runUnder (fun _ _ => True) (.init client) overtaken).any
      (fun r => r.recvs = [.failed 1 (SessionShared.recvEndText (some .fin))]
        && (r.session.streams[1]?.map fun c => (c.remoteFinal, c.term)) = some (some 3, some .fin)
        && r.crossed = [(1, [1, 2, 3])] && r.returned = []) = true := by decide +kernel
  obtain ⟨r, hreach, hstate⟩ := Machine.exists_reachableUnder client_init hrun
  simp only [Bool.and_eq_true, decide_eq_true_eq] at hstate
  obtain ⟨⟨⟨hrecvs, hstream⟩, hcrossed⟩, hreturned⟩ := hstate
  exact ⟨r, hreach, hrecvs, hstream, hcrossed, hreturned⟩

end SampleEof

end Dweb
