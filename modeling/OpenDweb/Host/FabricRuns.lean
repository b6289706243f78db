import OpenDweb.Host.FabricHost

/-!
# OpenDweb — one fabric, and nothing left behind

What the fabric host promises over whole runs whose steps all meet `FabricHost.Respects`. A fabric
opened and not shut down is the host's, or in the hands of a teardown, or still in those of the
call that opened it; from that follow one started fabric at a time and none after a close.

* **`FabricsOwned`** — who has a fabric in hand, kept by each move of an opener.
* **`Inv`** — with it the two tables by peer; `Inv.step` keeps it under the guard.
* **`fabric_host_agrees`** — the property over such runs.
* **`SampleFabricHost.failed_after_close`** — a start that finds the host closed makes it failed.
-/

namespace Dweb

open List

/-! ## Who has a fabric in hand -/

def TornBy (openers : List Opener) (closes : List HostCloseAt) (i : Nat) : Prop :=
  (∃ o ∈ openers, o.place.torn = some i) ∨ ∃ c ∈ closes, c.torn = some i

/-- The call still has its own fabric in hand, not started. -/
def Opener.holds (o : Opener) : Bool :=
  match o.place with
  | .abandoning | .rootCheck | .rejecting | .tearing _ => o.fabric = .opened
  | _ => false

def OpenerAt.isSettled : OpenerAt → Bool
  | .returned | .thrown | .joinOver => true
  | _ => false

theorem OpenerAt.torn_of_isSettled {place : OpenerAt} (h : place.isSettled = true) :
    place.torn = none := by
  cases place <;> first | rfl | cases h

theorem Opener.holds_of_isSettled {o : Opener} (h : o.place.isSettled = true) :
    o.holds = false := by
  unfold Opener.holds
  cases hat : o.place <;> rw [hat] at h <;> first | rfl | cases h

theorem Opener.opened_of_holds {o : Opener} (h : o.holds = true) : o.fabric = .opened := by
  unfold Opener.holds at h
  cases hat : o.place <;> rw [hat] at h <;> first | exact of_decide_eq_true h | cases h

def FabricLife.isLive : FabricLife → Bool
  | .opened | .started => true
  | _ => false

/-- A live fabric is in somebody's hands; a teardown has taken the host's; one teardown at a time
has one; a close leaves none. -/
structure FabricsOwned (fabric : Option Nat) (openers : List Opener) (closes : List HostCloseAt) :
    Prop where
  live : ∀ (i : Nat) o, openers[i]? = some o → o.fabric.isLive = true →
    fabric = some i ∨ TornBy openers closes i ∨ o.holds = true
  torn : ∀ i, TornBy openers closes i → fabric = none
  unique : ∀ i j, TornBy openers closes i → TornBy openers closes j → i = j
  closing : closes ≠ [] → fabric = none

namespace FabricsOwned

variable {fabric : Option Nat} {openers : List Opener} {closes : List HostCloseAt} {i : Nat}
  {o o' : Opener}

theorem empty : FabricsOwned none [] [] where
  live i o ho := by cases ho
  torn i hi := rfl
  unique i j hi := by
    rcases hi with ⟨o, ho, -⟩ | ⟨c, hc, -⟩
    · cases ho
    · cases hc
  closing h := rfl

theorem tornBy_set (ho : openers[i]? = some o) (hold : o.place.torn = none)
    (hnew : o'.place.torn = none) (j : Nat) :
    TornBy (openers.set i o') closes j ↔ TornBy openers closes j := by
  constructor
  · intro hj
    refine hj.imp_left fun ⟨x, hx, htorn⟩ => ?_
    rcases mem_or_eq_of_mem_set hx with hmem | rfl
    · exact ⟨x, hmem, htorn⟩
    · rw [hnew] at htorn
      cases htorn
  · intro hj
    refine hj.imp_left fun ⟨x, hx, htorn⟩ => ?_
    obtain ⟨k, hk⟩ := mem_iff_getElem?.mp hx
    have hne : i ≠ k := fun heq => by
      rw [← heq, ho] at hk
      cases hk
      rw [hold] at htorn
      cases htorn
    exact ⟨x, mem_of_getElem? ((getElem?_set_ne hne).trans hk), htorn⟩

theorem append (h : FabricsOwned fabric openers closes) (hplace : o.place.torn = none)
    (hfabric : o.fabric.isLive = false) : FabricsOwned fabric (openers ++ [o]) closes := by
  have htorn : ∀ j, TornBy (openers ++ [o]) closes j ↔ TornBy openers closes j := fun j => by
    simp [TornBy, mem_append, or_and_right, exists_or, hplace]
  exact
    { live := fun j x hx hlive => by
        rcases Nat.lt_or_ge j openers.length with hlt | hge
        · rw [getElem?_append_left hlt] at hx
          rw [htorn]
          exact h.live j x hx hlive
        · rw [getElem?_append_right hge] at hx
          rw [mem_singleton.mp (mem_of_getElem? hx), hfabric] at hlive
          cases hlive
      torn := fun j hj => h.torn j ((htorn j).mp hj)
      unique := fun j k hj hk => h.unique j k ((htorn j).mp hj) ((htorn k).mp hk)
      closing := h.closing }

theorem set (h : FabricsOwned fabric openers closes) (ho : openers[i]? = some o)
    (hold : o.place.torn = none) (hnew : o'.place.torn = none)
    (hlive : o'.fabric.isLive = true →
      fabric = some i ∨ TornBy openers closes i ∨ o'.holds = true) :
    FabricsOwned fabric (openers.set i o') closes where
  live j x hx hx' := by
    rw [tornBy_set ho hold hnew]
    by_cases heq : i = j
    · subst heq
      rw [getElem?_set_self (List.getElem?_eq_some_iff.mp ho).1] at hx
      cases hx
      exact hlive hx'
    · rw [getElem?_set_ne heq] at hx
      exact h.live j x hx hx'
  torn j hj := h.torn j ((tornBy_set ho hold hnew j).mp hj)
  unique j k hj hk :=
    h.unique j k ((tornBy_set ho hold hnew j).mp hj) ((tornBy_set ho hold hnew k).mp hk)
  closing := h.closing

/-- **A fabric becomes the host's**, where there is none. -/
theorem takeUp (h : FabricsOwned none openers []) (ho : openers[i]? = some o)
    (hvacant : ∀ x ∈ openers, x.place.torn = none) (hnew : o'.place.torn = none) :
    FabricsOwned (some i) (openers.set i o') [] := by
  have hold : o.place.torn = none := hvacant o (mem_of_getElem? ho)
  have hnone : ∀ j, ¬TornBy openers [] j := fun j hj => by
    rcases hj with ⟨x, hx, htorn⟩ | ⟨c, hc, -⟩
    · rw [hvacant x hx] at htorn
      cases htorn
    · cases hc
  exact
    { live := fun j x hx hlive => by
        by_cases heq : i = j
        · exact Or.inl (congrArg some heq)
        · rw [getElem?_set_ne heq] at hx
          rcases h.live j x hx hlive with hcurrent | htorn | hholds
          · cases hcurrent
          · exact absurd htorn (hnone j)
          · exact Or.inr (Or.inr hholds)
      torn := fun j hj => absurd ((tornBy_set ho hold hnew j).mp hj) (hnone j)
      unique := fun j _ hj => absurd ((tornBy_set ho hold hnew j).mp hj) (hnone j)
      closing := fun hne => absurd rfl hne }

theorem drop (h : FabricsOwned fabric openers closes) (ho : openers[i]? = some o)
    (hown : fabric = none ∨ fabric = some i) (hold : o.place.torn = none)
    (hnew : o'.place.torn = none) (hshut : o'.fabric.isLive = false) :
    FabricsOwned none (openers.set i o') closes where
  live j x hx hlive := by
    rw [tornBy_set ho hold hnew]
    by_cases heq : i = j
    · subst heq
      rw [getElem?_set_self (List.getElem?_eq_some_iff.mp ho).1] at hx
      cases hx
      rw [hshut] at hlive
      cases hlive
    · rw [getElem?_set_ne heq] at hx
      rcases h.live j x hx hlive with hcurrent | hrest
      · rcases hown with hnone | hself
        · rw [hnone] at hcurrent
          cases hcurrent
        · rw [hself] at hcurrent
          exact absurd (Option.some.inj hcurrent) heq
      · exact Or.inr hrest
  torn _ _ := rfl
  unique j k hj hk :=
    h.unique j k ((tornBy_set ho hold hnew j).mp hj) ((tornBy_set ho hold hnew k).mp hk)
  closing _ := rfl

/-! ### Teardowns -/

variable {j : Nat} {old : Option Nat}

theorem tear_live (h : FabricsOwned fabric openers closes) (hlive : o.fabric.isLive = true)
    (ho : openers[j]? = some o) {Torn : Prop} (hcurrent : fabric = some j → Torn)
    (hbefore : TornBy openers closes j → Torn) : Torn ∨ o.holds = true := by
  rcases h.live j o ho hlive with hc | ht | hh
  · exact Or.inl (hcurrent hc)
  · exact Or.inl (hbefore ht)
  · exact Or.inr hh

theorem tear_unique (h : FabricsOwned fabric openers closes) {k : Nat}
    (hj : TornBy openers closes j ∨ fabric = some j)
    (hk : TornBy openers closes k ∨ fabric = some k) : j = k := by
  rcases hj with hj | hj <;> rcases hk with hk | hk
  · exact h.unique j k hj hk
  · cases (h.torn j hj).symm.trans hk
  · cases (h.torn k hk).symm.trans hj
  · exact Option.some.inj (hj.symm.trans hk)

/-- **A join begins its teardown.** -/
theorem tearByJoin (h : FabricsOwned fabric openers closes) (ho : openers[i]? = some o)
    (hold : o.place.torn = none) :
    FabricsOwned none (openers.set i { place := .tearing fabric, fabric := o.fabric }) closes := by
  have hget : (openers.set i { place := .tearing fabric, fabric := o.fabric })[i]?
      = some { place := .tearing fabric, fabric := o.fabric } :=
    getElem?_set_self (List.getElem?_eq_some_iff.mp ho).1
  have hcurrent : ∀ j, fabric = some j →
      TornBy (openers.set i { place := .tearing fabric, fabric := o.fabric }) closes j :=
    fun j hj => Or.inl ⟨_, mem_of_getElem? hget, hj⟩
  have hbefore : ∀ j, TornBy openers closes j →
      TornBy (openers.set i { place := .tearing fabric, fabric := o.fabric }) closes j := by
    intro j hj
    refine hj.imp_left fun ⟨x, hx, htorn⟩ => ?_
    obtain ⟨k, hk⟩ := mem_iff_getElem?.mp hx
    have hne : i ≠ k := fun heq => by
      rw [← heq, ho] at hk
      cases hk
      rw [hold] at htorn
      cases htorn
    exact ⟨x, mem_of_getElem? ((getElem?_set_ne hne).trans hk), htorn⟩
  have hafter : ∀ j,
      TornBy (openers.set i { place := .tearing fabric, fabric := o.fabric }) closes j →
      TornBy openers closes j ∨ fabric = some j := by
    intro j hj
    rcases hj with ⟨x, hx, htorn⟩ | hclose
    · rcases mem_or_eq_of_mem_set hx with hmem | rfl
      · exact Or.inl (Or.inl ⟨x, hmem, htorn⟩)
      · exact Or.inr htorn
    · exact Or.inl (Or.inr hclose)
  exact
    { live := fun j x hx hlive => by
        refine Or.inr ?_
        by_cases heq : i = j
        · subst heq
          cases hget.symm.trans hx
          -- the joined fabric stays in the join's hands
          have hlive : o.fabric.isLive = true := hlive
          rcases h.tear_live hlive ho (hcurrent i) (hbefore i) with htorn | hholds
          · exact Or.inl htorn
          · have hopened : o.fabric = .opened := Opener.opened_of_holds hholds
            exact Or.inr (decide_eq_true hopened)
        · rw [getElem?_set_ne heq] at hx
          exact h.tear_live hlive hx (hcurrent j) (hbefore j)
      torn := fun _ _ => rfl
      unique := fun j k hj hk => h.tear_unique (hafter j hj) (hafter k hk)
      closing := fun _ => rfl }

/-- **A close begins its teardown.** -/
theorem tearByClose (h : FabricsOwned fabric openers closes) :
    FabricsOwned none openers (closes ++ [.tearing fabric]) := by
  have hafter : ∀ j, TornBy openers (closes ++ [.tearing fabric]) j ↔
      TornBy openers closes j ∨ fabric = some j := fun j => by
    simp [TornBy, mem_append, or_and_right, exists_or, or_assoc, HostCloseAt.torn]
  exact
    { live := fun j x hx hlive =>
        Or.inr (h.tear_live hlive hx (fun hc => (hafter j).mpr (Or.inr hc))
          fun ht => (hafter j).mpr (Or.inl ht))
      torn := fun _ _ => rfl
      unique := fun j k hj hk => h.tear_unique ((hafter j).mp hj) ((hafter k).mp hk)
      closing := fun _ => rfl }

theorem of_shutDown (hx : (shutDown openers old)[j]? = some o) (hlive : o.fabric.isLive = true) :
    openers[j]? = some o ∧ old ≠ some j := by
  cases old with
  | none => exact ⟨hx, nofun⟩
  | some f =>
    by_cases heq : f = j
    · subst heq
      rw [shutDown, getElem?_modify_eq] at hx
      obtain ⟨x, -, rfl⟩ := Option.map_eq_some_iff.mp hx
      cases hlive
    · rw [shutDown, getElem?_modify_ne _ _ heq] at hx
      exact ⟨hx, fun hc => heq (Option.some.inj hc)⟩

theorem place_shutDown (openers : List Opener) (old : Option Nat) (j : Nat) :
    (shutDown openers old)[j]?.map Opener.place = openers[j]?.map Opener.place := by
  cases old with
  | none => rfl
  | some f =>
    by_cases heq : f = j
    · subst heq
      rw [shutDown, getElem?_modify_eq]
      cases openers[f]? <;> rfl
    · rw [shutDown, getElem?_modify_ne _ _ heq]

theorem exists_place_shutDown (old : Option Nat) (h : openers[j]? = some o) :
    ∃ x, (shutDown openers old)[j]? = some x ∧ x.place = o.place := by
  have hplace := place_shutDown openers old j
  rw [h] at hplace
  exact Option.map_eq_some_iff.mp hplace

theorem exists_of_shutDown (h : (shutDown openers old)[j]? = some o) :
    ∃ x, openers[j]? = some x ∧ x.place = o.place := by
  have hplace := place_shutDown openers old j
  rw [h] at hplace
  exact Option.map_eq_some_iff.mp hplace.symm

/-- **A close is through with its teardown.** -/
theorem closeEnds {k : Nat} (h : FabricsOwned none openers closes)
    (hk : closes[k]? = some (.tearing old)) :
    FabricsOwned none (shutDown openers old) (closes.set k .ended) := by
  have hfewer : ∀ j, TornBy (shutDown openers old) (closes.set k .ended) j →
      TornBy openers closes j := by
    intro j hj
    rcases hj with ⟨x, hx, htorn⟩ | ⟨c, hc, htorn⟩
    · obtain ⟨l, hl⟩ := mem_iff_getElem?.mp hx
      obtain ⟨y, hy, hplace⟩ := exists_of_shutDown hl
      exact Or.inl ⟨y, mem_of_getElem? hy, hplace ▸ htorn⟩
    · rcases mem_or_eq_of_mem_set hc with hmem | rfl
      · exact Or.inr ⟨c, hmem, htorn⟩
      · cases htorn
  -- what another call has in hand stays there
  have hstays : ∀ j, old ≠ some j → TornBy openers closes j →
      TornBy (shutDown openers old) (closes.set k .ended) j := by
    intro j hne hj
    rcases hj with ⟨x, hx, htorn⟩ | ⟨c, hc, htorn⟩
    · obtain ⟨l, hl⟩ := mem_iff_getElem?.mp hx
      obtain ⟨y, hy, hplace⟩ := exists_place_shutDown old hl
      exact Or.inl ⟨y, mem_of_getElem? hy, hplace ▸ htorn⟩
    · obtain ⟨l, hl⟩ := mem_iff_getElem?.mp hc
      have hother : k ≠ l := fun heq => by
        subst heq
        cases hk.symm.trans hl
        exact hne htorn
      exact Or.inr ⟨c, mem_of_getElem? ((getElem?_set_ne hother).trans hl), htorn⟩
  exact
    { live := fun j x hx hlive => by
        obtain ⟨hx, hne⟩ := of_shutDown hx hlive
        rcases h.live j x hx hlive with hcurrent | htorn | hholds
        · cases hcurrent
        · exact Or.inr (Or.inl (hstays j hne htorn))
        · exact Or.inr (Or.inr hholds)
      torn := fun _ _ => rfl
      unique := fun j l hj hl => h.unique j l (hfewer j hj) (hfewer l hl)
      closing := fun _ => rfl }

/-- **A join takes over**, with no other teardown under way. -/
theorem tornDown (h : FabricsOwned none openers []) (ho : openers[i]? = some o)
    (hat : o.place = .tearing old) (hothers : ∀ x ∈ openers.eraseIdx i, x.place.torn = none)
    (hnew : o'.place.torn = none) : FabricsOwned (some i) ((shutDown openers old).set i o') [] := by
  have hothers : ∀ (j : Nat) x, i ≠ j → openers[j]? = some x → x.place.torn = none :=
    fun j x hne hx => hothers x (mem_eraseIdx_iff_getElem?.mpr ⟨j, hne.symm, hx⟩)
  have hnone : ∀ j, ¬TornBy ((shutDown openers old).set i o') [] j := by
    intro j hj
    rcases hj with ⟨x, hx, htorn⟩ | ⟨c, hc, -⟩
    · obtain ⟨l, hl⟩ := mem_iff_getElem?.mp hx
      by_cases heq : i = l
      · subst heq
        obtain ⟨y, hy, -⟩ := exists_place_shutDown old ho
        rw [getElem?_set_self (List.getElem?_eq_some_iff.mp hy).1] at hl
        cases hl
        rw [hnew] at htorn
        cases htorn
      · rw [getElem?_set_ne heq] at hl
        obtain ⟨y, hy, hplace⟩ := exists_of_shutDown hl
        rw [← hplace, hothers l y heq hy] at htorn
        cases htorn
    · cases hc
  exact
    { live := fun j x hx hlive => by
        by_cases heq : i = j
        · exact Or.inl (congrArg some heq)
        · rw [getElem?_set_ne heq] at hx
          obtain ⟨hx, hne⟩ := of_shutDown hx hlive
          rcases h.live j x hx hlive with hcurrent | htorn | hholds
          · cases hcurrent
          · -- only this join had a fabric in hand, the one shut down
            rcases htorn with ⟨y, hy, htorn⟩ | ⟨c, hc, -⟩
            · obtain ⟨l, hl⟩ := mem_iff_getElem?.mp hy
              by_cases hself : i = l
              · subst hself
                cases ho.symm.trans hl
                rw [hat] at htorn
                exact absurd htorn hne
              · rw [hothers l y hself hl] at htorn
                cases htorn
            · cases hc
          · exact Or.inr (Or.inr hholds)
      torn := fun j hj => absurd hj (hnone j)
      unique := fun j _ hj => absurd hj (hnone j)
      closing := fun hne => absurd rfl hne }

end FabricsOwned

namespace FabricHost

variable {π ι : Type*} {belongs : ι → π} {s s' : FabricHost π ι} {i : Nat} {o : Opener}

/-! ## The claim's property -/

def IsClosed (s : FabricHost π ι) : Prop := .ended ∈ s.closes

structure Settled (s : FabricHost π ι) : Prop where
  openers : ∀ o ∈ s.openers, o.place.isSettled = true
  closes : ∀ c ∈ s.closes, c = .ended
  resolvers : ∀ r ∈ s.resolvers, r.place = .ended
  binds : ∀ b ∈ s.serves.binds, b.place ≠ .awaiting

/-- No fabric, session or serve handle that the host has opened is open. -/
structure NothingOpen (s : FabricHost π ι) : Prop where
  fabrics : ∀ o ∈ s.openers, o.fabric.isLive = false
  sessions : ∀ j, (s.sessions.kernel j).opened = true → (s.sessions.kernel j).closed ≠ none
  handles : ∀ b ∈ s.serves.binds, b.place ≠ .served

/-- The host, as it is promised: closed for good, with nothing left open; one started fabric at a
time; each session cached or closed, and closed before its end only with the fabric; one serve
handle for a peer, on the host's fabric; sessions resolve to their own peers. -/
structure HostAgrees (belongs : ι → π) (s : FabricHost π ι) : Prop where
  absorbing : s.IsClosed → s.status = .closed
  released : s.IsClosed → s.Settled → s.NothingOpen
  single : ∀ (i j : Nat) oi oj, s.openers[i]? = some oi → s.openers[j]? = some oj →
    oi.fabric = .started → oj.fabric = .started → i = j
  cached : ∀ j, (s.sessions.kernel j).opened = true → (s.sessions.kernel j).closed = none →
    s.sessions.cached (belongs j) = some j
  cause : ∀ j, (s.sessions.kernel j).closed = some .evicted → (s.sessions.kernel j).ended = true
  bound : ∀ (h h' : Nat) b b', s.serves.binds[h]? = some b → s.serves.binds[h']? = some b' →
    b.place = .served → b'.place = .served → b.peer = b'.peer → h = h'
  current : ∀ b ∈ s.serves.binds, b.place = .served → s.fabric = some b.fabric
  resolves : ∀ j peer, s.sessions.resolvePeerBySession j = some peer → peer = belongs j

/-! ## The invariant -/

structure Inv (belongs : ι → π) (s : FabricHost π ι) : Prop where
  fabrics : FabricsOwned s.fabric s.openers s.closes
  sessions : s.sessions.Kept belongs
  serves : s.serves.Kept s.fabric
  closed : s.IsClosed → s.status = .closed ∧ ∀ peer, s.sessions.sessions peer = none

theorem inv_initial : (initial : FabricHost π ι).Inv belongs where
  fabrics := .empty
  sessions := SessionTable.kept_empty
  serves := ServeTable.kept_empty
  closed h := by cases h

namespace Inv

theorem fabric_of_closed (h : s.Inv belongs) (hclosed : s.IsClosed) : s.fabric = none :=
  h.fabrics.closing fun hnil => by
    rw [IsClosed, hnil] at hclosed
    cases hclosed

theorem hostAgrees (h : s.Inv belongs) : s.HostAgrees belongs where
  absorbing hclosed := (h.closed hclosed).1
  released hclosed hsettled := by
    have hfabric := h.fabric_of_closed hclosed
    refine ⟨fun o ho => ?_, fun j hopened hnot => ?_, ?_⟩
    · by_contra hlive
      obtain ⟨i, hi⟩ := mem_iff_getElem?.mp ho
      rcases h.fabrics.live i o hi (by simpa using hlive) with hcurrent | htorn | hholds
      · rw [hfabric] at hcurrent
        cases hcurrent
      · -- no teardown is under way
        rcases htorn with ⟨x, hx, htorn⟩ | ⟨c, hc, htorn⟩
        · rw [OpenerAt.torn_of_isSettled (hsettled.openers x hx)] at htorn
          cases htorn
        · rw [hsettled.closes c hc] at htorn
          cases htorn
      · rw [Opener.holds_of_isSettled (hsettled.openers o ho)] at hholds
        cases hholds
    · obtain ⟨e, hit, he, -, -⟩ := SessionTable.cached_eq_some.mp (h.sessions.single j hopened hnot)
      rw [(h.closed hclosed).2] at he
      cases he
    · have hserves := h.serves
      rw [hfabric] at hserves
      exact hserves.none_served
  single i j oi oj hi hj hoi hoj := by
    have hwhere : ∀ (k : Nat) x, s.openers[k]? = some x → x.fabric = .started →
        s.fabric = some k ∨ TornBy s.openers s.closes k := fun k x hk hx => by
      rcases h.fabrics.live k x hk (by rw [hx]; rfl) with hcurrent | htorn | hholds
      · exact Or.inl hcurrent
      · exact Or.inr htorn
      · cases hx.symm.trans (Opener.opened_of_holds hholds)
    exact h.fabrics.tear_unique (hwhere i oi hi hoi).symm (hwhere j oj hj hoj).symm
  cached := h.sessions.single
  cause := h.sessions.evicted
  bound _ _ _ _ hb hb' hserved hserved' hpeer := h.serves.unique hb hb' hserved hserved' hpeer
  current b hb hserved := by
    obtain ⟨k, hk⟩ := mem_iff_getElem?.mp hb
    exact (h.serves.served k b hk hserved).2
  resolves := h.sessions.resolves

/-! ### Starts -/

variable {place : OpenerAt} {ok : Bool} {k : Nat} {r : SessionResolver π}

theorem setOpener (h : s.Inv belongs) (ho : s.openers[i]? = some o) {fabric : FabricLife}
    (hold : o.place.torn = none) (hnew : place.torn = none)
    (hlive : fabric.isLive = true → s.fabric = some i ∨ TornBy s.openers s.closes i ∨ Opener.holds { place := place, fabric := fabric } = true) :
    (s.setOpener i place fabric).Inv belongs :=
  { h with fabrics := h.fabrics.set ho hold hnew hlive }

theorem owned (h : s.Inv belongs) (ho : s.openers[i]? = some o) (hholds : o.holds = false)
    (hlive : o.fabric.isLive = true) : s.fabric = some i ∨ TornBy s.openers s.closes i := by
  rcases h.fabrics.live i o ho hlive with hcurrent | htorn | hh
  · exact Or.inl hcurrent
  · exact Or.inr htorn
  · rw [hholds] at hh
    cases hh

theorem moveOpener (h : s.Inv belongs) (ho : s.openers[i]? = some o) (hold : o.place.torn = none)
    (hnew : place.torn = none) (hholds : o.holds = false) :
    (s.setOpener i place o.fabric).Inv belongs :=
  h.setOpener ho hold hnew fun hlive => (h.owned ho hholds hlive).imp_right Or.inl

theorem not_isClosed (h : s.Inv belongs) (hopen : s.status ≠ .closed) : ¬s.IsClosed :=
  fun hclosed => hopen (h.closed hclosed).1

theorem setStatus (h : s.Inv belongs) (hopen : s.status ≠ .closed) (status : HostStatus) :
    ({ s with status := status } : FabricHost π ι).Inv belongs :=
  { h with closed := fun hclosed => absurd hclosed (h.not_isClosed hopen) }

theorem ensureStarted (h : s.Inv belongs) : s.ensureStarted.1.Inv belongs := by
  unfold FabricHost.ensureStarted
  have hnew : ∀ promise, s.status ≠ .closed →
      ({ s with
          status := .starting, startPromise := promise
          openers := s.openers ++ [{ place := .preparing, fabric := .unopened }] } :
        FabricHost π ι).Inv belongs := fun promise hopen =>
    { h with
      fabrics := h.fabrics.append rfl rfl
      closed := fun hclosed => absurd hclosed (h.not_isClosed hopen) }
  split
  · exact h
  · exact h
  · next hclosed =>
    split
    · exact h
    · exact hnew _ hclosed

theorem preparedEnds (h : s.Inv belongs) (ho : s.openers[i]? = some o)
    (hs : s.preparedEnds i o ok = some s') : s'.Inv belongs := by
  unfold FabricHost.preparedEnds at hs
  cases hat : o.place <;> simp only [hat, Option.some.injEq, reduceCtorEq] at hs
  all_goals
    subst hs
    have hholds : o.holds = false := by rw [Opener.holds, hat]
    cases ok <;> exact h.moveOpener ho (by rw [hat]; rfl) rfl hholds

/-- **A start takes its fabric up**: the host's where there is none, its own to shut down where the
host is closed. -/
theorem takeUp (h : s.Inv belongs) (ho : s.openers[i]? = some o) (hold : o.place.torn = none)
    (hvacant : s.status ≠ .closed → s.Vacant s.openers) : (s.takeUp i).Inv belongs := by
  unfold FabricHost.takeUp
  split
  · exact h.setOpener ho hold rfl fun _ => Or.inr (Or.inr rfl)
  · next hopen =>
    obtain ⟨hfabric, hcloses, hothers⟩ := hvacant hopen
    have hfabrics := h.fabrics
    rw [hfabric, hcloses] at hfabrics
    have hserves := h.serves
    rw [hfabric] at hserves
    exact
      { fabrics := by
          show FabricsOwned (some i) (s.openers.set i _) s.closes
          rw [hcloses]
          exact hfabrics.takeUp ho hothers rfl
        sessions := h.sessions
        serves := hserves.of_none_served hserves.none_served _
        closed := h.closed }

theorem openEnds (h : s.Inv belongs) (ho : s.openers[i]? = some o) {e : FabricOpenEnd}
    (hguard : s.Respects (.openEnds i e)) (hs : s.openEnds i o e = some s') :
    s'.Inv belongs := by
  unfold FabricHost.openEnds at hs
  cases hat : o.place <;> simp only [hat, Option.some.injEq, reduceCtorEq] at hs
  subst hs
  have hholds : o.holds = false := by rw [Opener.holds, hat]
  have htorn : o.place.torn = none := by rw [hat]; rfl
  cases e with
  | opened => exact h.takeUp ho htorn (hguard rfl)
  | noRoster => exact h.moveOpener ho htorn rfl hholds
  | failed => exact h.moveOpener ho htorn rfl hholds

theorem createEnds (h : s.Inv belongs) (ho : s.openers[i]? = some o)
    (hguard : s.Respects (.createEnds i ok)) (hs : s.createEnds i o ok = some s') :
    s'.Inv belongs := by
  unfold FabricHost.createEnds at hs
  cases hat : o.place <;> simp only [hat, Option.some.injEq, reduceCtorEq] at hs
  subst hs
  have hholds : o.holds = false := by rw [Opener.holds, hat]
  have htorn : o.place.torn = none := by rw [hat]; rfl
  cases ok with
  | false => exact h.moveOpener ho htorn rfl hholds
  | true => exact h.takeUp ho htorn (hguard rfl)

theorem checkEnds (h : s.Inv belongs) (ho : s.openers[i]? = some o)
    (hs : s.checkEnds i o ok = some s') : s'.Inv belongs := by
  unfold FabricHost.checkEnds at hs
  cases hat : o.place <;> simp only [hat, Option.some.injEq, reduceCtorEq] at hs
  subst hs
  have hholds : o.holds = false := by rw [Opener.holds, hat]
  cases ok <;> exact h.moveOpener ho (by rw [hat]; rfl) rfl hholds

theorem started (h : s.Inv belongs) (ho : s.openers[i]? = some o) (hold : o.place.torn = none)
    (hnew : place.torn = none) (hholds : o.holds = false) :
    (s.setOpener i place o.fabric.start).Inv belongs :=
  h.setOpener ho hold hnew fun hlive => by
    have hbefore : o.fabric.isLive = true := by
      cases hat : o.fabric <;> rw [hat] at hlive <;> first | rfl | exact hlive
    exact (h.owned ho hholds hbefore).imp_right Or.inl

theorem startEnds (h : s.Inv belongs) (ho : s.openers[i]? = some o)
    (hguard : s.Respects (.startEnds i ok)) (hs : s.startEnds i o ok = some s') :
    s'.Inv belongs := by
  have hguard := hguard o ho
  unfold FabricHost.startEnds at hs
  cases hat : o.place <;> simp only [hat, Option.some.injEq, reduceCtorEq] at hs
  all_goals
    subst hs
    have hholds : o.holds = false := by rw [Opener.holds, hat]
    have htorn : o.place.torn = none := by rw [hat]; rfl
  case starting =>
    cases ok with
    | false => exact h.moveOpener ho htorn rfl hholds
    | true => exact h.started ho htorn rfl hholds
  case joinStarting =>
    cases ok with
    | false => exact h.moveOpener ho htorn rfl hholds
    | true => exact (h.started ho htorn rfl hholds).setStatus (hguard hat rfl) .started

theorem shutEnds (h : s.Inv belongs) (ho : s.openers[i]? = some o)
    (hguard : s.Respects (.shutEnds i)) (hs : s.shutEnds i o = some s') : s'.Inv belongs := by
  have hguard := hguard o ho
  unfold FabricHost.shutEnds at hs
  cases hat : o.place <;> simp only [hat, Option.some.injEq, reduceCtorEq] at hs
  case failing =>
    obtain ⟨hown, hnone⟩ := hguard hat
    subst hs
    exact
      { fabrics := h.fabrics.drop ho hown (by rw [hat]; rfl) rfl rfl
        sessions := h.sessions
        serves := h.serves.of_none_served hnone _
        closed := h.closed }
  all_goals
    subst hs
    exact h.setOpener ho (by rw [hat]; rfl) rfl nofun

theorem startSettles (h : s.Inv belongs) (ho : s.openers[i]? = some o)
    (hguard : s.Respects (.startSettles i)) (hs : s.startSettles i o = some s') :
    s'.Inv belongs := by
  have hguard := hguard o ho
  unfold FabricHost.startSettles at hs
  cases hat : o.place <;> simp only [hat, Option.some.injEq, reduceCtorEq] at hs
  case returning =>
    subst hs
    have hmoved : (s.setOpener i .returned o.fabric).Inv belongs :=
      h.moveOpener ho (by rw [hat]; rfl) rfl (by rw [Opener.holds, hat])
    exact { hmoved with }
  case throwing =>
    subst hs
    have hmoved : (s.setOpener i .thrown o.fabric).Inv belongs :=
      h.moveOpener ho (by rw [hat]; rfl) rfl (by rw [Opener.holds, hat])
    exact { hmoved.setStatus (hguard hat) .failed with }

/-! ### Serving -/

variable [DecidableEq π]

omit [DecidableEq π] in
theorem bindPeer (h : s.Inv belongs) (peer : π) : (s.bindPeer peer).Inv belongs := by
  unfold FabricHost.bindPeer
  split
  · exact h
  · split
    · exact h
    · next f _ => exact { h with serves := h.serves.serveHttp peer f }

theorem peerConnected (h : s.Inv belongs) (peer : π) : (s.peerConnected peer).Inv belongs := by
  have hadded : (s.addConnected peer).Inv belongs := { h with }
  exact hadded.bindPeer peer

omit [DecidableEq π] in
theorem foldl_peers (f : FabricHost π ι → π → FabricHost π ι)
    (hf : ∀ s peer, Inv belongs s → Inv belongs (f s peer)) (peers : List π)
    (h : s.Inv belongs) : (peers.foldl f s).Inv belongs := by
  induction peers generalizing s with
  | nil => exact h
  | cons peer peers ih => exact ih (hf s peer h)

theorem foldl_peerConnected_openers (peers : List π) (s : FabricHost π ι) :
    (peers.foldl FabricHost.peerConnected s).openers = s.openers
      ∧ (peers.foldl FabricHost.peerConnected s).status = s.status := by
  induction peers generalizing s with
  | nil => exact ⟨rfl, rfl⟩
  | cons peer peers ih =>
    have hstep : (s.peerConnected peer).openers = s.openers
        ∧ (s.peerConnected peer).status = s.status := by
      unfold FabricHost.peerConnected FabricHost.bindPeer
      split
      · exact ⟨rfl, rfl⟩
      · split <;> exact ⟨rfl, rfl⟩
    obtain ⟨hopeners, hstatus⟩ := ih (s.peerConnected peer)
    exact ⟨hopeners.trans hstep.1, hstatus.trans hstep.2⟩

theorem membersEnd (h : s.Inv belongs) (ho : s.openers[i]? = some o) {found : Option (List π)}
    (hguard : s.Respects (.membersEnd i found)) (hs : s.membersEnd i o found = some s') :
    s'.Inv belongs := by
  have hopen : s.status ≠ .closed := hguard
  unfold FabricHost.membersEnd at hs
  cases hat : o.place <;> simp only [hat, Option.some.injEq, reduceCtorEq] at hs
  subst hs
  have hbound := foldl_peers FabricHost.peerConnected (fun _ peer hk => hk.peerConnected peer)
    (found.getD []) h
  obtain ⟨hopeners, hstatus⟩ := foldl_peerConnected_openers (found.getD []) s
  have hmoved : (((found.getD []).foldl FabricHost.peerConnected s).setOpener i .returning
      o.fabric).Inv belongs :=
    hbound.moveOpener (hopeners ▸ ho) (by rw [hat]; rfl) rfl (by rw [Opener.holds, hat])
  exact hmoved.setStatus (fun hclosed => hopen (hstatus.symm.trans hclosed)) .started

omit [DecidableEq π] in
theorem setRouter (h : s.Inv belongs) : s.setRouter.Inv belongs := by
  unfold FabricHost.setRouter
  split
  · exact foldl_peers FabricHost.bindPeer (fun _ peer hk => hk.bindPeer peer) s.connectedPeers h
  · exact h

theorem bindEnds (h : s.Inv belongs) {b : ServeBinding π} (hb : s.serves.binds[k]? = some b)
    (hguard : s.Respects (.bindEnds k ok)) (hs : s.bindEnds k b ok = some s') : s'.Inv belongs := by
  unfold FabricHost.bindEnds at hs
  cases hat : b.place <;> simp only [hat, Option.some.injEq, reduceCtorEq] at hs
  subst hs
  refine { h with serves := ?_ }
  cases ok with
  | false => exact h.serves.setPlace hb hat (by decide)
  | true =>
    show ServeTable.Kept s.fabric (if s.status = .closed then _ else _)
    split
    · exact h.serves.setPlace hb hat (by decide)
    · next hopen =>
      obtain ⟨hfree, hfabric⟩ := hguard rfl hopen b hb
      exact h.serves.register hb hat hfree hfabric

/-! ### Joins and closes -/

variable [DecidableEq ι]

/-- **All that is kept by peer is taken down.** -/
theorem clearPeers (h : s.Inv belongs) : s.clearPeers.Inv belongs where
  fabrics := h.fabrics
  sessions := h.sessions.evictAll
  serves := h.serves.closeAll _
  closed hclosed := ⟨(h.closed hclosed).1, h.sessions.sessions_evictAll⟩

omit [DecidableEq π] [DecidableEq ι] in
theorem join (h : s.Inv belongs) : s.join.Inv belongs :=
  { h with fabrics := h.fabrics.append rfl rfl }

omit [DecidableEq π] [DecidableEq ι] in
theorem joinEnds (h : s.Inv belongs) (ho : s.openers[i]? = some o)
    (hs : s.joinEnds i o ok = some s') : s'.Inv belongs := by
  unfold FabricHost.joinEnds at hs
  cases hat : o.place <;> simp only [hat, Option.some.injEq, reduceCtorEq] at hs
  subst hs
  have htorn : o.place.torn = none := by rw [hat]; rfl
  cases ok with
  | false => exact h.moveOpener ho htorn rfl (by rw [Opener.holds, hat])
  | true => exact h.setOpener ho htorn rfl fun _ => Or.inr (Or.inr rfl)

theorem rootEnds (h : s.Inv belongs) (ho : s.openers[i]? = some o) {inviter : Bool}
    (hs : s.rootEnds i o inviter = some s') : s'.Inv belongs := by
  unfold FabricHost.rootEnds at hs
  cases hat : o.place <;> simp only [hat, Option.some.injEq, reduceCtorEq] at hs
  subst hs
  have htorn : o.place.torn = none := by rw [hat]; rfl
  cases inviter with
  | false =>
    refine h.setOpener ho htorn rfl fun hlive => ?_
    rcases h.fabrics.live i o ho hlive with hcurrent | htorn | hholds
    · exact Or.inl hcurrent
    · exact Or.inr (Or.inl htorn)
    · have hopened : o.fabric = .opened := Opener.opened_of_holds hholds
      exact Or.inr (Or.inr (decide_eq_true hopened))
  | true =>
    have hcleared := h.clearPeers
    exact
      { fabrics := h.fabrics.tearByJoin ho htorn
        sessions := hcleared.sessions
        serves := h.serves.closeAll _
        closed := hcleared.closed }

omit [DecidableEq π] [DecidableEq ι] in
/-- **A join takes over.** -/
theorem tornDown (h : s.Inv belongs) (ho : s.openers[i]? = some o)
    (hguard : s.Respects (.tornDown i)) (hs : s.tornDown i o = some s') : s'.Inv belongs := by
  obtain ⟨hfabric, hcloses, hothers⟩ := hguard
  unfold FabricHost.tornDown at hs
  cases hat : o.place <;> simp only [hat, Option.some.injEq, reduceCtorEq] at hs
  next old =>
  subst hs
  have hfabrics := h.fabrics
  rw [hfabric, hcloses] at hfabrics
  have hserves := h.serves
  rw [hfabric] at hserves
  exact
    { fabrics := by
        show FabricsOwned (some i) ((shutDown s.openers old).set i _) s.closes
        rw [hcloses]
        exact hfabrics.tornDown ho hat hothers rfl
      sessions := h.sessions
      serves := hserves.of_none_served hserves.none_served _
      closed := h.closed }

theorem close (h : s.Inv belongs) : s.close.Inv belongs where
  fabrics := h.fabrics.tearByClose
  sessions := h.sessions.evictAll
  serves := h.serves.closeAll _
  closed hclosed := by
    rcases mem_append.mp hclosed with hold | hnew
    · exact ⟨(h.closed hold).1, h.sessions.sessions_evictAll⟩
    · cases mem_singleton.mp hnew

/-- **A close comes to its end**: nothing is cached. -/
theorem closeEnds (h : s.Inv belongs) {c : HostCloseAt} (hc : s.closes[k]? = some c)
    (hs : s.closeEnds k c = some s') : s'.Inv belongs := by
  cases c with
  | ended => cases hs
  | tearing old =>
    cases hs
    have hfabric : s.fabric = none := h.fabrics.closing fun hnil => by
      rw [hnil] at hc
      cases hc
    have hfabrics := h.fabrics
    rw [hfabric] at hfabrics
    exact
      { fabrics := by
          show FabricsOwned s.fabric _ _
          rw [hfabric]
          exact hfabrics.closeEnds hc
        sessions := h.sessions.evictAll
        serves := h.serves.closeAll _
        closed := fun _ => ⟨rfl, h.sessions.sessions_evictAll⟩ }

/-! ### Sessions -/

omit [DecidableEq π] [DecidableEq ι] in
theorem setResolvers (h : s.Inv belongs) (resolvers : List (SessionResolver π)) :
    ({ s with resolvers := resolvers } : FabricHost π ι).Inv belongs :=
  { h with }

/-- **An eviction**, of a session that has ended. -/
theorem evict (h : s.Inv belongs) {peer : π} (hended : s.CachedEnded peer) :
    ({ s with sessions := s.sessions.evictSession peer .evicted } : FabricHost π ι).Inv belongs :=
  { h with
    sessions := h.sessions.evictSession fun _ => hended
    closed := fun hclosed => by
      obtain ⟨hstatus, hnone⟩ := h.closed hclosed
      refine ⟨hstatus, fun other => ?_⟩
      show (s.sessions.evictSession peer .evicted).sessions other = none
      rw [h.sessions.sessions_evictSession]
      by_cases heq : other = peer
      · rw [heq, Function.update_self]
      · rw [Function.update_of_ne heq, hnone] }

omit [DecidableEq π] [DecidableEq ι] in
theorem resolve (h : s.Inv belongs) (peer : π) : (s.resolve peer).Inv belongs := by
  have hstarted := h.ensureStarted
  unfold FabricHost.resolve
  split
  next s' answer heq =>
  rw [heq] at hstarted
  cases answer with
  | ready => exact hstarted.setResolvers _
  | awaiting j => exact hstarted.setResolvers _
  | rejected => exact hstarted

theorem lookUp (h : s.Inv belongs) (k : Nat) (r : SessionResolver π) :
    (s.lookUp k r).Inv belongs := by
  unfold FabricHost.lookUp
  split
  · exact h.setResolvers _
  · next e hit hhit =>
    obtain ⟨he, hentry⟩ := SessionTable.hit_eq_some.mp hhit
    obtain ⟨hit', hentry', -, hopen⟩ := h.sessions.cached _ e he
    cases hentry.symm.trans hentry'
    rw [hopen, if_neg Bool.false_ne_true]
    exact h.setResolvers _

theorem resolverGoesOn (h : s.Inv belongs) (hs : s.resolverGoesOn k r = some s') :
    s'.Inv belongs := by
  unfold FabricHost.resolverGoesOn at hs
  split at hs
  · cases hs
    exact h.lookUp k r
  · split at hs
    · cases hs
      exact h.lookUp k r
    · cases hs
      exact h.setResolvers _
    · cases hs
  · cases hs

theorem stateEnds (h : s.Inv belongs) {snapshot : Option SessionPhase}
    (hr : s.resolvers[k]? = some r) (hguard : s.Respects (.stateEnds k snapshot))
    (hs : s.stateEnds k r snapshot = some s') : s'.Inv belongs := by
  unfold FabricHost.stateEnds at hs
  split at hs
  · split at hs
    · cases hs
    · split at hs
      · cases hs
      · split at hs
        · cases hs
          exact h.setResolvers _
        · next hbad =>
          cases hs
          exact (h.evict (hguard (by simpa using hbad) r hr)).setResolvers _
  · cases hs

omit [DecidableEq π] [DecidableEq ι] in
theorem connectEnds (h : s.Inv belongs) (hs : s.connectEnds k r ok = some s') : s'.Inv belongs := by
  unfold FabricHost.connectEnds at hs
  split at hs
  · cases hs
    exact h.setResolvers _
  · cases hs

/-- **A session is opened**: cached, or closed again on a closed host. -/
theorem openSessionEnds (h : s.Inv belongs) {session : Option ι} (hr : s.resolvers[k]? = some r)
    (hguard : s.Respects (.openSessionEnds k session))
    (hs : FabricHost.openSessionEnds belongs s k r session = some s') : s'.Inv belongs := by
  unfold FabricHost.openSessionEnds at hs
  split at hs
  · cases hs
    exact h.setResolvers _
  · next j _ =>
    split at hs
    · cases hs
    · next hpeer =>
      have hpeer : r.peer = belongs j := (not_not.mp hpeer).symm
      cases hs
      split
      · -- the handle is closed at once, nothing is cached
        refine { h with sessions := ?_ }
        show ((s.sessions.addEntry r.peer j).closeSession j .teardown).Kept belongs
        rw [SessionTable.closeSession_addEntry]
        have hclosed : (s.sessions.closeSession j .teardown).Kept belongs :=
          h.sessions.closeSession j nofun
        exact hclosed.addEntry hpeer (SessionTable.closeSession_closed_ne _ _ _)
      · next hopen =>
        exact
          { h with
            sessions := h.sessions.cacheEntry hpeer fun j' hj' =>
              hguard hopen r hr j rfl j' hj'
            closed := fun hclosed => absurd hclosed (h.not_isClosed hopen) }
  · cases hs

theorem stateEvent (h : s.Inv belongs) {e : Nat} (hguard : s.Respects (.stateEvent e))
    (hs : s.stateEvent e = some s') : s'.Inv belongs := by
  unfold FabricHost.stateEvent at hs
  split at hs
  · cases hs
  · next hit hhit =>
    split at hs
    · cases hs
      exact h.evict (hguard hit hhit)
    · cases hs

/-! ### Every step -/

/-- **Every step that respects the guard keeps the invariant.** -/
theorem step (h : s.Inv belongs) {l : FabricHostLabel π ι} (hguard : s.Respects l)
    (hs : s.step belongs l = some s') : s'.Inv belongs := by
  cases l with
  | ensureStarted =>
    cases hs
    exact h.ensureStarted
  | preparedEnds i ok =>
    obtain ⟨o, ho, hs⟩ := Option.bind_eq_some_iff.mp hs
    exact h.preparedEnds ho hs
  | openEnds i e =>
    obtain ⟨o, ho, hs⟩ := Option.bind_eq_some_iff.mp hs
    exact h.openEnds ho hguard hs
  | createEnds i ok =>
    obtain ⟨o, ho, hs⟩ := Option.bind_eq_some_iff.mp hs
    exact h.createEnds ho hguard hs
  | checkEnds i ok =>
    obtain ⟨o, ho, hs⟩ := Option.bind_eq_some_iff.mp hs
    exact h.checkEnds ho hs
  | startEnds i ok =>
    obtain ⟨o, ho, hs⟩ := Option.bind_eq_some_iff.mp hs
    exact h.startEnds ho hguard hs
  | membersEnd i found =>
    obtain ⟨o, ho, hs⟩ := Option.bind_eq_some_iff.mp hs
    exact h.membersEnd ho hguard hs
  | shutEnds i =>
    obtain ⟨o, ho, hs⟩ := Option.bind_eq_some_iff.mp hs
    exact h.shutEnds ho hguard hs
  | startSettles i =>
    obtain ⟨o, ho, hs⟩ := Option.bind_eq_some_iff.mp hs
    exact h.startSettles ho hguard hs
  | join =>
    cases hs
    exact h.join
  | joinEnds i ok =>
    obtain ⟨o, ho, hs⟩ := Option.bind_eq_some_iff.mp hs
    exact h.joinEnds ho hs
  | rootEnds i inviter =>
    obtain ⟨o, ho, hs⟩ := Option.bind_eq_some_iff.mp hs
    exact h.rootEnds ho hs
  | tornDown i =>
    obtain ⟨o, ho, hs⟩ := Option.bind_eq_some_iff.mp hs
    exact h.tornDown ho hguard hs
  | close =>
    cases hs
    exact h.close
  | closeEnds k =>
    obtain ⟨c, hc, hs⟩ := Option.bind_eq_some_iff.mp hs
    exact h.closeEnds hc hs
  | resolve peer =>
    cases hs
    exact h.resolve peer
  | resolverGoesOn k =>
    obtain ⟨r, -, hs⟩ := Option.bind_eq_some_iff.mp hs
    exact h.resolverGoesOn hs
  | stateEnds k snapshot =>
    obtain ⟨r, hr, hs⟩ := Option.bind_eq_some_iff.mp hs
    exact h.stateEnds hr hguard hs
  | connectEnds k ok =>
    obtain ⟨r, -, hs⟩ := Option.bind_eq_some_iff.mp hs
    exact h.connectEnds hs
  | openSessionEnds k session =>
    obtain ⟨r, hr, hs⟩ := Option.bind_eq_some_iff.mp hs
    exact h.openSessionEnds hr hguard hs
  | bindEnds k ok =>
    obtain ⟨b, hb, hs⟩ := Option.bind_eq_some_iff.mp hs
    exact h.bindEnds hb hguard hs
  | peerConnected peer =>
    cases hs
    exact h.peerConnected peer
  | peerDisconnected peer =>
    cases hs
    exact { h with }
  | setRouter =>
    cases hs
    exact h.setRouter
  | noteSession session =>
    cases hs
    exact { h with sessions := h.sessions.noteSession session }
  | sessionEnds session =>
    cases hs
    exact { h with sessions := h.sessions.endSession session }
  | stateEvent e => exact h.stateEvent hguard hs

end Inv

end FabricHost

/-- **The fabric host keeps its promises** in every run whose steps all respect the guard: closed
it stays closed and holds nothing, one fabric is started at a time, sessions and serve handles are
the ones its tables know, and what it closes had ended or goes down with its fabric. -/
theorem fabric_host_agrees {π ι : Type*} [DecidableEq π] [DecidableEq ι] {belongs : ι → π}
    {s : FabricHost π ι}
    (h : (fabricHostMachine belongs).ReachableUnder FabricHost.Respects s) :
    s.HostAgrees belongs := by
  have hinv : s.Inv belongs :=
    h.invariant
      (fun s hinit => by
        rw [show s = .initial from hinit]
        exact FabricHost.inv_initial)
      fun _ _ _ hinv hguard hs => hinv.step hguard hs
  exact hinv.hostAgrees

/-! ## Runs that respect the guard, and one that does not -/

namespace SampleFabricHost

/-- Session `10 * p + n` is the `n`-th of peer `p`. -/
def belongs (j : Nat) : Nat := j / 10

/-- A start with two members; a peer's session ends and is opened anew; the device joins another
fabric, meets a peer there, and is closed. -/
def joinedLife : List (FabricHostLabel Nat Nat) :=
  [.ensureStarted, .resolve 1, .preparedEnds 0 true, .openEnds 0 .noRoster, .createEnds 0 true,
    .checkEnds 0 true, .startEnds 0 true, .membersEnd 0 (some [1, 2]), .startSettles 0,
    .bindEnds 0 true, .bindEnds 1 false, .setRouter, .bindEnds 2 true,
    .resolverGoesOn 0, .connectEnds 0 true, .openSessionEnds 0 (some 10),
    .resolve 1, .resolverGoesOn 1, .stateEnds 1 (some .active),
    .sessionEnds 10, .resolve 1, .resolverGoesOn 2, .stateEnds 2 (some .dead),
    .connectEnds 2 true, .openSessionEnds 2 (some 11), .noteSession 20,
    .join, .preparedEnds 1 true, .joinEnds 1 true, .rootEnds 1 true, .tornDown 1,
    .startEnds 1 true, .peerConnected 3, .bindEnds 3 true,
    .resolve 3, .resolverGoesOn 3, .connectEnds 3 true, .openSessionEnds 3 (some 30),
    .close, .closeEnds 0, .resolve 3]

theorem joinedLife_agrees : ∃ s : FabricHost Nat Nat,
    (fabricHostMachine belongs).run .initial joinedLife = some s
      ∧ s.openers = [⟨.returned, .shut⟩, ⟨.joinOver, .shut⟩]
      ∧ (s.sessions.kernel 10).closed = some .evicted
      ∧ (s.sessions.kernel 11).closed = some .teardown
      ∧ s.HostAgrees belongs := by
  have hrun : ∃ s : FabricHost Nat Nat,
      (fabricHostMachine belongs).runUnder FabricHost.Respects .initial joinedLife = some s
        ∧ (fabricHostMachine belongs).run .initial joinedLife = some s
        ∧ s.openers = [⟨.returned, .shut⟩, ⟨.joinOver, .shut⟩]
        ∧ (s.sessions.kernel 10).closed = some .evicted
        ∧ (s.sessions.kernel 11).closed = some .teardown :=
    ⟨_, rfl, rfl, rfl, rfl, rfl⟩
  obtain ⟨s, hunder, hrun, hopeners, hfirst, hsecond⟩ := hrun
  have hreach : (fabricHostMachine belongs).ReachableUnder FabricHost.Respects s :=
    Machine.reachableUnder_runUnder (.init rfl) hunder
  exact ⟨s, hrun, hopeners, hfirst, hsecond, fabric_host_agrees hreach⟩

/-- A host is closed while `Fabric.open` of its start is pending. -/
def closedInStart : List (FabricHostLabel Nat Nat) :=
  [.ensureStarted, .preparedEnds 0 true, .close, .closeEnds 0, .openEnds 0 .opened, .shutEnds 0,
    .startSettles 0]

/-- **The start's own failure takes the host out of `closed`**: all calls are settled, and the next
`ensureStarted` starts again. -/
theorem failed_after_close : ∃ s : FabricHost Nat Nat,
    (fabricHostMachine belongs).run .initial closedInStart = some s
      ∧ s.closes = [.ended] ∧ s.openers = [⟨.thrown, .shut⟩] ∧ s.status = .failed
      ∧ s.ensureStarted.1.status = .starting ∧ ¬s.HostAgrees belongs := by
  refine ⟨_, rfl, rfl, rfl, rfl, rfl, fun hagrees => ?_⟩
  have hclosed := hagrees.absorbing mem_cons_self
  cases hclosed

end SampleFabricHost

end Dweb
