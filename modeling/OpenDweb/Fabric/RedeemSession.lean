import OpenDweb.Fabric.RedeemTransaction

/-!
# OpenDweb — redeem sessions

Any number of redeem connections to one issuer (`handle_redeem_as_issuer_gated` of
`dweb-fabric/src/session.rs`), which share its roster, its log of consumed invites, the lock
`roster_commit` and the two gates of a shutdown.

* **`issuerMachine`** — the connections at each frame and each lock, and the shutdown.
* **`Sound`** — the invariant: who was granted membership, and with what.
* **`redemption_sound`** — a grant is given only for a valid token and a signed challenge, once for
  each invite, and never after the gate is closed.
-/

namespace Dweb

open List Option
open Function (update update_of_ne update_self)

section

variable [Crypto]

/-! ## Frames of the redeemer -/

/-- The token of a `REDEEM_INTENT` frame. -/
def intentToken (payload : Bytes) : Except InviteError InviteVersion :=
  InviteVersion.decode (String.ofList (fromUtf8Lossy payload))

/-- The signature of a `REDEEM_PROOF` frame of the peer. -/
def proofSignature (peer : EndpointId) (payload : Bytes) : Option Signature :=
  if payload.length ≠ 32 + 64 then none
  else
    match EndpointId.fromBytes (arrayAt payload 0 32) with
    | none => none
    | some redeemer => if redeemer ≠ peer then none else some (arrayAt payload 32 64)

variable {sig : Signature} {i : Nat} {token : InviteVersion} {challenge : BytesN 32}

theorem of_proofSignature {peer : EndpointId} {payload : Bytes}
    (h : proofSignature peer payload = some sig) :
    payload = peer.asBytes.toBytes ++ sig.toBytes := by
  obtain ⟨hlen, h⟩ := ite_none_left_eq_some.mp h
  have hlen : payload.length = 96 := not_not.mp hlen
  split at h
  · cases h
  · next redeemer hkey =>
    obtain ⟨hpeer, h⟩ := ite_none_left_eq_some.mp h
    cases h
    rw [← not_not.mp hpeer, EndpointId.fromBytes_eq_some hkey, toBytes_arrayAt (by omega),
      toBytes_arrayAt (by omega), slice_append_slice (by omega) (by omega)]
    show payload = slice payload 0 96
    rw [← hlen, slice_zero_length]

/-! ## The connections -/

inductive IssuerPhase where
  | entering
  | intent
  | proof (token : InviteVersion) (challenge : BytesN 32)
  | proved (token : InviteVersion) (challenge : BytesN 32) (sig : Signature)
  | committing (token : InviteVersion) (challenge : BytesN 32) (sig : Signature)
  | over

/-- A connection, with the frames that were read and handed over to be sent. -/
structure RedeemConn where
  phase : IssuerPhase
  read : List (UInt8 × Bytes)
  written : List (UInt8 × Bytes)

/-- A fact that a transaction added, for which connection, for which invite and when. -/
structure Redeemed where
  conn : Nat
  inviteId : BytesN 16
  committedAt : UInt64
  fact : SignedFact

structure IssuerState where
  handle : Handle
  /-- Who holds `roster_commit`. -/
  rosterCommit : Option Nat
  shutdownRequested : Bool
  lifecycleGate : Bool
  conns : Nat → RedeemConn
  redeemed : List Redeemed

inductive IssuerLabel where
  | enter (i : Nat)
  /-- The first frame; `challenge` are the random bytes. -/
  | intent (i : Nat) (frame : UInt8 × Bytes) (challenge : BytesN 32)
  | proof (i : Nat) (frame : UInt8 × Bytes)
  /-- `roster_commit` is taken, and the gates are looked at. -/
  | lock (i : Nat)
  | commit (i : Nat) (clock : TransactionClock) (io : TransactionIo)
  | abandon (i : Nat)
  /-- `shutdown_started` is set. -/
  | request
  /-- The gate is closed, under `roster_commit`. -/
  | close

namespace IssuerState

def set (s : IssuerState) (i : Nat) (conn : RedeemConn) : IssuerState :=
  { s with conns := update s.conns i conn }

def addedFact (h h' : Handle) : Option SignedFact :=
  h'.roster.values.find? fun sf => sf ∉ h.roster.values

def answerFrame : Except Silent Flow → List (UInt8 × Bytes)
  | .error _ => []
  | .ok (.emit kind) => [(FrameType.REDEEM_ERR, kind.encodeRecord)]
  | .ok (.receipt frameType payload) => [(frameType, payload)]

def step (issuer : Issuer) (peer : Nat → EndpointId) (s : IssuerState) :
    IssuerLabel → Option IssuerState
  | .enter i =>
    let conn := s.conns i
    match conn.phase with
    | .entering =>
      if s.shutdownRequested || s.lifecycleGate then some (s.set i { conn with phase := .over })
      else some (s.set i { conn with phase := .intent })
    | _ => none
  | .intent i frame challenge =>
    let conn := s.conns i
    match conn.phase with
    | .intent =>
      let conn := { conn with read := conn.read ++ [frame] }
      if frame.1 ≠ FrameType.REDEEM_INTENT then some (s.set i { conn with phase := .over })
      else
        match intentToken frame.2 with
        | .error _ => some (s.set i { conn with phase := .over })
        | .ok token =>
          let written := conn.written ++ [(FrameType.REDEEM_CHALLENGE, challenge.toBytes)]
          some (s.set i { conn with phase := .proof token challenge, written })
    | _ => none
  | .proof i frame =>
    let conn := s.conns i
    match conn.phase with
    | .proof token challenge =>
      let conn := { conn with read := conn.read ++ [frame] }
      if frame.1 ≠ FrameType.REDEEM_PROOF then some (s.set i { conn with phase := .over })
      else
        match proofSignature (peer i) frame.2 with
        | none => some (s.set i { conn with phase := .over })
        | some sig => some (s.set i { conn with phase := .proved token challenge sig })
    | _ => none
  | .lock i =>
    let conn := s.conns i
    match conn.phase with
    | .proved token challenge sig =>
      if s.rosterCommit.isSome then none
      else if s.shutdownRequested || s.lifecycleGate then
        some (s.set i { conn with phase := .over })
      else
        some { s.set i { conn with phase := .committing token challenge sig } with
          rosterCommit := some i }
    | _ => none
  | .commit i clock io =>
    let conn := s.conns i
    match conn.phase with
    | .committing token challenge sig =>
      let (handle, flow) := issuer.transaction s.handle token (peer i) challenge sig clock io
      let redeemed := (addedFact s.handle handle).toList.map fun fact =>
        ({ conn := i, inviteId := token.claims.inviteId, committedAt := clock.verify, fact } : Redeemed)
      let conn := { conn with phase := .over, written := conn.written ++ answerFrame flow }
      some { s.set i conn with
        handle
        rosterCommit := none
        redeemed := redeemed ++ s.redeemed }
    | _ => none
  | .abandon i =>
    let conn := s.conns i
    match conn.phase with
    | .over => none
    | _ =>
      let rosterCommit := if s.rosterCommit = some i then none else s.rosterCommit
      some { s.set i { conn with phase := .over } with rosterCommit }
  | .request => some { s with shutdownRequested := true }
  | .close => if s.rosterCommit.isSome then none else some { s with lifecycleGate := true }

end IssuerState

/-- Connections to an issuer whose roster is `h₀` at first. -/
def issuerMachine (issuer : Issuer) (peer : Nat → EndpointId) (h₀ : Handle) :
    Machine IssuerState IssuerLabel where
  init s := s.handle = h₀ ∧ s.rosterCommit = none ∧ s.shutdownRequested = false
    ∧ s.lifecycleGate = false ∧ (∀ i, s.conns i = ⟨.entering, [], []⟩) ∧ s.redeemed = []
  step := IssuerState.step issuer peer

/-! ## The invariant -/

def Intended (conn : RedeemConn) (token : InviteVersion) (challenge : BytesN 32)
    (more : List (UInt8 × Bytes)) : Prop :=
  ∃ intent, intentToken intent = .ok token ∧ conn.read = (FrameType.REDEEM_INTENT, intent) :: more
    ∧ conn.written.head? = some (FrameType.REDEEM_CHALLENGE, challenge.toBytes)

def Proved (peer : EndpointId) (conn : RedeemConn) (token : InviteVersion)
    (challenge : BytesN 32) (sig : Signature) : Prop :=
  Intended conn token challenge [(FrameType.REDEEM_PROOF, peer.asBytes.toBytes ++ sig.toBytes)]

def RedeemConn.Fine (peer : EndpointId) (conn : RedeemConn) : Prop :=
  match conn.phase with
  | .entering => conn.read = [] ∧ conn.written = []
  | .intent => conn.read = [] ∧ conn.written = []
  | .proof token challenge => Intended conn token challenge []
  | .proved token challenge sig => Proved peer conn token challenge sig
  | .committing token challenge sig => Proved peer conn token challenge sig
  | .over => True

/-- The fact is a grant of the peer, for a token of the root that the connection presented and a
challenge that the peer signed on it. -/
def Redeemed.Earned (peer : EndpointId) (h₀ : Handle) (conn : RedeemConn) (r : Redeemed) : Prop :=
  r.fact.fact.kind = .grant ∧ r.fact.fact.subject = peer
    ∧ ∃ token challenge sig, Proved peer conn token challenge sig
      ∧ token.claims.inviteId = r.inviteId
      ∧ Redeemable h₀.roster token peer challenge sig r.committedAt

structure Sound (peer : Nat → EndpointId) (h₀ : Handle) (s : IssuerState) : Prop where
  root : s.handle.roster.root = h₀.roster.root
  fabric : s.handle.roster.fabricId = h₀.roster.fabricId
  facts : ∀ sf ∈ s.handle.roster.values, sf ∈ h₀.roster.values ∨ ∃ r ∈ s.redeemed, r.fact = sf
  log : ∀ x, Recorded h₀.logBytes x → Recorded s.handle.logBytes x
  spent : ∀ r ∈ s.redeemed, Recorded s.handle.logBytes r.inviteId
  unspent : ∀ r ∈ s.redeemed, ¬Recorded h₀.logBytes r.inviteId
  once : (s.redeemed.map Redeemed.inviteId).Nodup
  earned : ∀ r ∈ s.redeemed, (s.conns r.conn).phase = .over
    ∧ r.Earned (peer r.conn) h₀ (s.conns r.conn)
  conns : ∀ i, (s.conns i).Fine (peer i)
  holder : ∀ i token challenge sig, (s.conns i).phase = .committing token challenge sig →
    s.rosterCommit = some i
  shut : s.lifecycleGate = true → s.rosterCommit = none

variable {issuer : Issuer} {peer : Nat → EndpointId} {h₀ : Handle} {s s' : IssuerState}

variable {conn : RedeemConn} {l : IssuerLabel}

theorem Sound.replace (h : Sound peer h₀ s) {rosterCommit : Option Nat}
    (hlive : (s.conns i).phase ≠ .over) (hfine : conn.Fine (peer i))
    (hholder : ∀ token challenge sig, conn.phase = .committing token challenge sig → rosterCommit = some i)
    (hothers : ∀ j ≠ i, s.rosterCommit = some j → rosterCommit = some j)
    (hshut : s.lifecycleGate = true → rosterCommit = none) :
    Sound peer h₀ { s.set i conn with rosterCommit } where
  root := h.root
  fabric := h.fabric
  facts := h.facts
  log := h.log
  spent := h.spent
  unspent := h.unspent
  once := h.once
  earned r hr := by
    have hne : r.conn ≠ i := by
      intro heq
      exact hlive (heq ▸ (h.earned r hr).1)
    show (update s.conns i conn r.conn).phase = .over
      ∧ r.Earned (peer r.conn) h₀ (update s.conns i conn r.conn)
    rw [update_of_ne hne]
    exact h.earned r hr
  conns j := by
    show (update s.conns i conn j).Fine (peer j)
    by_cases hji : j = i
    · rw [hji, update_self]
      exact hfine
    · rw [update_of_ne hji]
      exact h.conns j
  holder j token challenge sig := by
    show (update s.conns i conn j).phase = _ → rosterCommit = some j
    by_cases hji : j = i
    · rw [hji, update_self]
      exact hholder token challenge sig
    · rw [update_of_ne hji]
      exact fun hphase => hothers j hji (h.holder j token challenge sig hphase)
  shut := hshut

theorem Sound.set (h : Sound peer h₀ s) (hlive : (s.conns i).phase ≠ .over)
    (hfine : conn.Fine (peer i))
    (hnot : ∀ token challenge sig, conn.phase ≠ .committing token challenge sig) :
    Sound peer h₀ (s.set i conn) :=
  h.replace hlive hfine (fun token challenge sig hphase => absurd hphase (hnot token challenge sig))
    (fun _ _ hj => hj) h.shut

/-! ### What a transaction adds -/

theorem addedFact_of_subset {h h' : Handle}
    (hsub : ∀ sf ∈ h'.roster.values, sf ∈ h.roster.values) :
    IssuerState.addedFact h h' = none := by
  refine find?_eq_none.mpr fun sf hmem hnew => ?_
  exact of_decide_eq_true hnew (hsub sf hmem)

theorem addedFact_of_grants {h h' : Handle} {inviteId : BytesN 16} {subject : EndpointId}
    {signed : SignedFact} (hgrants : Issuer.Grants h h' inviteId subject signed) :
    (∀ fact ∈ IssuerState.addedFact h h', fact = signed)
      ∧ ∀ sf ∈ h'.roster.values, sf ∈ h.roster.values
        ∨ IssuerState.addedFact h h' = some sf := by
  have hnew : ∀ sf ∈ h'.roster.values, sf ∉ h.roster.values → sf = signed := by
    intro sf hmem hnot
    obtain ⟨id, hget⟩ := Roster.mem_values.mp hmem
    rw [hgrants.facts, getElem?_facts_insert] at hget
    split at hget
    · exact (some.inj hget).symm
    · exact absurd (Roster.mem_values.mpr ⟨id, hget⟩) hnot
  have hfound : ∀ fact, IssuerState.addedFact h h' = some fact → fact = signed := by
    intro fact hfact
    have hnot := find?_some hfact
    exact hnew fact (mem_of_find?_eq_some hfact) (of_decide_eq_true hnot)
  refine ⟨fun fact hfact => hfound fact hfact, fun sf hmem => ?_⟩
  by_cases hold : sf ∈ h.roster.values
  · exact Or.inl hold
  · have hsome : (IssuerState.addedFact h h').isSome :=
      find?_isSome.mpr ⟨sf, hmem, decide_eq_true hold⟩
    obtain ⟨fact, hfact⟩ := isSome_iff_exists.mp hsome
    rw [hfact, hfound fact hfact, hnew sf hmem hold]
    exact Or.inr rfl

theorem Redeemable.congr {r r' : Roster} {redeemer : EndpointId} {nowMs : UInt64}
    (h : Redeemable r token redeemer challenge sig nowMs) (hroot : r.root = r'.root)
    (hfabric : r.fabricId = r'.fabricId) : Redeemable r' token redeemer challenge sig nowMs where
  fabric := h.fabric.trans hfabric
  root := h.root.trans hroot
  signed := h.signed
  inTime := h.inTime
  bound := h.bound
  possession := hfabric ▸ h.possession

theorem Proved.written {peer : EndpointId} (h : Proved peer conn token challenge sig)
    (phase : IssuerPhase) (more : List (UInt8 × Bytes)) :
    Proved peer { conn with phase, written := conn.written ++ more } token challenge sig := by
  obtain ⟨intent, htoken, hread, hwritten⟩ := h
  refine ⟨intent, htoken, hread, ?_⟩
  show (conn.written ++ more).head? = _
  rw [head?_append, hwritten]
  rfl

theorem Sound.commit (h : Sound peer h₀ s) {clock : TransactionClock} {io : TransactionIo}
    (hphase : (s.conns i).phase = .committing token challenge sig)
    (hstep : s.step issuer peer (.commit i clock io) = some s') : Sound peer h₀ s' := by
  have hproved : Proved (peer i) (s.conns i) token challenge sig := by
    have hfine := h.conns i
    rw [RedeemConn.Fine, hphase] at hfine
    exact hfine
  simp only [IssuerState.step, hphase, some.injEq] at hstep
  have hcases := issuer.transaction_cases s.handle token (peer i) challenge sig clock io
  revert hstep hcases
  generalize issuer.transaction s.handle token (peer i) challenge sig clock io = out
  obtain ⟨handle, flow⟩ := out
  intro hstep hcases
  dsimp only at hstep hcases
  have hlive : (s.conns i).phase ≠ .over := by
    rw [hphase]
    intro hover
    cases hover
  -- the connections, whatever the transaction did
  have hmoved : Sound peer h₀ { s.set i
      { s.conns i with phase := .over, written := (s.conns i).written ++ IssuerState.answerFrame flow }
      with rosterCommit := none } :=
    h.replace hlive trivial (fun _ _ _ hover => by cases hover)
      (fun j hji hj => absurd (some.inj ((h.holder i _ _ _ hphase).symm.trans hj)).symm hji)
      (fun _ => rfl)
  obtain hkeeps | ⟨signed, hredeemable, hgrants⟩ := hcases
  · have hvalues : handle.roster.values = s.handle.roster.values := by
      rw [Roster.values, hkeeps.facts]
      rfl
    have hnone : IssuerState.addedFact s.handle handle = none :=
      addedFact_of_subset fun sf hmem => hvalues ▸ hmem
    rw [hnone] at hstep
    subst hstep
    exact
      { hmoved with
        root := hkeeps.root.trans h.root
        fabric := hkeeps.fabric.trans h.fabric
        facts := fun sf hmem => h.facts sf (hvalues ▸ hmem)
        log := fun x hx => hkeeps.log x (h.log x hx)
        spent := fun r hr => hkeeps.log _ (h.spent r hr) }
  · obtain ⟨hsubset, hfound⟩ := addedFact_of_grants hgrants
    generalize IssuerState.addedFact s.handle handle = added at hstep hsubset hfound
    subst hstep
    have hunspent : ¬Recorded h₀.logBytes token.claims.inviteId :=
      fun hrec => hgrants.unspent (h.log _ hrec)
    -- what the connection showed, it showed for the root and the fabric of the beginning
    have hearned : ∀ r : Redeemed, r.conn = i → r.inviteId = token.claims.inviteId →
        r.committedAt = clock.verify → r.fact = signed →
        r.Earned (peer i) h₀ { s.conns i with
          phase := .over, written := (s.conns i).written ++ IssuerState.answerFrame flow } := by
      intro r _ hid hat hfact
      refine ⟨hfact ▸ hgrants.kind, hfact ▸ hgrants.subject, token, challenge, sig,
        hproved.written _ _, hid.symm, ?_⟩
      rw [hat]
      exact hredeemable.congr h.root h.fabric
    cases added with
    | none =>
      exact
        { hmoved with
          root := hgrants.root.trans h.root
          fabric := hgrants.fabric.trans h.fabric
          facts := fun sf hmem =>
            h.facts sf ((hfound sf hmem).resolve_right (by intro hadded; cases hadded))
          log := fun x hx => hgrants.log x (h.log x hx)
          spent := fun r hr => hgrants.log _ (h.spent r hr) }
    | some fact =>
      have hfact : fact = signed := hsubset fact rfl
      subst hfact
      exact
        { hmoved with
          root := hgrants.root.trans h.root
          fabric := hgrants.fabric.trans h.fabric
          log := fun x hx => hgrants.log x (h.log x hx)
          facts := fun sf hmem => by
            obtain hold | hnew := hfound sf hmem
            · obtain hfirst | ⟨r, hr, hrfact⟩ := h.facts sf hold
              · exact Or.inl hfirst
              · exact Or.inr ⟨r, mem_cons_of_mem _ hr, hrfact⟩
            · exact Or.inr ⟨_, mem_cons_self, some.inj hnew⟩
          spent := forall_mem_cons.mpr
            ⟨hgrants.spent, fun r hr => hgrants.log _ (h.spent r hr)⟩
          unspent := forall_mem_cons.mpr ⟨hunspent, h.unspent⟩
          once := by
            -- a redemption of before is recorded, and this invite was not
            refine nodup_cons.mpr ⟨fun hmem => ?_, h.once⟩
            obtain ⟨r, hr, hid⟩ := List.mem_map.mp hmem
            have hrec := h.spent r hr
            rw [hid] at hrec
            exact hgrants.unspent hrec
          earned := forall_mem_cons.mpr ⟨by
            show (update s.conns i _ i).phase = .over
              ∧ Redeemed.Earned (peer i) h₀ (update s.conns i _ i) _
            rw [update_self]
            exact ⟨rfl, hearned _ rfl rfl rfl rfl⟩, hmoved.earned⟩ }

/-- **The step lemma.** -/
theorem Sound.step (h : Sound peer h₀ s) (hstep : s.step issuer peer l = some s') :
    Sound peer h₀ s' := by
  cases l with
  | enter i =>
    simp only [IssuerState.step] at hstep
    split at hstep
    · next hphase =>
      have hfine := h.conns i
      rw [RedeemConn.Fine, hphase] at hfine
      have hlive : (s.conns i).phase ≠ .over := by rw [hphase]; nofun
      split at hstep
      · cases hstep
        exact h.set hlive trivial nofun
      · cases hstep
        exact h.set hlive hfine nofun
    · cases hstep
  | intent i frame challenge =>
    simp only [IssuerState.step] at hstep
    split at hstep
    · next hphase =>
      have hfine := h.conns i
      rw [RedeemConn.Fine, hphase] at hfine
      have hlive : (s.conns i).phase ≠ .over := by rw [hphase]; nofun
      split at hstep
      · cases hstep
        exact h.set hlive trivial nofun
      · next htype =>
        split at hstep
        · cases hstep
          exact h.set hlive trivial nofun
        · next token htoken =>
          cases hstep
          refine h.set hlive ?_ nofun
          -- both directions of the stream were empty before
          refine ⟨frame.2, htoken, ?_, ?_⟩
          · show (s.conns i).read ++ [frame] = _
            rw [hfine.1, ← not_not.mp htype]
            rfl
          · show ((s.conns i).written ++ _).head? = _
            rw [hfine.2]
            rfl
    · cases hstep
  | proof i frame =>
    simp only [IssuerState.step] at hstep
    split at hstep
    · next token challenge hphase =>
      have hfine := h.conns i
      rw [RedeemConn.Fine, hphase] at hfine
      have hlive : (s.conns i).phase ≠ .over := by rw [hphase]; nofun
      split at hstep
      · cases hstep
        exact h.set hlive trivial nofun
      · next htype =>
        split at hstep
        · cases hstep
          exact h.set hlive trivial nofun
        · next sig hsig =>
          cases hstep
          refine h.set hlive ?_ nofun
          obtain ⟨intent, htoken, hread, hwritten⟩ := hfine
          refine ⟨intent, htoken, ?_, hwritten⟩
          show (s.conns i).read ++ [frame] = _
          rw [hread, ← of_proofSignature hsig, ← not_not.mp htype]
          rfl
    · cases hstep
  | lock i =>
    simp only [IssuerState.step] at hstep
    split at hstep
    · next token challenge sig hphase =>
      have hfine := h.conns i
      rw [RedeemConn.Fine, hphase] at hfine
      have hlive : (s.conns i).phase ≠ .over := by rw [hphase]; nofun
      obtain ⟨hfree, hstep⟩ := ite_none_left_eq_some.mp hstep
      have hfree : s.rosterCommit = none := by simpa using hfree
      split at hstep
      · cases hstep
        exact h.set hlive trivial nofun
      · next hopen =>
        cases hstep
        refine h.replace hlive hfine (fun _ _ _ _ => rfl) ?_ fun hshut => ?_
        · intro j _ hj
          rw [hfree] at hj
          cases hj
        · rw [hshut, Bool.or_true] at hopen
          exact absurd rfl hopen
    · cases hstep
  | commit i clock io =>
    cases hphase : (s.conns i).phase with
    | committing token challenge sig => exact h.commit hphase hstep
    | _ => simp only [IssuerState.step, hphase, reduceCtorEq] at hstep
  | abandon i =>
    simp only [IssuerState.step] at hstep
    split at hstep
    · cases hstep
    · next hlive =>
      cases hstep
      refine h.replace hlive trivial nofun ?_ fun hshut => ?_
      · intro j hji hj
        rw [hj, if_neg]
        exact fun heq => hji (some.inj heq)
      · rw [h.shut hshut]
        rfl
  | request =>
    cases hstep
    exact { h with }
  | close =>
    obtain ⟨hfree, hstep⟩ := ite_none_left_eq_some.mp hstep
    cases hstep
    have hfree : s.rosterCommit = none := by simpa using hfree
    exact { h with shut := fun _ => hfree }

theorem Sound.init (hinit : (issuerMachine issuer peer h₀).init s) : Sound peer h₀ s := by
  obtain ⟨hhandle, hfree, -, hopen, hconns, hredeemed⟩ := hinit
  subst hhandle
  constructor
  · rfl
  · rfl
  · exact fun sf hmem => Or.inl hmem
  · exact fun x hx => hx
  · rw [hredeemed]
    exact fun r hr => absurd hr not_mem_nil
  · rw [hredeemed]
    exact fun r hr => absurd hr not_mem_nil
  · rw [hredeemed]
    exact nodup_nil
  · rw [hredeemed]
    exact fun r hr => absurd hr not_mem_nil
  · intro i
    rw [hconns i]
    exact ⟨rfl, rfl⟩
  · intro i token challenge sig hphase
    rw [hconns i] at hphase
    cases hphase
  · rw [hopen]
    exact fun h => absurd h Bool.false_ne_true

theorem sound_of_reachable (hreach : (issuerMachine issuer peer h₀).Reachable s) :
    Sound peer h₀ s :=
  hreach.invariant (fun _ hinit => Sound.init hinit) fun _ _ _ hsound _ hstep => hsound.step hstep

/-! ## The gates -/

theorem roster_of_not_committing (hstep : s.step issuer peer l = some s')
    (hnone : ∀ i token challenge sig, (s.conns i).phase ≠ .committing token challenge sig) :
    s'.handle = s.handle ∧ s'.redeemed = s.redeemed := by
  cases l with
  | request =>
    cases hstep
    exact ⟨rfl, rfl⟩
  | commit i clock io =>
    simp only [IssuerState.step] at hstep
    split at hstep
    · next token challenge sig hphase => exact absurd hphase (hnone i token challenge sig)
    · cases hstep
  | _ =>
    -- every branch that is taken writes a connection, a gate or the lock
    simp only [IssuerState.step] at hstep
    repeat' split at hstep
    all_goals first
      | cases hstep
        done
      | cases hstep
        exact ⟨rfl, rfl⟩

theorem not_committing_of_requested (hstep : s.step issuer peer l = some s')
    (hrequested : s.shutdownRequested = true)
    (hphase : (s'.conns i).phase = .committing token challenge sig) :
    (s.conns i).phase = .committing token challenge sig := by
  -- a connection that a step sets to another phase
  have hset : ∀ {j : Nat} {conn : RedeemConn},
      (update s.conns j conn i).phase = .committing token challenge sig →
      (∀ token challenge sig, conn.phase ≠ .committing token challenge sig) →
      (s.conns i).phase = .committing token challenge sig := by
    intro j conn hupdate hnot
    by_cases hij : i = j
    · rw [hij, update_self] at hupdate
      exact absurd hupdate (hnot _ _ _)
    · rwa [update_of_ne hij] at hupdate
  cases l with
  | request =>
    cases hstep
    exact hphase
  | lock j =>
    simp only [IssuerState.step, hrequested, Bool.true_or, if_true] at hstep
    repeat' split at hstep
    all_goals first
      | cases hstep
        done
      | cases hstep
        exact hset hphase nofun
  | _ =>
    simp only [IssuerState.step] at hstep
    repeat' split at hstep
    all_goals first
      | cases hstep
        done
      | cases hstep
        exact hphase
      | cases hstep
        exact hset hphase nofun

/-! ## Redemption soundness -/

/-- **Redemption soundness.** In every run of any number of connections, whatever frames the peers
send: each fact of the roster is of the beginning or was added by a redemption; a redemption is a
grant of the authenticated peer of a connection that presented a token of the root for this fabric,
in time and for this peer, and a signature of that connection's challenge; its invite was not
consumed at the beginning, and no two redemptions are of one invite. After the gate is closed the
roster does not change, and after the request of a shutdown no transaction begins. -/
theorem redemption_sound (hreach : (issuerMachine issuer peer h₀).Reachable s) :
    (∀ sf ∈ s.handle.roster.values, sf ∈ h₀.roster.values ∨ ∃ r ∈ s.redeemed, r.fact = sf)
      ∧ (∀ r ∈ s.redeemed, r.Earned (peer r.conn) h₀ (s.conns r.conn)
        ∧ ¬Recorded h₀.logBytes r.inviteId)
      ∧ (s.redeemed.map Redeemed.inviteId).Nodup
      ∧ ∀ l s', s.step issuer peer l = some s' →
        (s.lifecycleGate = true →
          s'.handle.roster = s.handle.roster ∧ s'.redeemed = s.redeemed)
        ∧ (s.shutdownRequested = true → ∀ i token challenge sig,
          (s'.conns i).phase = .committing token challenge sig →
          (s.conns i).phase = .committing token challenge sig) := by
  have hsound := sound_of_reachable hreach
  refine ⟨hsound.facts, fun r hr => ⟨(hsound.earned r hr).2, hsound.unspent r hr⟩, hsound.once, ?_⟩
  intro l s' hstep
  refine ⟨fun hshut => ?_, fun hrequested i token challenge sig hphase =>
    not_committing_of_requested hstep hrequested hphase⟩
  -- nobody holds the lock, so nobody is in a transaction
  obtain ⟨hhandle, hredeemed⟩ := roster_of_not_committing hstep fun i token challenge sig hphase => by
    have hheld := hsound.holder i token challenge sig hphase
    rw [hsound.shut hshut] at hheld
    cases hheld
  exact ⟨by rw [hhandle], hredeemed⟩


theorem step_intent (hphase : (s.conns i).phase = .intent) {payload : Bytes}
    (htoken : intentToken payload = .ok token) (challenge : BytesN 32) :
    s.step issuer peer (.intent i (FrameType.REDEEM_INTENT, payload) challenge)
      = some (s.set i ⟨.proof token challenge,
        (s.conns i).read ++ [(FrameType.REDEEM_INTENT, payload)],
        (s.conns i).written ++ [(FrameType.REDEEM_CHALLENGE, challenge.toBytes)]⟩) := by
  simp only [IssuerState.step, hphase, htoken, ne_eq, not_true_eq_false, if_false]

theorem intentToken_text {token : InviteV2Token} (hcanon : token.invite.Canonical)
    (hcarried : token.invite.Carried) (hverified : token.Verified) :
    intentToken (utf8Bytes token.text) = .ok (.v2 token) := by
  have htext : token.text = TOKEN2_PREFIX
      ++ base64Encode (token.invite.layout ++ token.signature.toBytes) := rfl
  have hdecode := InviteV2Token.decode_eq_ok.mpr ⟨⟨hcanon, hcarried⟩, hverified, rfl⟩
  rw [intentToken, utf8Bytes, fromUtf8Lossy_toUTF8, String.ofList_toList, InviteVersion.decode,
    htext, stripPrefix_eq_some.mpr rfl, ← htext, hdecode]
  rfl

end

namespace SampleRedeem

attribute [local instance] crypto

def connected : IssuerState := ⟨created, none, false, false, fun _ => ⟨.entering, [], []⟩, []⟩

def intentPayload : Bytes := utf8Bytes invite.text

def proofFrame : UInt8 × Bytes :=
  (FrameType.REDEEM_PROOF, member.endpointId.asBytes.toBytes ++ popSignature.toBytes)

def challenged : IssuerState :=
  connected.set 0 ⟨.proof (.v2 invite) challenge,
    [(FrameType.REDEEM_INTENT, intentPayload)],
    [(FrameType.REDEEM_CHALLENGE, challenge.toBytes)]⟩

def connections : Machine IssuerState IssuerLabel :=
  issuerMachine issuer (fun _ => member.endpointId) created

theorem challenged_reachable : connections.Reachable challenged := by
  have hinit : connections.init connected := ⟨rfl, rfl, rfl, rfl, fun _ => rfl, rfl⟩
  have hentered : connections.step connected (.enter 0)
      = some (connected.set 0 ⟨.intent, [], []⟩) := rfl
  have hcarried : invite.invite.Carried := fun addr hmem => absurd hmem not_mem_nil
  have htoken : intentToken intentPayload = .ok (.v2 invite) :=
    intentToken_text canonical_invite hcarried verified_invite
  have hset : (connected.set 0 ⟨.intent, [], []⟩).set 0 ⟨.proof (.v2 invite) challenge,
      [(FrameType.REDEEM_INTENT, intentPayload)],
      [(FrameType.REDEEM_CHALLENGE, challenge.toBytes)]⟩ = challenged := by
    rw [IssuerState.set, IssuerState.set, Function.update_idem]
    rfl
  have hchallenged : connections.step (connected.set 0 ⟨.intent, [], []⟩)
      (.intent 0 (FrameType.REDEEM_INTENT, intentPayload) challenge) = some challenged := by
    have hphase : ((connected.set 0 ⟨.intent, [], []⟩).conns 0).phase = .intent := rfl
    rw [← hset, connections, issuerMachine]
    dsimp only
    rw [step_intent hphase htoken challenge]
    rfl
  exact .step (.step (.init hinit) trivial hentered) trivial hchallenged

theorem redemption_sound_granted :
    ∃ s, connections.Reachable s
      ∧ s.redeemed.map Redeemed.inviteId = [inviteId]
      ∧ (∀ sf ∈ s.handle.roster.values,
        sf ∈ created.roster.values ∨ ∃ r ∈ s.redeemed, r.fact = sf)
      ∧ ∀ r ∈ s.redeemed, r.Earned member.endpointId created (s.conns r.conn) := by
  have hrun : ((connections.run challenged [.proof 0 proofFrame, .lock 0,
      .commit 0 clock ⟨.done, .done⟩]).map fun s => s.redeemed.map Redeemed.inviteId)
      = some [inviteId] := by decide +kernel
  obtain ⟨s, hs, hredeemed⟩ := map_eq_some_iff.mp hrun
  have hreach : connections.Reachable s :=
    Machine.reachableUnder_run challenged_reachable (fun _ _ _ => trivial) hs
  obtain ⟨hfacts, hearned, -, -⟩ := redemption_sound hreach
  exact ⟨s, hreach, hredeemed, hfacts, fun r hr => (hearned r hr).1⟩

end SampleRedeem

end Dweb
