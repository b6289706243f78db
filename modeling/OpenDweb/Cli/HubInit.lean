import OpenDweb.Lib.Keys

/-!
# OpenDweb — `hub init` (`opendweb/src/hub.mjs`)

`hubInit` writes the hub token early and `hub.json` last. Everything else it calls may throw or
answers as it likes: `InitWorld` has an outcome for each of these calls.

* **`initPlan`** — everything up to the confirmation, which writes nothing.
* **`initChecks`** — what stands between the token and `hub.json`: the self-check, the card and
  the question about autostart. Only the exit code of the self-check is followed by a clean-up.
* **`hub_init_no_residue_iff`** — when exactly a call leaves a complete hub or none.
-/

namespace Dweb

/-- The options that `parseInitArgs` reads. -/
structure InitArgs where
  dataDir : Option String := none
  gateway : Option String := none
  relay : Option String := none
  publicGateway : Option String := none
  publicRelay : Option String := none
  yes : Bool := false

/-- `hub.json`, of version 1. -/
structure HubState where
  dataDir : String
  gatewayBind : String
  relayBind : String
  publicGatewayUrl : Option String
  publicRelayUrl : Option String
  configPath : Option String
  initializedAt : String
  autostart : Bool
deriving DecidableEq

inductive HubJson where
  | absent
  /-- There is something that `loadHubState` refuses. -/
  | invalid
  | state (s : HubState)
deriving DecidableEq

/-- The two files of the hub home that `hubInit` writes. -/
structure HubHome where
  hubJson : HubJson
  token : Option String
deriving DecidableEq

inductive InitPrompt where
  | takeOver
  | becomeHub
  | autostart

inductive InitPrint where
  | alreadyHub
  | oldServer
  | cancelled
  | tokenSaved
  | occupied
  | firewall
  | checked
  | takenOver
  | card
  | autostartOn

inductive FirewallState where
  | enabled
  | disabled
  | unknown
deriving DecidableEq

/-- What the calls of `hubInit` come to. -/
structure InitWorld (ε : Type) where
  parseInitArgs : Except ε InitArgs
  invalidState : ε
  stateDisappeared : ε
  /-- Whether the `n`-th read of `hub.json` fails. -/
  readState : Nat → Except ε Unit
  saveState : Nat → Except ε Unit
  validateBind : String → String → Except ε Unit
  normalizeOrThrow : String → String → Except ε String
  resolve : String → String
  cwdData : String
  homeData : String
  hasServerData : String → Bool
  discoverInitConfig : Option String
  probeRunningOldServer : Except ε Bool
  confirm : InitPrompt → Except ε Bool
  stdout : InitPrint → Except ε Unit
  isTTY : Bool
  writeHubToken : Except ε String
  removeToken : Except ε Unit
  isBindOccupied : String → Except ε Bool
  firewallState : Except ε FirewallState
  lanAddresses : Except ε (List String)
  printHubCard : Except ε Unit
  now : Except ε String
  installAutostartService : Except ε Unit

/-- What a call has found out when it begins to write. -/
structure InitPlan where
  args : InitArgs
  gatewayBind : String
  relayBind : String
  publicGateway : Option String
  publicRelay : Option String
  dataDir : String
  takeover : Bool

variable {ε : Type} (w : InitWorld ε)

/-- `loadHubState`, the `n`-th time. -/
def loadHubState (n : Nat) (home : HubHome) : Except ε (Option HubState) := do
  w.readState n
  match home.hubJson with
  | .absent => return none
  | .invalid => throw w.invalidState
  | .state s => return some s

def loadHubStateOrThrow (n : Nat) (home : HubHome) : Except ε HubState := do
  match ← loadHubState w n home with
  | none => throw w.stateDisappeared
  | some s => return s

def askConfirm (yes : Bool) (prompt : InitPrompt) : Except ε Bool :=
  if yes then return true else w.confirm prompt

/-- `hubInit` up to the confirmation: an exit code, or what it goes on with. -/
def initPlan (home : HubHome) : Except ε (Nat ⊕ InitPlan) := do
  let args ← w.parseInitArgs
  if (← loadHubState w 0 home).isSome then
    w.stdout .alreadyHub
    return .inl 0
  let gatewayBind := args.gateway.getD "0.0.0.0:8787"
  let relayBind := args.relay.getD "0.0.0.0:3340"
  w.validateBind gatewayBind "--gateway"
  w.validateBind relayBind "--relay"
  let publicGateway ← args.publicGateway.mapM (w.normalizeOrThrow · "--public-gateway")
  let publicRelay ← args.publicRelay.mapM (w.normalizeOrThrow · "--public-relay")
  let dataDir := match args.dataDir with
    | some dir => w.resolve dir
    | none => if w.hasServerData w.cwdData then w.cwdData else w.homeData
  let takeover := w.hasServerData dataDir
  if takeover then
    if ← w.probeRunningOldServer then
      w.stdout .oldServer
      return .inl 1
    if !(← askConfirm w args.yes .takeOver) then
      w.stdout .cancelled
      return .inl 1
  if !(← askConfirm w args.yes .becomeHub) then
    w.stdout .cancelled
    return .inl 1
  return .inr { args, gatewayBind, relayBind, publicGateway, publicRelay, dataDir, takeover }

def runInitSelfCheck (plan : InitPlan) : Except ε Nat := do
  for bind in [plan.gatewayBind, plan.relayBind] do
    if ← w.isBindOccupied bind then
      w.stdout .occupied
      return 1
  if (← w.firewallState) = .enabled then
    w.stdout .firewall
  let _ ← w.lanAddresses
  w.stdout .checked
  return 0

/-- Between the token and `hub.json`: a failed self-check, or whether autostart is wanted. -/
def initChecks (plan : InitPlan) : Except ε (Nat ⊕ Bool) := do
  w.stdout .tokenSaved
  let exitCode ← runInitSelfCheck w plan
  if exitCode ≠ 0 then
    return .inl exitCode
  if plan.takeover then
    w.stdout .takenOver
  w.printHubCard
  if w.isTTY then
    return .inr (← askConfirm w false .autostart)
  return .inr false

def initState (plan : InitPlan) : Except ε HubState := do
  return { dataDir := plan.dataDir, gatewayBind := plan.gatewayBind, relayBind := plan.relayBind,
           publicGatewayUrl := plan.publicGateway, publicRelayUrl := plan.publicRelay,
           configPath := w.discoverInitConfig, initializedAt := ← w.now, autostart := false }

/-- `saveHubState`, the `n`-th time. -/
def saveHubState (n : Nat) (home : HubHome) (s : HubState) : Except ε Unit × HubHome :=
  match w.saveState n with
  | .error e => (.error e, home)
  | .ok () => (.ok (), { home with hubJson := .state s })

/-- The `catch` of the autostart block. -/
def rollbackAutostart (home : HubHome) (e : ε) : Except ε Nat × HubHome :=
  match loadHubStateOrThrow w 2 home with
  | .error e' => (.error e', home)
  | .ok s =>
    match saveHubState w 2 home { s with autostart := false } with
    | (.error e', home) => (.error e', home)
    | (.ok (), home) => (.error e, home)

def enableAutostart (home : HubHome) : Except ε Nat × HubHome :=
  match w.installAutostartService with
  | .error e => rollbackAutostart w home e
  | .ok () =>
    match loadHubStateOrThrow w 1 home with
    | .error e => rollbackAutostart w home e
    | .ok s =>
      match saveHubState w 1 home { s with autostart := true } with
      | (.error e, home) => rollbackAutostart w home e
      | (.ok (), home) =>
        match w.stdout .autostartOn with
        | .error e => rollbackAutostart w home e
        | .ok () => (.ok 0, home)

/-- `hubInit`: what it returns or throws, and the hub home it leaves. -/
def hubInit (home : HubHome) : Except ε Nat × HubHome :=
  match initPlan w home with
  | .error e => (.error e, home)
  | .ok (.inl code) => (.ok code, home)
  | .ok (.inr plan) =>
    match w.writeHubToken with
    | .error e => (.error e, home)
    | .ok token =>
      let home := { home with token := some token }
      match initChecks w plan with
      | .error e => (.error e, home)
      | .ok (.inl exitCode) =>
        match w.removeToken with
        | .error e => (.error e, home)
        | .ok () => (.ok exitCode, { home with token := none })
      | .ok (.inr autostartWanted) =>
        match initState w plan with
        | .error e => (.error e, home)
        | .ok s =>
          match saveHubState w 0 home s with
          | (.error e, home) => (.error e, home)
          | (.ok (), home) => if autostartWanted then enableAutostart w home else (.ok 0, home)

/-! ## What a call leaves -/

/-- A complete `hub.json` with the token, or neither of them. -/
def HubHome.Whole (home : HubHome) : Prop :=
  match home.hubJson with
  | .state _ => home.token.isSome = true
  | .absent => home.token = none
  | .invalid => False

/-- The call leaves a hub or none, and a failed installation of the autostart leaves the hub with
autostart off. -/
structure NoResidue (home : HubHome) : Prop where
  whole : (hubInit w home).2.Whole
  install : ∀ plan token s e, initPlan w home = .ok (.inr plan) → w.writeHubToken = .ok token →
    initChecks w plan = .ok (.inr true) → initState w plan = .ok s → w.saveState 0 = .ok () →
    w.installAutostartService = .error e →
    (hubInit w home).2 = { hubJson := .state { s with autostart := false }, token := some token }

/-- Once the token is written nothing throws before `hub.json` is saved, and a self-check that
fails is followed by a removal that does not; a call that does not write the token found the home
whole. -/
def CleansUp (home : HubHome) : Prop :=
  match initPlan w home, w.writeHubToken with
  | .ok (.inr plan), .ok _ =>
    match initChecks w plan with
    | .error _ => False
    | .ok (.inl _) => w.removeToken.isOk = true
    | .ok (.inr _) => (initState w plan).isOk = true ∧ (w.saveState 0).isOk = true
  | _, _ => home.Whole

variable {w} {home : HubHome}

variable {plan : InitPlan} {s : HubState}

/-- A call that goes on to write has found no `hub.json`. -/
theorem hubJson_of_initPlan (h : initPlan w home = .ok (.inr plan)) : home.hubJson = .absent := by
  have hload : ∃ args, w.parseInitArgs = .ok args := by
    cases hparse : w.parseInitArgs with
    | ok args => exact ⟨args, rfl⟩
    | error e =>
      rw [initPlan, hparse] at h
      cases h
  obtain ⟨args, hargs⟩ := hload
  rw [initPlan, hargs] at h
  cases hread : w.readState 0 with
  | error e =>
    simp only [loadHubState, hread, bind, Except.bind] at h
    cases h
  | ok _ =>
    cases hjson : home.hubJson with
    | absent => rfl
    | invalid =>
      simp only [loadHubState, hread, hjson, bind, Except.bind, throw, throwThe,
        MonadExceptOf.throw] at h
      cases h
    | state s =>
      simp only [loadHubState, hread, hjson, bind, Except.bind, pure, Except.pure,
        Option.isSome_some, if_true] at h
      cases hprint : w.stdout .alreadyHub with
      | error e =>
        rw [hprint] at h
        cases h
      | ok _ =>
        rw [hprint] at h
        cases h

theorem initState_autostart (h : initState w plan = .ok s) : s.autostart = false := by
  unfold initState at h
  cases hnow : w.now with
  | error e =>
    rw [hnow] at h
    cases h
  | ok now =>
    rw [hnow] at h
    cases h
    rfl

theorem loadHubStateOrThrow_state (n : Nat) (s : HubState) (token : Option String) :
    loadHubStateOrThrow w n { hubJson := .state s, token }
      = (w.readState n).map fun _ => s := by
  unfold loadHubStateOrThrow loadHubState
  cases hread : w.readState n <;> rfl

/-- The roll-back leaves the home as it is, or turns autostart off. -/
theorem rollbackAutostart_home (s : HubState) (token : Option String) (e : ε) :
    ∃ on, (on = true → s.autostart = true)
      ∧ (rollbackAutostart w { hubJson := .state s, token } e).2
        = { hubJson := .state { s with autostart := on }, token } := by
  unfold rollbackAutostart saveHubState
  rw [loadHubStateOrThrow_state]
  cases hread : w.readState 2 with
  | error e' => exact ⟨s.autostart, id, rfl⟩
  | ok _ =>
    cases hsave : w.saveState 2 with
    | error e' => exact ⟨s.autostart, id, rfl⟩
    | ok _ => exact ⟨false, nofun, rfl⟩

/-- The autostart block leaves a complete hub; autostart is off unless it was installed. -/
theorem enableAutostart_home (hoff : s.autostart = false) (token : Option String) :
    ∃ on, (on = true → w.installAutostartService.isOk = true)
      ∧ (enableAutostart w { hubJson := .state s, token }).2
        = { hubJson := .state { s with autostart := on }, token } := by
  have hback : ∀ e, (rollbackAutostart w { hubJson := .state s, token } e).2
      = { hubJson := .state { s with autostart := false }, token } := fun e => by
    obtain ⟨on, hon, hhome⟩ := rollbackAutostart_home (w := w) s token e
    cases on with
    | true => cases (hon rfl).symm.trans hoff
    | false => exact hhome
  unfold enableAutostart saveHubState
  cases hinstall : w.installAutostartService with
  | error e => exact ⟨false, nofun, hback e⟩
  | ok _ =>
    rw [loadHubStateOrThrow_state]
    cases hread : w.readState 1 with
    | error e => exact ⟨false, nofun, hback e⟩
    | ok _ =>
      cases hsave : w.saveState 1 with
      | error e => exact ⟨false, nofun, hback e⟩
      | ok _ =>
        cases hprint : w.stdout .autostartOn with
        | error e =>
          obtain ⟨on, -, hhome⟩ :=
            rollbackAutostart_home (w := w) { s with autostart := true } token e
          exact ⟨on, fun _ => rfl, hhome⟩
        | ok _ => exact ⟨true, fun _ => rfl, rfl⟩

/-- From the moment `hub.json` is saved the hub is complete. -/
theorem hubInit_saved {token : String} {wanted : Bool} (hplan : initPlan w home = .ok (.inr plan))
    (htoken : w.writeHubToken = .ok token) (hchecks : initChecks w plan = .ok (.inr wanted))
    (hstate : initState w plan = .ok s) (hsave : w.saveState 0 = .ok ()) :
    ∃ on, (on = true → w.installAutostartService.isOk = true)
      ∧ (hubInit w home).2
        = { hubJson := .state { s with autostart := on }, token := some token } := by
  have hoff := initState_autostart hstate
  simp only [hubInit, hplan, htoken, hchecks, hstate, saveHubState, hsave]
  cases wanted with
  | true => exact enableAutostart_home hoff (some token)
  | false =>
    refine ⟨false, nofun, ?_⟩
    rw [if_neg Bool.false_ne_true, ← hoff]

/-- **A call of `hub init` leaves a hub or nothing** if and only if it gets from the token to
`hub.json` without a throw, or to a removal of the token that works. -/
theorem hub_init_no_residue_iff (w : InitWorld ε) (home : HubHome) :
    NoResidue w home ↔ CleansUp w home := by
  suffices h : (hubInit w home).2.Whole ↔ CleansUp w home from
    ⟨fun hno => h.mp hno.whole, fun hclean => ⟨h.mpr hclean,
      fun plan token s e hplan htoken hchecks hstate hsave hinstall => by
        obtain ⟨on, hon, hhome⟩ := hubInit_saved hplan htoken hchecks hstate hsave
        cases on with
        | true => rw [hinstall] at hon; cases hon rfl
        | false => exact hhome⟩⟩
  unfold CleansUp
  cases hplan : initPlan w home with
  | error e => simp only [hubInit, hplan]
  | ok planned =>
    cases planned with
    | inl code => simp only [hubInit, hplan]
    | inr plan =>
      have habsent := hubJson_of_initPlan hplan
      cases htoken : w.writeHubToken with
      | error e => simp only [hubInit, hplan, htoken]
      | ok token =>
        -- the token alone is a residue
        have hresidue : ¬({ home with token := some token } : HubHome).Whole := by
          simp [HubHome.Whole, habsent]
        cases hchecks : initChecks w plan with
        | error e => simpa only [hubInit, hplan, htoken, hchecks, iff_false] using hresidue
        | ok checked =>
          cases checked with
          | inl exitCode =>
            cases hremove : w.removeToken with
            | error e =>
              simpa [hubInit, hplan, htoken, hchecks, hremove, Except.isOk, Except.toBool]
                using hresidue
            | ok _ =>
              simp [hubInit, hplan, htoken, hchecks, hremove, Except.isOk, Except.toBool,
                HubHome.Whole, habsent]
          | inr wanted =>
            cases hstate : initState w plan with
            | error e =>
              simpa [hubInit, hplan, htoken, hchecks, hstate, Except.isOk, Except.toBool]
                using hresidue
            | ok s =>
              cases hsave : w.saveState 0 with
              | error e =>
                simpa [hubInit, hplan, htoken, hchecks, hstate, saveHubState, hsave, Except.isOk,
                  Except.toBool] using hresidue
              | ok _ =>
                obtain ⟨on, -, hhome⟩ := hubInit_saved hplan htoken hchecks hstate hsave
                rw [hhome]
                refine iff_of_true rfl ?_
                simp only [hchecks, hstate]
                exact ⟨rfl, rfl⟩

/-- The terminal goes away during the question about autostart. -/
def interrupted : InitWorld String where
  parseInitArgs := .ok {}
  invalidState := "invalid hub state file"
  stateDisappeared := "hub state disappeared unexpectedly"
  readState _ := .ok ()
  saveState _ := .ok ()
  validateBind _ _ := .ok ()
  normalizeOrThrow url _ := .ok url
  resolve dir := dir
  cwdData := "/work/dweb-data"
  homeData := "/home/.dweb/hub-data"
  hasServerData _ := false
  discoverInitConfig := none
  probeRunningOldServer := .ok false
  confirm
    | .autostart => .error "aborted"
    | _ => .ok true
  stdout _ := .ok ()
  isTTY := true
  writeHubToken := .ok "token"
  removeToken := .ok ()
  isBindOccupied _ := .ok false
  firewallState := .ok .unknown
  lanAddresses := .ok ["192.168.1.2"]
  printHubCard := .ok ()
  now := .ok "2025-01-01T00:00:00.000Z"
  installAutostartService := .ok ()

theorem interrupted_leaves_token :
    (hubInit interrupted { hubJson := .absent, token := none }).2
        = { hubJson := .absent, token := some "token" }
      ∧ ¬NoResidue interrupted { hubJson := .absent, token := none } := by
  have hhome : (hubInit interrupted { hubJson := .absent, token := none }).2
      = { hubJson := .absent, token := some "token" } := rfl
  refine ⟨hhome, fun h => ?_⟩
  have hwhole := h.whole
  rw [hhome] at hwhole
  cases hwhole

end Dweb
