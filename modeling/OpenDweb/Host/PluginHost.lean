import OpenDweb.Lib.Machine

/-!
# OpenDweb — the plugin host: one plugin's life

A plugin is known in three places: the ledger on disk, the host's entry for it, and its runtime.
`enable` writes them in that order and `disable` in the reverse one, each over several awaits;
`setConfig` writes the first two, and `close` takes the runtime down and leaves the ledger alone.
A step of this machine is what one call does up to its next await, and the label says how the
awaited operation ended.

* **`PluginHost.step`** — all calls on one entry, any number of `close` among them, and the
  activities that use the plugin. Failures of the lock, of a write, of the data directory and of
  the hooks are labels.
* **`PluginAnswer`** — what a call has answered, with what it found and what it leaves.

`mutationInFlight` lets one of `enable`, `disable` and `setConfig` run at a time; the early
answers on the status come before it is looked at. `persist` is one step: it lands, finds the
ledger locked, or throws with the ledger as it was.
-/

namespace Dweb

/-! ## State -/

inductive PluginStatus where
  | registered | enabled | disabled
  deriving DecidableEq

/-- A plugin's record in the ledger, and what the host's entry holds of it. -/
structure PluginRecord (κ : Type*) where
  status : PluginStatus
  config : κ
  deriving DecidableEq

inductive PluginError where
  | busy | lock | enableFailed | invalidTransition | invalidConfig
  | threw
  deriving DecidableEq

inductive PersistEnd where
  | landed | lock | threw
  deriving DecidableEq

/-- Where the holder of `mutationInFlight` is. -/
inductive MutationAt (κ : Type*) where
  | enablePersist | enableDir | enableHook | enableRollback
  | draining | grace | disposing | disablePersist
  | configPersist (status : PluginStatus) (value : κ)
  | configHook
  deriving DecidableEq

def MutationAt.isTransition {κ : Type*} : MutationAt κ → Bool
  | .configPersist _ _ | .configHook => false
  | _ => true

def MutationAt.isDisable {κ : Type*} : MutationAt κ → Bool
  | .draining | .grace | .disposing | .disablePersist => true
  | _ => false

/-- A call under way, with what it found: the ledger, and the status that others have left. -/
structure Mutation (κ : Type*) where
  place : MutationAt κ
  ledger : PluginRecord κ
  status : PluginStatus
  deriving DecidableEq

/-- Where a call of `close` is: the entries before this one, this one, those after. -/
inductive CloseAt where
  | entered | draining | disposing | passed | returned | rejected
  deriving DecidableEq

def CloseAt.isPast : CloseAt → Bool
  | .draining | .disposing | .passed | .returned => true
  | _ => false

def CloseAt.isThrough : CloseAt → Bool
  | .passed | .returned => true
  | _ => false

structure PluginActivity where
  handle : Nat
  cancelled : Bool
  deriving DecidableEq

inductive PluginCall where
  | enable | disable | setConfig
  deriving DecidableEq

/-- An answer, what the call found, and what all views are when it is given. -/
structure PluginAnswer (κ : Type*) where
  call : PluginCall
  result : Except PluginError Unit
  ledgerBefore : PluginRecord κ
  statusBefore : PluginStatus
  ledger : PluginRecord κ
  status : PluginStatus
  running : Bool
  inflight : List PluginActivity

structure PluginHost (κ : Type*) where
  ledger : Option (PluginRecord κ)
  status : PluginStatus
  config : κ
  inflight : List PluginActivity
  nextHandle : Nat
  disposed : Bool
  mutation : Option (Mutation κ)
  /-- The calls of `close`, in the order they were made. -/
  closes : List CloseAt
  /-- `onEnable` is effective, and `onDispose` has not run since. -/
  running : Bool
  /-- A close has found the plugin enabled and taken it down, in memory. -/
  takenDown : Bool
  /-- The state the last successful `enable` or `disable` promised; at first the ledger's. -/
  promised : PluginStatus
  answers : List (PluginAnswer κ)

namespace PluginHost

variable {κ : Type*} [Inhabited κ]

/-- What a restart reads: without a record the plugin is registered, its configuration empty. -/
def onDisk (ledger : Option (PluginRecord κ)) : PluginRecord κ :=
  ledger.getD { status := .registered, config := default }

/-- `createPluginHost` on a ledger. A plugin that was enabled gets its `onEnable` again; when
that fails it stays enabled, its runtime is not. -/
def restore (ledger : Option (PluginRecord κ)) (hookOk : Bool) : PluginHost κ where
  ledger := ledger
  status := (onDisk ledger).status
  config := (onDisk ledger).config
  inflight := []
  nextHandle := 0
  disposed := false
  mutation := none
  closes := []
  running := (onDisk ledger).status = .enabled && hookOk
  takenDown := false
  promised := (onDisk ledger).status
  answers := []

/-! ## Answers -/

/-- An answer that a call gives, having found what it says. -/
def answer (s : PluginHost κ) (call : PluginCall) (result : Except PluginError Unit)
    (ledgerBefore : PluginRecord κ) (statusBefore : PluginStatus) : PluginHost κ :=
  { s with
    answers :=
      { call := call, result := result, ledgerBefore := ledgerBefore, statusBefore := statusBefore,
        ledger := onDisk s.ledger, status := s.status, running := s.running,
        inflight := s.inflight } :: s.answers }

def answerAtOnce (s : PluginHost κ) (call : PluginCall) (result : Except PluginError Unit) :
    PluginHost κ :=
  s.answer call result (onDisk s.ledger) s.status

/-- The answer of the call under way; `mutationInFlight` is released. -/
def finish (s : PluginHost κ) (m : Mutation κ) (call : PluginCall)
    (result : Except PluginError Unit) : PluginHost κ :=
  { s with mutation := none }.answer call result m.ledger m.status

def promise (s : PluginHost κ) (status : PluginStatus) : PluginHost κ :=
  { s with promised := status }

def begin_ (s : PluginHost κ) (place : MutationAt κ) : PluginHost κ :=
  { s with mutation := some { place := place, ledger := onDisk s.ledger, status := s.status } }

def goOn (s : PluginHost κ) (m : Mutation κ) (place : MutationAt κ) : PluginHost κ :=
  { s with mutation := some { m with place := place } }

def write (s : PluginHost κ) (status : PluginStatus) (config : κ) : PluginHost κ :=
  { s with ledger := some { status := status, config := config } }

/-! ## The calls -/

def enable (s : PluginHost κ) : PluginHost κ :=
  if s.status = .enabled then (s.promise .enabled).answerAtOnce .enable (.ok ())
  else if s.mutation.isSome then s.answerAtOnce .enable (.error .busy)
  else s.begin_ .enablePersist

def disable (s : PluginHost κ) : PluginHost κ :=
  if s.status = .registered then s.answerAtOnce .disable (.error .invalidTransition)
  else if s.status = .disabled then (s.promise .disabled).answerAtOnce .disable (.ok ())
  else if s.mutation.isSome then s.answerAtOnce .disable (.error .busy)
  else { s.begin_ .draining with status := .disabled }

/-- `value` is what the schema's check makes of the argument. -/
def setConfig (s : PluginHost κ) (value : Option κ) : PluginHost κ :=
  if s.mutation.isSome then s.answerAtOnce .setConfig (.error .busy)
  else
    match value with
    | none => s.answerAtOnce .setConfig (.error .invalidConfig)
    | some value => s.begin_ (.configPersist s.status value)

/-- `persist` comes back, in whichever call awaits it. -/
def persistEnds (s : PluginHost κ) (m : Mutation κ) (o : PersistEnd) : Option (PluginHost κ) :=
  match m.place with
  | .enablePersist =>
    some <|
      match o with
      | .landed => (s.write .enabled s.config).goOn m .enableDir
      | .lock => s.finish m .enable (.error .lock)
      | .threw => s.finish m .enable (.error .threw)
  | .enableRollback =>
    -- of the rollback's own result nothing is read
    some <|
      match o with
      | .landed => (s.write s.status s.config).finish m .enable (.error .enableFailed)
      | .lock => s.finish m .enable (.error .enableFailed)
      | .threw => s.finish m .enable (.error .threw)
  | .disablePersist =>
    some <|
      match o with
      | .landed =>
        ((s.write .disabled s.config).promise .disabled).finish m .disable (.ok ())
      | .lock => s.finish m .disable (.error .lock)
      | .threw => s.finish m .disable (.error .threw)
  | .configPersist status value =>
    some <|
      match o with
      | .landed => { s.write status value with config := value }.goOn m .configHook
      | .lock => s.finish m .setConfig (.error .lock)
      | .threw => s.finish m .setConfig (.error .threw)
  | _ => none

/-- `ensurePluginDataDir`. -/
def dirEnds (s : PluginHost κ) (m : Mutation κ) (ok : Bool) : Option (PluginHost κ) :=
  match m.place with
  | .enableDir => some <| if ok then s.goOn m .enableHook else s.finish m .enable (.error .threw)
  | _ => none

/-- `onEnable`, or `onConfigChange`, whose failure is only noted. -/
def hookEnds (s : PluginHost κ) (m : Mutation κ) (ok : Bool) : Option (PluginHost κ) :=
  match m.place with
  | .enableHook =>
    some <|
      if ok then
        ({ s with
            disposed := false, status := .enabled, running := true,
            takenDown := false }.promise .enabled).finish m .enable (.ok ())
      else s.goOn m .enableRollback
  | .configHook => some (s.finish m .setConfig (.ok ()))
  | _ => none

def cancelAll (s : PluginHost κ) : PluginHost κ :=
  { s with inflight := s.inflight.map fun a => { a with cancelled := true } }

/-- After the drain: `onDispose` is called once. -/
def dispose (s : PluginHost κ) (m : Mutation κ) : PluginHost κ :=
  if s.disposed then s.goOn m .disablePersist
  else { s with disposed := true }.goOn m .disposing

/-- The drain loop looks at the activities and at the clock. -/
def drainPoll (s : PluginHost κ) (m : Mutation κ) (late : Bool) : Option (PluginHost κ) :=
  match m.place with
  | .draining =>
    if s.inflight.isEmpty then some (s.dispose m)
    else if late then some (s.cancelAll.goOn m .grace)
    else none
  | .grace => some (s.dispose m)
  | _ => none

def disposeEnds (s : PluginHost κ) (m : Mutation κ) (ok : Bool) : Option (PluginHost κ) :=
  match m.place with
  | .disposing =>
    some <|
      if ok then { s with running := false }.goOn m .disablePersist
      else s.finish m .disable (.error .threw)
  | _ => none

def beginActivity (s : PluginHost κ) : Option (PluginHost κ) :=
  if s.status = .enabled then
    some { s with
      inflight := s.inflight ++ [{ handle := s.nextHandle, cancelled := false }]
      nextHandle := s.nextHandle + 1 }
  else none

def endActivity (s : PluginHost κ) (handle : Nat) : PluginHost κ :=
  { s with inflight := s.inflight.filter fun a => a.handle ≠ handle }

/-! ## Closing -/

def moveClose (s : PluginHost κ) (i : Nat) (place : CloseAt) : PluginHost κ :=
  { s with closes := s.closes.set i place }

/-- The loop of `close` comes to the entry. What a call under way will leave of the status is
no longer its own. -/
def closeVisit (s : PluginHost κ) (i : Nat) : PluginHost κ :=
  if s.status ≠ .enabled then s.moveClose i .passed
  else
    { s.moveClose i .draining with
      status := .disabled
      takenDown := true
      mutation := s.mutation.map fun m => { m with status := .disabled } }

def closeDrained (s : PluginHost κ) (i : Nat) : PluginHost κ :=
  if s.disposed then s.cancelAll.moveClose i .passed
  else { s.cancelAll with disposed := true }.moveClose i .disposing

def closeDisposeEnds (s : PluginHost κ) (i : Nat) (ok : Bool) : PluginHost κ :=
  if ok then { s with running := false }.moveClose i .passed else s.moveClose i .rejected

end PluginHost

/-! ## Steps -/

inductive PluginLabel (κ : Type*) where
  | enable
  | disable
  | setConfig (value : Option κ)
  | persistEnds (o : PersistEnd)
  | dirEnds (ok : Bool)
  | hookEnds (ok : Bool)
  | drainPoll (late : Bool)
  | disposeEnds (ok : Bool)
  | beginActivity
  | endActivity (handle : Nat)
  | closeBegin
  | closeVisit (i : Nat)
  | closeDrained (i : Nat)
  | closeDisposeEnds (i : Nat) (ok : Bool)
  | closeReturn (i : Nat)
  deriving DecidableEq

namespace PluginHost

variable {κ : Type*} [Inhabited κ]

def step (s : PluginHost κ) : PluginLabel κ → Option (PluginHost κ)
  | .enable => some s.enable
  | .disable => some s.disable
  | .setConfig value => some (s.setConfig value)
  | .persistEnds o => s.mutation.bind fun m => s.persistEnds m o
  | .dirEnds ok => s.mutation.bind fun m => s.dirEnds m ok
  | .hookEnds ok => s.mutation.bind fun m => s.hookEnds m ok
  | .drainPoll late => s.mutation.bind fun m => s.drainPoll m late
  | .disposeEnds ok => s.mutation.bind fun m => s.disposeEnds m ok
  | .beginActivity => s.beginActivity
  | .endActivity handle => some (s.endActivity handle)
  | .closeBegin => some { s with closes := s.closes ++ [.entered] }
  | .closeVisit i => if s.closes[i]? = some .entered then some (s.closeVisit i) else none
  | .closeDrained i => if s.closes[i]? = some .draining then some (s.closeDrained i) else none
  | .closeDisposeEnds i ok =>
    if s.closes[i]? = some .disposing then some (s.closeDisposeEnds i ok) else none
  | .closeReturn i =>
    if s.closes[i]? = some .passed then some (s.moveClose i .returned) else none

/-- How a write may end: a rollback puts back what an `enable` has found, and writes nothing behind
a close; `setConfig` writes the status the ledger has. -/
def MayEnd (s : PluginHost κ) (m : Mutation κ) (o : PersistEnd) : Prop :=
  match m.place with
  | .enableRollback => o = .landed ↔ s.takenDown = false
  | .disablePersist => o = .landed
  | .configPersist status _ => o = .landed → status = (onDisk s.ledger).status
  | _ => True

instance (s : PluginHost κ) (m : Mutation κ) (o : PersistEnd) : Decidable (s.MayEnd m o) := by
  unfold MayEnd
  split <;> infer_instance

/-- Steps away from the defects. An answer on the status alone finds the runtime and the ledger
as it says; the data directory, the rollback, `onDispose` and the last write of a `disable` do not
fail; a write does not turn what a close has done in memory into the ledger's state; a close does
not pass by a runtime that is still to be stopped, and no `onEnable` comes back behind it. -/
def Respects (s : PluginHost κ) : PluginLabel κ → Prop
  | .enable => s.status = .enabled → s.running = true
  | .disable =>
    s.status = .disabled →
      s.takenDown = false
        ∧ ∀ m ∈ s.mutation, m.place.isTransition = false ∨ m.place = .enablePersist
  | .persistEnds o => ∀ m ∈ s.mutation, s.MayEnd m o
  | .dirEnds ok => ok = true ∨ s.takenDown = true
  | .disposeEnds ok => ok = true
  | .hookEnds ok =>
    ∀ m ∈ s.mutation, m.place = .enableHook → ok = true → ∀ c ∈ s.closes, c.isPast = false
  | .closeVisit _ => s.status = .enabled ∨ s.running = false
  | _ => True

instance [DecidableEq κ] (s : PluginHost κ) (l : PluginLabel κ) : Decidable (s.Respects l) := by
  unfold Respects
  split <;> infer_instance

end PluginHost

def pluginMachine (κ : Type*) [Inhabited κ] : Machine (PluginHost κ) (PluginLabel κ) where
  init s := ∃ ledger hookOk, s = .restore ledger hookOk
  step := PluginHost.step

end Dweb
