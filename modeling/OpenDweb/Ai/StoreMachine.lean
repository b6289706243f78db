import OpenDweb.Ai.ProviderStore

/-!
# OpenDweb — the provider store as a machine

A step is what runs between two awaits of an operation of `ProviderStore`: from its call to the
write of the file (or to the hooks, which `addService` waits for), the rename, what follows the
write. A transaction begins with its snapshot; its operations are operations that it owns.

* **`StoreState`** — memory, file, baseline, the operations at an await, the open transactions; and
  a record of the operations that have changed the data, for the statements.
* **`StoreState.enter`** — an operation up to its `save`; **`save`** is the rest, up to the write.
* **`storeMachine`** — any operations and transactions, in any interleaving; each save may be
  refused, and each write may fail.
-/

namespace Dweb

variable {Raw Slots Auth : Type}

/-- An operation that has changed the data, or has found nothing to change. -/
structure StoreEntry (Raw Slots Auth : Type) where
  /-- The number of its write; `none` where there was nothing to change. -/
  number : Option Nat
  owner : Option Nat
  world : StoreWorld
  op : StoreOp Raw Slots Auth

inductive StoreTask (Slots Auth : Type) where
  /-- `addService`, for its hooks. -/
  | hooked (owner : Option Nat) (prepared : PreparedService Slots Auth)
  /-- For the file; `rollback` is the transaction that is rolled back. -/
  | writing (number : Nat) (payload : StoreData Slots Auth) (rollback : Option Nat)
  | written (number : Nat)

structure StoreTx (Slots Auth : Type) where
  id : Nat
  snapshot : StoreData Slots Auth
  /-- Since its begin, no other operation and no other rollback was entered. -/
  isAlone : Bool

structure StoreState (Raw Slots Auth : Type) where
  data : StoreData Slots Auth
  file : StoreData Slots Auth
  baseline : PersistedEnabled Auth
  tasks : List (StoreTask Slots Auth)
  txs : List (StoreTx Slots Auth)
  txCount : Nat
  /-- Writes of the file that were started, and the last that landed. -/
  writes : Nat
  landed : Nat
  start : StoreContent Slots Auth
  /-- In the order of their effects; without those that have thrown. -/
  entries : List (StoreEntry Raw Slots Auth)
  /-- Transactions that are rolled back, each with the number of its write. -/
  voids : List (Nat × Nat)
  returned : List Nat

inductive StoreLabel (Raw Slots Auth : Type) where
  | call (owner : Option Nat) (world : StoreWorld) (op : StoreOp Raw Slots Auth)
  | hooks (i : Nat) (world : StoreWorld) (serviceId : String)
  | land (i : Nat)
  | fail (i : Nat)
  | finish (i : Nat)
  | begin
  | commit (id : Nat)
  | abort (id : Nat) (world : StoreWorld)

def StoreOp.waits : StoreOp Raw Slots Auth → Bool
  | .addService input _ => input.hooks
  | _ => false

namespace StoreState

def isOpen (s : StoreState Raw Slots Auth) (id : Nat) : Bool := s.txs.any (·.id = id)

/-- What is entered by `owner` breaks the isolation of the other transactions. -/
def disturb (owner : Option Nat) (txs : List (StoreTx Slots Auth)) : List (StoreTx Slots Auth) :=
  txs.map fun tx => { tx with isAlone := tx.isAlone && owner = some tx.id }

variable (P : StorePlatform Raw Slots Auth) [DecidableEq Auth]

/-- `save`, up to the write, with the data changed to `content`. -/
def save (s : StoreState Raw Slots Auth) (owner : Option Nat) (world : StoreWorld)
    (op : StoreOp Raw Slots Auth) (content : StoreContent Slots Auth) :
    StoreState Raw Slots Auth :=
  match checkSave P world s.baseline content with
  -- it throws, and the data stays changed
  | .error _ => { s with data := { s.data with content } }
  | .ok () =>
    let data : StoreData Slots Auth := ⟨s.data.revision + 1, content⟩
    { s with
      data
      tasks := .writing (s.writes + 1) data none :: s.tasks
      txs := disturb owner s.txs
      writes := s.writes + 1
      entries := s.entries ++ [⟨some (s.writes + 1), owner, world, op⟩] }

/-- An operation, up to its first await behind the hooks. -/
def enter (s : StoreState Raw Slots Auth) (owner : Option Nat) (world : StoreWorld)
    (op : StoreOp Raw Slots Auth) : StoreState Raw Slots Auth :=
  match op.run P world s.data.content with
  | .error _ => s
  | .ok none =>
    { s with
      txs := disturb owner s.txs
      entries := s.entries ++ [⟨none, owner, world, op⟩] }
  | .ok (some content) => s.save P owner world op content

def rollback (s : StoreState Raw Slots Auth) (tx : StoreTx Slots Auth) (world : StoreWorld) :
    StoreState Raw Slots Auth :=
  let txs := disturb none (s.txs.filter (·.id ≠ tx.id))
  match checkSave P world s.baseline tx.snapshot.content with
  -- the error of the function is thrown all the same
  | .error _ => { s with data := tx.snapshot, txs, voids := (tx.id, 0) :: s.voids }
  | .ok () =>
    let data : StoreData Slots Auth := ⟨tx.snapshot.revision + 1, tx.snapshot.content⟩
    { s with
      data
      tasks := .writing (s.writes + 1) data (some tx.id) :: s.tasks
      txs
      writes := s.writes + 1
      voids := (tx.id, s.writes + 1) :: s.voids }

def step (s : StoreState Raw Slots Auth) :
    StoreLabel Raw Slots Auth → Option (StoreState Raw Slots Auth)
  | .call owner world op =>
    if owner.all s.isOpen then
      match op with
      | .pushService _ _ => none
      | .addService input serviceId =>
        if input.hooks then
          match addServiceCheck P s.data.content input with
          | .error _ => some s
          | .ok prepared => some { s with tasks := .hooked owner prepared :: s.tasks }
        else some (s.enter P owner world (.addService input serviceId))
      | op => some (s.enter P owner world op)
    else none
  | .hooks i world serviceId =>
    match s.tasks[i]? with
    | some (.hooked owner prepared) =>
      -- an operation that its transaction has left is one of its own
      let owner := owner.filter s.isOpen
      some ({ s with tasks := s.tasks.eraseIdx i }.enter P owner world
        (.pushService prepared serviceId))
    | _ => none
  | .land i =>
    match s.tasks[i]? with
    | some (.writing number payload _) =>
      some { s with file := payload, tasks := s.tasks.set i (.written number), landed := number }
    | _ => none
  | .fail i =>
    match s.tasks[i]? with
    | some (.writing number _ none) =>
      some { s with
        tasks := s.tasks.eraseIdx i
        entries := s.entries.filter (·.number ≠ some number) }
    | some (.writing _ _ (some id)) =>
      some { s with tasks := s.tasks.eraseIdx i, voids := (id, 0) :: s.voids }
    | _ => none
  | .finish i =>
    match s.tasks[i]? with
    | some (.written number) =>
      some { s with
        baseline := persistedEnabled s.data.content.services
        tasks := s.tasks.eraseIdx i
        returned := number :: s.returned }
    | _ => none
  | .begin =>
    some { s with txs := ⟨s.txCount, s.data, true⟩ :: s.txs, txCount := s.txCount + 1 }
  | .commit id =>
    if s.isOpen id then some { s with txs := s.txs.filter (·.id ≠ id) } else none
  | .abort id world =>
    match s.txs.find? (·.id = id) with
    | some tx => some (s.rollback P tx world)
    | none => none

end StoreState

/-- A store that was opened: from a file that `open` reads, or where there is none. -/
def storeMachine (P : StorePlatform Raw Slots Auth) [DecidableEq Auth] :
    Machine (StoreState Raw Slots Auth) (StoreLabel Raw Slots Auth) where
  init s := storeFileSchema P s.file.content = true ∧ s.data = s.file ∧
    s.start = s.file.content ∧ s.baseline = persistedEnabled s.data.content.services ∧
    s.tasks = [] ∧ s.txs = [] ∧ s.entries = [] ∧ s.voids = [] ∧ s.returned = [] ∧
    s.writes = 0 ∧ s.landed = 0
  step s l := s.step P l

end Dweb
