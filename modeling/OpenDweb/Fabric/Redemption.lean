import OpenDweb.Fabric.RosterRuns

/-!
# OpenDweb — single redemption of invites

`consume_invite` between processes. Each process holds its own set of consumed ids, read
once without the lock when the roster was opened. A call looks there first; on a miss it
takes the file lock, rereads the log, and appends its record only if the id is still absent.

* **`World.step`** — the calls at the granularity at which processes interleave: the fast
  path, the lock, the reload, the append in as many writes as the system makes of it, the
  return. A failing call returns `Err` and drops the lock;
* **`Recorded`** — the linearization: an id is consumed once its record is in the log;
* **`single_redemption`** — at most one call per id ever returns `Ok(true)`, over every
  interleaving; with durable appends exactly one does once any call on the id has completed
  with `Ok` and no call is in progress; and every later open sees it consumed.
-/

namespace Dweb

open List Option
open Function (update update_of_ne update_self)

/-! ## The processes -/

/-- Where a roster instance stands in its `consume_invite` call. -/
inductive Phase where
  | closed
  | idle
  | waiting (inviteId : BytesN 16) (nowMs : UInt64)
  | locked (inviteId : BytesN 16) (nowMs : UInt64)
  | checked (inviteId : BytesN 16) (nowMs : UInt64)
  /-- `rest` of the record is still to be written. -/
  | appending (inviteId : BytesN 16) (rest : Bytes)
deriving DecidableEq

/-- One roster instance: its `consumed_invites` set and its call. -/
structure Instance where
  consumed : Finset (BytesN 16)
  phase : Phase

/-- The data directory, the lock on it, the instances, and every `Ok` returned so far. -/
structure World where
  dir : DataDir
  lock : Option Nat
  instances : Nat → Instance
  returned : List (BytesN 16 × Bool)

/-- `invite_id || consumed_at_ms`. -/
def consumedRecord (inviteId : BytesN 16) (nowMs : UInt64) : Bytes :=
  inviteId.toBytes ++ beBytes 8 nowMs.toNat

namespace World

def log (w : World) : Bytes := w.dir.invitesConsumed.getD []

/-- Instance `i` changes and keeps everything else. -/
def set (w : World) (i : Nat) (inst : Instance) : World :=
  { w with instances := update w.instances i inst }

/-- Instance `i` is back between calls; a lock it holds is dropped. -/
def endCall (w : World) (i : Nat) (consumed : Finset (BytesN 16)) : World :=
  { w.set i ⟨consumed, .idle⟩ with lock := if w.lock = some i then none else w.lock }

/-- The call of instance `i` returns `Ok(result)`. -/
def returnOk (w : World) (i : Nat) (consumed : Finset (BytesN 16)) (inviteId : BytesN 16)
    (result : Bool) : World :=
  { w.endCall i consumed with returned := (inviteId, result) :: w.returned }

def setLog (w : World) (bytes : Bytes) : World :=
  { w with dir := { w.dir with invitesConsumed := some bytes } }

end World

/-! ## Records in the log -/

theorem mem_chunks {n : Nat} {bytes chunk : Bytes} :
    chunk ∈ chunks n bytes ↔ ∃ k < n, chunk = slice bytes (24 * k) (24 * k + 24) := by
  induction n generalizing bytes with
  | zero => simp [chunks]
  | succ n ih =>
    rw [chunks, mem_cons, ih]
    have hshift : ∀ k, slice (bytes.drop CONSUMED_RECORD_LEN) (24 * k) (24 * k + 24) =
        slice bytes (24 * (k + 1)) (24 * (k + 1) + 24) := by
      intro k
      simp only [slice, CONSUMED_RECORD_LEN, drop_drop]
      congr 1
      · omega
      · congr 1; omega
    constructor
    · rintro (rfl | ⟨k, hk, rfl⟩)
      · exact ⟨0, by omega, by simp [slice, CONSUMED_RECORD_LEN]⟩
      · exact ⟨k + 1, by omega, hshift k⟩
    · rintro ⟨k, hk, rfl⟩
      cases k with
      | zero => exact .inl (by simp [slice, CONSUMED_RECORD_LEN])
      | succ k => exact .inr ⟨k, by omega, (hshift k).symm⟩

/-- **Consumption**: a whole record of the id stands in the log. -/
def Recorded (log : Bytes) (inviteId : BytesN 16) : Prop :=
  ∃ k, 24 * k + 24 ≤ log.length ∧ recordInviteId (slice log (24 * k) (24 * k + 24)) = inviteId

theorem slice_append_of_le {bs rest : Bytes} {a b : Nat} (h : b ≤ bs.length) :
    slice (bs ++ rest) a b = slice bs a b := by
  unfold slice
  by_cases hab : a ≤ b
  · rw [drop_append_of_le_length (by omega), take_append_of_le_length]
    rw [length_drop]; omega
  · rw [Nat.sub_eq_zero_of_le (by omega), take_zero, take_zero]

variable {log : Bytes}

theorem Recorded.append {x : BytesN 16} (h : Recorded log x) (rest : Bytes) :
    Recorded (log ++ rest) x := by
  obtain ⟨k, hk, hid⟩ := h
  exact ⟨k, by rw [length_append]; omega, by rwa [slice_append_of_le hk]⟩

theorem recorded_append_torn {part : Bytes} (hlog : log.length % 24 = 0) (hpart : part.length < 24)
    {x : BytesN 16} : Recorded (log ++ part) x ↔ Recorded log x := by
  refine ⟨?_, fun h => h.append part⟩
  rintro ⟨k, hk, hid⟩
  rw [length_append] at hk
  have hk : 24 * k + 24 ≤ log.length := by omega
  exact ⟨k, hk, by rwa [slice_append_of_le hk] at hid⟩

@[simp] theorem length_consumedRecord (x : BytesN 16) (nowMs : UInt64) :
    (consumedRecord x nowMs).length = 24 := by
  simp [consumedRecord]

theorem recordInviteId_consumedRecord (x : BytesN 16) (nowMs : UInt64) :
    recordInviteId (consumedRecord x nowMs) = x := by
  apply arrayAt_eq
  unfold consumedRecord
  exact slice_append_self (by simp)

theorem recorded_append_record (hlog : log.length % 24 = 0) (x y : BytesN 16) (nowMs : UInt64) :
    Recorded (log ++ consumedRecord x nowMs) y ↔ Recorded log y ∨ y = x := by
  have hlast : slice (log ++ consumedRecord x nowMs) log.length (log.length + 24) =
      consumedRecord x nowMs := by
    have hmid : slice (log ++ (consumedRecord x nowMs ++ [])) log.length (log.length + 24) =
        consumedRecord x nowMs := slice_append rfl (by simp)
    rwa [append_nil] at hmid
  constructor
  · rintro ⟨k, hk, hid⟩
    rw [length_append, length_consumedRecord] at hk
    by_cases hin : 24 * k + 24 ≤ log.length
    · exact .inl ⟨k, hin, by rwa [slice_append_of_le hin] at hid⟩
    · have heq : 24 * k = log.length := by omega
      rw [heq, hlast, recordInviteId_consumedRecord] at hid
      exact .inr hid.symm
  · rintro (h | rfl)
    · exact h.append _
    · refine ⟨log.length / 24, ?_, ?_⟩
      · rw [length_append, length_consumedRecord]; omega
      · have heq : 24 * (log.length / 24) = log.length := by omega
        rw [heq, hlast, recordInviteId_consumedRecord]

/-! ## Safety of every run -/

def Phase.Holds : Phase → Prop
  | locked .. | checked .. | appending .. => True
  | _ => False

/-- What a phase says about the log and the results returned so far. -/
def Phase.Sound (phase : Phase) (log : Bytes) (returned : List (BytesN 16 × Bool)) : Prop :=
  match phase with
  | checked x _ => log.length % 24 = 0 ∧ ¬Recorded log x
  | appending x rest => ∃ base written nowMs, log = base ++ written ∧ base.length % 24 = 0 ∧
      written ++ rest = consumedRecord x nowMs ∧ ¬Recorded base x ∧ (x, true) ∉ returned
  | _ => True

/-- **The invariant of every run**, whatever system calls fail. -/
structure World.Safe (w : World) : Prop where
  once : ∀ x, w.returned.count (x, true) ≤ 1
  recorded : ∀ x b, (x, b) ∈ w.returned → Recorded w.log x
  known : ∀ i, ∀ x ∈ (w.instances i).consumed, Recorded w.log x
  holder : ∀ i, (w.instances i).phase.Holds → w.lock = some i
  sound : ∀ i, (w.instances i).phase.Sound w.log w.returned

namespace World

variable {w : World}

@[simp] theorem log_set (w : World) (i : Nat) (inst : Instance) : (w.set i inst).log = w.log := rfl

@[simp] theorem log_endCall (w : World) (i : Nat) (consumed : Finset (BytesN 16)) :
    (w.endCall i consumed).log = w.log := rfl

@[simp] theorem log_setLog (w : World) (bytes : Bytes) : (w.setLog bytes).log = bytes := rfl

theorem Safe.replace (hs : w.Safe) (i : Nat) (inst : Instance) (lock : Option Nat)
    (hlock : ∀ j ≠ i, w.lock = some j → lock = some j)
    (hknown : ∀ x ∈ inst.consumed, Recorded w.log x)
    (hholds : inst.phase.Holds → lock = some i)
    (hsound : inst.phase.Sound w.log w.returned) :
    Safe { w.set i inst with lock := lock } where
  once := hs.once
  recorded := hs.recorded
  known := by
    intro j
    show ∀ x ∈ (update w.instances i inst j).consumed, Recorded w.log x
    obtain rfl | hj := eq_or_ne j i
    · rw [update_self]
      exact hknown
    · rw [update_of_ne hj]
      exact hs.known j
  holder := by
    intro j
    show (update w.instances i inst j).phase.Holds → lock = some j
    obtain rfl | hj := eq_or_ne j i
    · rw [update_self]
      exact hholds
    · rw [update_of_ne hj]
      exact fun hh => hlock j hj (hs.holder j hh)
  sound := by
    intro j
    show (update w.instances i inst j).phase.Sound w.log w.returned
    obtain rfl | hj := eq_or_ne j i
    · rw [update_self]
      exact hsound
    · rw [update_of_ne hj]
      exact hs.sound j

theorem Safe.endCall (hs : w.Safe) (i : Nat) {consumed : Finset (BytesN 16)}
    (hknown : ∀ x ∈ consumed, Recorded w.log x) : (w.endCall i consumed).Safe := by
  refine hs.replace i ⟨consumed, .idle⟩ _ (fun j hj hlock => ?_) hknown False.elim trivial
  rw [hlock, if_neg (fun h => hj (some.inj h))]

variable {x : BytesN 16}

theorem Safe.addResult (hs : w.Safe) {b : Bool} (hrec : Recorded w.log x)
    (htrue : b = true → (x, true) ∉ w.returned ∧ ∀ i rest, (w.instances i).phase ≠ .appending x rest) :
    Safe { w with returned := (x, b) :: w.returned } where
  once := by
    intro y
    rw [count_cons]
    split
    · rename_i heq
      obtain ⟨rfl, rfl⟩ : x = y ∧ b = true := by simpa using heq
      rw [count_eq_zero_of_not_mem (htrue rfl).1]
    · exact hs.once y
  recorded := by
    intro y c hmem
    obtain heq | hmem := mem_cons.mp hmem
    · obtain ⟨rfl, rfl⟩ := Prod.mk.inj heq
      exact hrec
    · exact hs.recorded y c hmem
  known := hs.known
  holder := hs.holder
  sound := by
    intro i
    have hsound := hs.sound i
    show (w.instances i).phase.Sound w.log ((x, b) :: w.returned)
    cases hphase : (w.instances i).phase with
    | appending y rest =>
      rw [hphase] at hsound
      obtain ⟨base, written, nowMs, hlog, hmod, hrest, hbase, hnot⟩ := hsound
      refine ⟨base, written, nowMs, hlog, hmod, hrest, hbase, fun hmem => ?_⟩
      obtain heq | hmem := mem_cons.mp hmem
      · obtain ⟨rfl, rfl⟩ := Prod.mk.inj heq
        exact (htrue rfl).2 i rest hphase
      · exact hnot hmem
    | checked y nowMs => rwa [hphase] at hsound
    | _ => trivial

theorem Safe.write (hs : w.Safe) {i : Nat} {rest : Bytes} (n : Nat)
    (hphase : (w.instances i).phase = .appending x rest) :
    Safe ((w.setLog (w.log ++ rest.take n)).set i
      ⟨(w.instances i).consumed, .appending x (rest.drop n)⟩) := by
  have hlock : w.lock = some i := hs.holder i (by rw [hphase]; trivial)
  have hgrow : ∀ y, Recorded w.log y → Recorded (w.log ++ rest.take n) y := fun y h => h.append _
  -- another instance is outside the lock, where its phase asserts nothing
  have hout : ∀ j ≠ i, ¬(w.instances j).phase.Holds := by
    intro j hj hh
    have hheld := hs.holder j hh
    rw [hlock] at hheld
    exact hj (some.inj hheld).symm
  have hs' : (w.setLog (w.log ++ rest.take n)).set i ⟨(w.instances i).consumed, .idle⟩ |>.Safe := by
    refine ⟨hs.once, fun y b hmem => hgrow y (hs.recorded y b hmem), fun j => ?_, fun j => ?_,
      fun j => ?_⟩
    · show ∀ x ∈ (update w.instances i _ j).consumed, Recorded (w.log ++ rest.take n) x
      obtain rfl | hj := eq_or_ne j i
      · rw [update_self]
        exact fun y hy => hgrow y (hs.known j y hy)
      · rw [update_of_ne hj]
        exact fun y hy => hgrow y (hs.known j y hy)
    · show (update w.instances i _ j).phase.Holds → w.lock = some j
      obtain rfl | hj := eq_or_ne j i
      · rw [update_self]
        exact False.elim
      · rw [update_of_ne hj]
        exact fun hh => absurd hh (hout j hj)
    · show (update w.instances i _ j).phase.Sound (w.log ++ rest.take n) w.returned
      obtain rfl | hj := eq_or_ne j i
      · rw [update_self]
        trivial
      · rw [update_of_ne hj]
        have := hout j hj
        cases hp : (w.instances j).phase with
        | checked y nowMs => rw [hp] at this; exact absurd trivial this
        | appending y rest => rw [hp] at this; exact absurd trivial this
        | _ => trivial
  have hsound := hs.sound i
  rw [hphase] at hsound
  obtain ⟨base, written, nowMs, hlog, hmod, hrest, hbase, hnot⟩ := hsound
  have hset : ∀ a b, ((w.setLog (w.log ++ rest.take n)).set i a).set i b =
      (w.setLog (w.log ++ rest.take n)).set i b := by
    intro a b
    simp [World.set]
  rw [← hset ⟨(w.instances i).consumed, .idle⟩]
  refine hs'.replace i _ w.lock (fun _ _ h => h) (fun y hy => hgrow y (hs.known i y hy))
    (fun _ => hlock) ⟨base, written ++ rest.take n, nowMs, ?_, hmod, ?_, hbase, hnot⟩
  · show w.log ++ rest.take n = base ++ (written ++ rest.take n)
    rw [hlog, append_assoc]
  · rw [append_assoc, take_append_drop, hrest]

/-! ## Durable appends -/

/-- With durable appends the log is whole between appends, and every recorded id has been
won, or is about to be by the call that wrote its record. -/
structure Settled (w : World) : Prop where
  aligned : (∀ i x rest, (w.instances i).phase ≠ .appending x rest) → w.log.length % 24 = 0
  attributed : ∀ x, Recorded w.log x →
    (x, true) ∈ w.returned ∨ ∃ i, (w.instances i).phase = .appending x []

theorem Settled.replace (hs : w.Settled) (i : Nat) (inst : Instance) (lock : Option Nat)
    (returned : List (BytesN 16 × Bool)) (hout : ∀ x rest, (w.instances i).phase ≠ .appending x rest)
    (hreturned : ∀ x, (x, true) ∈ w.returned → (x, true) ∈ returned) :
    Settled { w.set i inst with lock := lock, returned := returned } where
  aligned := by
    intro hnone
    refine hs.aligned fun j x rest => ?_
    obtain rfl | hj := eq_or_ne j i
    · exact hout x rest
    · have hphase := hnone j x rest
      simp only [World.set, update_of_ne hj] at hphase
      exact hphase
  attributed := by
    intro x hrec
    obtain hwon | ⟨j, hj⟩ := hs.attributed x hrec
    · exact .inl (hreturned x hwon)
    · have hji : j ≠ i := fun heq => hout x [] (heq ▸ hj)
      exact .inr ⟨j, by simpa only [World.set, update_of_ne hji] using hj⟩

theorem Settled.write (hs : w.Settled) (hsafe : w.Safe) {i : Nat} {rest : Bytes} (n : Nat)
    (hphase : (w.instances i).phase = .appending x rest) :
    Settled ((w.setLog (w.log ++ rest.take n)).set i
      ⟨(w.instances i).consumed, .appending x (rest.drop n)⟩) := by
  have hself : (((w.setLog (w.log ++ rest.take n)).set i
      ⟨(w.instances i).consumed, .appending x (rest.drop n)⟩).instances i).phase =
        .appending x (rest.drop n) := by
    simp [World.set]
  refine ⟨fun hnone => absurd hself (hnone i x _), fun y hrec => ?_⟩
  have hsound := hsafe.sound i
  rw [hphase] at hsound
  obtain ⟨base, written, nowMs, hlog, hmod, hrest, hbase, -⟩ := hsound
  have hlock : w.lock = some i := hsafe.holder i (by rw [hphase]; trivial)
  -- ids recorded before this append were won: only `i` can be appending
  have hold : Recorded base y → (y, true) ∈ w.returned := by
    intro hy
    obtain hwon | ⟨j, hj⟩ := hs.attributed y (by rw [hlog]; exact hy.append written)
    · exact hwon
    · have hheld := hsafe.holder j (by rw [hj]; trivial)
      rw [hlock] at hheld
      obtain rfl := some.inj hheld
      rw [hphase] at hj
      obtain ⟨rfl, -⟩ := Phase.appending.inj hj
      exact absurd hy hbase
  have hrec : Recorded (base ++ (written ++ rest.take n)) y := by
    rw [← append_assoc, ← hlog]
    exact hrec
  by_cases hdone : rest.drop n = []
  · have hall : written ++ rest.take n = consumedRecord x nowMs := by
      rw [← hrest, ← take_append_drop n rest, hdone, append_nil, take_take,
        Nat.min_self]
    rw [hall, recorded_append_record hmod] at hrec
    obtain hy | rfl := hrec
    · exact .inl (hold hy)
    · exact .inr ⟨i, by rw [hself, hdone]⟩
  · have hshort : (written ++ rest.take n).length < 24 := by
      have hlen := congrArg List.length hrest
      have hpos := length_pos_iff.mpr hdone
      rw [length_append, length_consumedRecord] at hlen
      rw [length_drop] at hpos
      rw [length_append, length_take]
      omega
    exact .inl (hold ((recorded_append_torn hmod hshort).mp hrec))

end World

/-! ## The steps -/

inductive RedeemStep where
  | start (i : Nat)
  | stop (i : Nat)
  /-- `consume_invite` starts with its fast path. -/
  | call (i : Nat) (inviteId : BytesN 16) (nowMs : UInt64)
  | acquire (i : Nat)
  | reload (i : Nat)
  /-- Open the log for appending, creating it if it is missing. -/
  | openLog (i : Nat)
  /-- One `write` of `write_all` takes the next `n` bytes. -/
  | write (i : Nat) (n : Nat)
  /-- `sync_all` succeeds and the call returns. -/
  | finish (i : Nat)
  /-- Any system call of the current phase fails and the call returns `Err`. -/
  | fail (i : Nat)

variable [Crypto]

namespace World

/-- One step of instance `i`. -/
def step (w : World) : RedeemStep → Option World
  | .start i =>
    match (w.instances i).phase with
    | .closed =>
      match loadConsumedInvites w.dir with
      | .ok consumed => some (w.set i ⟨consumed, .idle⟩)
      | .error _ => some w
    | _ => none
  | .stop i =>
    match (w.instances i).phase with
    | .idle => some (w.set i ⟨(w.instances i).consumed, .closed⟩)
    | _ => none
  | .call i inviteId nowMs =>
    match (w.instances i).phase with
    | .idle =>
      if inviteId ∈ (w.instances i).consumed then
        some (w.returnOk i (w.instances i).consumed inviteId false)
      else some (w.set i ⟨(w.instances i).consumed, .waiting inviteId nowMs⟩)
    | _ => none
  | .acquire i =>
    match (w.instances i).phase with
    | .waiting inviteId nowMs =>
      if w.lock = none then
        some { w.set i ⟨(w.instances i).consumed, .locked inviteId nowMs⟩ with lock := some i }
      else none
    | _ => none
  | .reload i =>
    match (w.instances i).phase with
    | .locked inviteId nowMs =>
      match loadConsumedInvites w.dir with
      | .ok consumed =>
        if inviteId ∈ consumed then some (w.returnOk i consumed inviteId false)
        else some (w.set i ⟨consumed, .checked inviteId nowMs⟩)
      | .error _ => some (w.endCall i (w.instances i).consumed)
    | _ => none
  | .openLog i =>
    match (w.instances i).phase with
    | .checked inviteId nowMs =>
      some ((w.setLog w.log).set i
        ⟨(w.instances i).consumed, .appending inviteId (consumedRecord inviteId nowMs)⟩)
    | _ => none
  | .write i n =>
    match (w.instances i).phase with
    | .appending inviteId rest =>
      some ((w.setLog (w.log ++ rest.take n)).set i
        ⟨(w.instances i).consumed, .appending inviteId (rest.drop n)⟩)
    | _ => none
  | .finish i =>
    match (w.instances i).phase with
    | .appending inviteId [] =>
      some (w.returnOk i (insert inviteId (w.instances i).consumed) inviteId true)
    | _ => none
  | .fail i =>
    match (w.instances i).phase with
    | .waiting .. | .locked .. | .checked .. | .appending .. =>
      some (w.endCall i (w.instances i).consumed)
    | _ => none

end World

/-- Any number of instances over one data directory nobody has consumed in yet. -/
def redeemMachine : Machine World RedeemStep where
  init w := w.dir.invitesConsumed = none ∧ w.lock = none ∧ w.returned = [] ∧
    ∀ i, w.instances i = ⟨∅, .closed⟩
  step := World.step

theorem loadConsumedInvites_eq_ok {dir : DataDir} {consumed : Finset (BytesN 16)}
    (h : loadConsumedInvites dir = .ok consumed) :
    (dir.invitesConsumed.getD []).length % 24 = 0 ∧
      ∀ x, x ∈ consumed ↔ Recorded (dir.invitesConsumed.getD []) x := by
  unfold loadConsumedInvites at h
  cases hlog : dir.invitesConsumed with
  | none =>
    rw [hlog] at h
    obtain rfl : ∅ = consumed := by simpa using h
    refine ⟨rfl, fun x => ?_⟩
    simp [Recorded]
  | some bytes =>
    rw [hlog] at h
    simp only at h
    split at h
    · cases h
    · rename_i hmod
      have hmod : bytes.length % 24 = 0 := not_not.mp hmod
      obtain rfl := Except.ok.inj h
      refine ⟨hmod, fun x => ?_⟩
      simp only [List.mem_toFinset, List.mem_map, mem_chunks, CONSUMED_RECORD_LEN, getD_some,
        Recorded]
      constructor
      · rintro ⟨_, ⟨k, hk, rfl⟩, rfl⟩
        exact ⟨k, by omega, rfl⟩
      · rintro ⟨k, hk, rfl⟩
        exact ⟨_, ⟨k, by omega, rfl⟩, rfl⟩

theorem loadConsumedInvites_of_aligned {dir : DataDir}
    (h : (dir.invitesConsumed.getD []).length % 24 = 0) :
    ∃ consumed, loadConsumedInvites dir = .ok consumed := by
  unfold loadConsumedInvites
  cases hlog : dir.invitesConsumed with
  | none => exact ⟨∅, rfl⟩
  | some bytes =>
    rw [hlog] at h
    exact ⟨_, if_neg (not_not.mpr h)⟩

namespace World

variable {w : World}

theorem load_recorded {consumed : Finset (BytesN 16)}
    (hload : loadConsumedInvites w.dir = .ok consumed) :
    ∀ x ∈ consumed, Recorded w.log x :=
  fun x hx => ((loadConsumedInvites_eq_ok hload).2 x).mp hx

/-- **The step lemma.** -/
theorem Safe.step (hs : w.Safe) {l : RedeemStep} {w' : World} (h : w.step l = some w') :
    w'.Safe := by
  cases l with
  | start i =>
    simp only [World.step] at h
    split at h
    · split at h
      · rename_i consumed hload
        obtain rfl := some.inj h
        exact hs.replace i ⟨consumed, .idle⟩ w.lock (fun _ _ h => h) (load_recorded hload) False.elim trivial
      · obtain rfl := some.inj h
        exact hs
    · cases h
  | stop i =>
    simp only [World.step] at h
    split at h
    · obtain rfl := some.inj h
      exact hs.replace i _ w.lock (fun _ _ h => h) (hs.known i) False.elim trivial
    · cases h
  | call i x nowMs =>
    simp only [World.step] at h
    split at h
    · split at h
      · rename_i hin
        obtain rfl := some.inj h
        exact (hs.endCall i (hs.known i)).addResult (hs.known i x hin) (by simp)
      · obtain rfl := some.inj h
        exact hs.replace i _ w.lock (fun _ _ h => h) (hs.known i) False.elim trivial
    · cases h
  | acquire i =>
    simp only [World.step] at h
    split at h
    · split at h
      · rename_i hfree
        obtain rfl := some.inj h
        refine hs.replace i _ (some i) (fun j _ hj => ?_) (hs.known i) (fun _ => rfl) trivial
        rw [hfree] at hj
        cases hj
      · cases h
    · cases h
  | reload i =>
    simp only [World.step] at h
    split at h
    · rename_i x nowMs hphase
      split at h
      · rename_i consumed hload
        split at h
        · rename_i hin
          obtain rfl := some.inj h
          exact (hs.endCall i (load_recorded hload)).addResult (load_recorded hload x hin) (by simp)
        · rename_i hout
          obtain rfl := some.inj h
          obtain ⟨hmod, hiff⟩ := loadConsumedInvites_eq_ok hload
          have hlock : w.lock = some i := hs.holder i (by rw [hphase]; trivial)
          exact hs.replace i _ w.lock (fun _ _ h => h) (load_recorded hload) (fun _ => hlock)
            ⟨hmod, fun hrec => hout ((hiff x).mpr hrec)⟩
      · obtain rfl := some.inj h
        exact hs.endCall i (hs.known i)
    · cases h
  | openLog i =>
    simp only [World.step] at h
    split at h
    · rename_i x nowMs hphase
      obtain rfl := some.inj h
      have hlock : w.lock = some i := hs.holder i (by rw [hphase]; trivial)
      have hsound := hs.sound i
      rw [hphase] at hsound
      obtain ⟨hmod, hnot⟩ := hsound
      -- creating the file does not change what it reads as
      have hs' : (w.setLog w.log).Safe := ⟨hs.once, hs.recorded, hs.known, hs.holder, hs.sound⟩
      exact hs'.replace i _ w.lock (fun _ _ h => h) (hs.known i) (fun _ => hlock)
        ⟨w.log, [], nowMs, by simp, hmod, rfl, hnot, fun hmem => hnot (hs.recorded x true hmem)⟩
    · cases h
  | write i n =>
    simp only [World.step] at h
    split at h
    · rename_i x rest hphase
      obtain rfl := some.inj h
      exact hs.write n hphase
    · cases h
  | finish i =>
    simp only [World.step] at h
    split at h
    · rename_i x hphase
      obtain rfl := some.inj h
      have hlock : w.lock = some i := hs.holder i (by rw [hphase]; trivial)
      have hsound := hs.sound i
      rw [hphase] at hsound
      obtain ⟨base, written, nowMs, hlog, hmod, hrest, hbase, hnot⟩ := hsound
      rw [append_nil] at hrest
      have hrec : Recorded w.log x := by
        rw [hlog, hrest, recorded_append_record hmod]
        exact .inr rfl
      have hend : (w.endCall i (insert x (w.instances i).consumed)).Safe := by
        refine hs.endCall i fun y hy => ?_
        obtain rfl | hy := Finset.mem_insert.mp hy
        · exact hrec
        · exact hs.known i y hy
      refine hend.addResult hrec fun _ => ⟨hnot, fun j rest hj => ?_⟩
      -- the lock has been dropped, so no instance is appending
      have hheld := hend.holder j (by rw [hj]; trivial)
      simp [World.endCall, World.set, hlock] at hheld
    · cases h
  | fail i =>
    simp only [World.step] at h
    split at h
    all_goals first
      | (obtain rfl := some.inj h; exact hs.endCall i (hs.known i))
      | cases h

/-- No append of the run fails: a failing step finds its instance outside the append. -/
def AppendsDurable (w : World) (l : RedeemStep) : Prop :=
  ∀ i x rest, l = .fail i → (w.instances i).phase ≠ .appending x rest

theorem Settled.step (hs : w.Settled) (hsafe : w.Safe) {l : RedeemStep} {w' : World}
    (hdurable : AppendsDurable w l) (h : w.step l = some w') : w'.Settled := by
  cases l with
  | start i =>
    simp only [World.step] at h
    split at h
    · rename_i hphase
      split at h
      · obtain rfl := some.inj h
        exact hs.replace i _ _ _ (by rw [hphase]; simp) fun _ h => h
      · obtain rfl := some.inj h
        exact hs
    · cases h
  | stop i =>
    simp only [World.step] at h
    split at h
    · rename_i hphase
      obtain rfl := some.inj h
      exact hs.replace i _ _ _ (by rw [hphase]; simp) fun _ h => h
    · cases h
  | call i x nowMs =>
    simp only [World.step] at h
    split at h
    · rename_i hphase
      split at h
      · obtain rfl := some.inj h
        exact hs.replace i _ _ _ (by rw [hphase]; simp) fun _ h => mem_cons_of_mem _ h
      · obtain rfl := some.inj h
        exact hs.replace i _ _ _ (by rw [hphase]; simp) fun _ h => h
    · cases h
  | acquire i =>
    simp only [World.step] at h
    split at h
    · rename_i x nowMs hphase
      split at h
      · obtain rfl := some.inj h
        exact hs.replace i _ _ _ (by rw [hphase]; simp) fun _ h => h
      · cases h
    · cases h
  | reload i =>
    simp only [World.step] at h
    split at h
    · rename_i x nowMs hphase
      split at h
      · split at h
        · obtain rfl := some.inj h
          exact hs.replace i _ _ _ (by rw [hphase]; simp) fun _ h => mem_cons_of_mem _ h
        · obtain rfl := some.inj h
          exact hs.replace i _ _ _ (by rw [hphase]; simp) fun _ h => h
      · obtain rfl := some.inj h
        exact hs.replace i _ _ _ (by rw [hphase]; simp) fun _ h => h
    · cases h
  | openLog i =>
    simp only [World.step] at h
    split at h
    · rename_i x nowMs hphase
      obtain rfl := some.inj h
      have hs' : (w.setLog w.log).Settled := ⟨hs.aligned, hs.attributed⟩
      exact hs'.replace i _ _ _ (by simp [World.setLog, hphase]) fun _ h => h
    · cases h
  | write i n =>
    simp only [World.step] at h
    split at h
    · rename_i x rest hphase
      obtain rfl := some.inj h
      exact hs.write hsafe n hphase
    · cases h
  | finish i =>
    simp only [World.step] at h
    split at h
    · rename_i x hphase
      obtain rfl := some.inj h
      have hlock : w.lock = some i := hsafe.holder i (by rw [hphase]; trivial)
      have hsound := hsafe.sound i
      rw [hphase] at hsound
      obtain ⟨base, written, nowMs, hlog, hmod, hrest, -⟩ := hsound
      rw [append_nil] at hrest
      refine ⟨fun _ => ?_, fun y hrec => ?_⟩
      · show w.log.length % 24 = 0
        rw [hlog, hrest, length_append, length_consumedRecord]
        omega
      · -- whoever was about to win an id is `i`, and it has
        obtain hwon | ⟨j, hj⟩ := hs.attributed y hrec
        · exact .inl (mem_cons_of_mem _ hwon)
        · have hheld := hsafe.holder j (by rw [hj]; trivial)
          rw [hlock] at hheld
          obtain rfl := some.inj hheld
          rw [hphase] at hj
          obtain ⟨rfl, -⟩ := Phase.appending.inj hj
          exact .inl mem_cons_self
    · cases h
  | fail i =>
    have hout := fun x rest => hdurable i x rest rfl
    simp only [World.step] at h
    split at h
    all_goals first
      | (obtain rfl := some.inj h; exact hs.replace i _ _ _ hout fun _ h => h)
      | cases h

end World

/-! ## Runs -/

theorem safe_of_reachable {w : World} (hreach : redeemMachine.Reachable w) : w.Safe := by
  refine hreach.invariant ?_ fun _ _ _ hs _ hstep => hs.step hstep
  rintro w ⟨-, -, hreturned, hinst⟩
  refine ⟨?_, ?_, ?_, ?_, ?_⟩
  · simp [hreturned]
  · simp [hreturned]
  all_goals
    intro i
    rw [hinst i]
  · simp
  · exact False.elim
  · trivial

theorem settled_of_reachable {w : World}
    (hreach : redeemMachine.ReachableUnder World.AppendsDurable w) : w.Settled := by
  refine hreach.invariant_of World.Safe (fun w h => safe_of_reachable h.reachable) ?_ ?_
  · rintro w ⟨hlog, -, -, hinst⟩ -
    have hempty : w.log = [] := by rw [World.log, hlog]; rfl
    refine ⟨fun _ => by rw [hempty]; rfl, ?_⟩
    rintro x ⟨k, hk, -⟩
    rw [hempty] at hk
    simp at hk
  · intro w l w' hsafe _ hs hdurable hstep
    exact hs.step hsafe hdurable hstep

/-- **Single redemption.** Over every interleaving of any number of instances and every id:
at most one call ever returns `Ok(true)`, whatever fails. With durable appends, once a call
on the id has returned `Ok`, exactly one call has returned `Ok(true)`, or exactly one has
written its record and can only return `Ok(true)`; and from the first `Ok(true)` on, every
load of the log holds the id, and the log loads whenever no append is under way. -/
theorem single_redemption {w : World}
    (hreach : redeemMachine.ReachableUnder World.AppendsDurable w) (x : BytesN 16) :
    (∀ v, redeemMachine.Reachable v → v.returned.count (x, true) ≤ 1) ∧
    ((∃ b, (x, b) ∈ w.returned) → w.returned.count (x, true) = 1 ∨
      (w.returned.count (x, true) = 0 ∧ ∃! i, (w.instances i).phase = .appending x [])) ∧
    ((∃ b, (x, b) ∈ w.returned) →
      (∀ i, (w.instances i).phase = .closed ∨ (w.instances i).phase = .idle) →
        w.returned.count (x, true) = 1) ∧
    ((x, true) ∈ w.returned →
      (∀ consumed, loadConsumedInvites w.dir = .ok consumed → x ∈ consumed) ∧
      ((∀ i y rest, (w.instances i).phase ≠ .appending y rest) →
        ∃ consumed, loadConsumedInvites w.dir = .ok consumed)) := by
  have hsafe := safe_of_reachable hreach.reachable
  have hs := settled_of_reachable hreach
  have hone : (x, true) ∈ w.returned → w.returned.count (x, true) = 1 := fun hmem =>
    le_antisymm (hsafe.once x) (count_pos_iff.mpr hmem)
  refine ⟨fun v hv => (safe_of_reachable hv).once x, ?_, ?_, ?_⟩
  · rintro ⟨b, hmem⟩
    obtain hwon | ⟨i, hi⟩ := hs.attributed x (hsafe.recorded x b hmem)
    · exact .inl (hone hwon)
    · have hsound := hsafe.sound i
      rw [hi] at hsound
      obtain ⟨-, -, -, -, -, -, -, hnot⟩ := hsound
      refine .inr ⟨count_eq_zero_of_not_mem hnot, i, hi, fun j hj => ?_⟩
      have hheld := hsafe.holder i (by rw [hi]; trivial)
      rw [hsafe.holder j (by rw [hj]; trivial)] at hheld
      exact some.inj hheld
  · rintro ⟨b, hmem⟩ hquiet
    obtain hwon | ⟨i, hi⟩ := hs.attributed x (hsafe.recorded x b hmem)
    · exact hone hwon
    · obtain hclosed | hidle := hquiet i
      · rw [hclosed] at hi; cases hi
      · rw [hidle] at hi; cases hi
  · intro hmem
    refine ⟨fun consumed hload => ?_, fun hnone => loadConsumedInvites_of_aligned (hs.aligned hnone)⟩
    exact ((loadConsumedInvites_eq_ok hload).2 x).mpr (hsafe.recorded x true hmem)

end Dweb

namespace Dweb

attribute [local instance] Sample.crypto

def Sample.inviteId : BytesN 16 := ⟨List.replicate 16 9, List.length_replicate⟩

def Sample.processes : World := ⟨Sample.dir "/shared", none, fun _ => ⟨∅, .closed⟩, []⟩

/-- Both miss on the fast path; the first appends in two writes, the second waits for it. -/
def Sample.race : List RedeemStep :=
  [.start 0, .start 1, .call 0 inviteId 5, .call 1 inviteId 6, .acquire 0, .reload 0, .openLog 0,
    .write 0 10, .write 0 14, .finish 0, .acquire 1, .reload 1]

def Sample.redeemed : World := (redeemMachine.run processes race).getD processes

theorem Sample.redeemed_reachable :
    redeemMachine.ReachableUnder World.AppendsDurable Sample.redeemed := by
  have hrun : redeemMachine.run processes race = some redeemed := by
    have hsome : (redeemMachine.run processes race).isSome = true := by decide
    obtain ⟨w, hw⟩ := Option.isSome_iff_exists.mp hsome
    rw [redeemed, hw]
    rfl
  refine Machine.reachableUnder_run (.init ⟨rfl, rfl, rfl, fun _ => rfl⟩) ?_ hrun
  intro l hl w i x rest hfail
  subst hfail
  simp [race] at hl

theorem two_processes_one_redemption :
    Sample.redeemed.returned = [(Sample.inviteId, false), (Sample.inviteId, true)] ∧
      Sample.redeemed.returned.count (Sample.inviteId, true) ≤ 1 :=
  ⟨by decide, (single_redemption Sample.redeemed_reachable Sample.inviteId).1 _
    Sample.redeemed_reachable.reachable⟩

end Dweb
