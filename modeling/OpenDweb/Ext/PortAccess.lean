import OpenDweb.Ext.PeerId
import OpenDweb.Lib.Machine

/-!
# OpenDweb — who may reach a port

The ledger of `opendweb-ext-ports/src/ledger.mjs` that pairs peers with the ports they may reach.
The decision compares keys, whatever their spelling; the two operations compare spellings.

* **`grantAccess`**, **`revokeAccess`**, **`isAccessAllowed`** — over the entries of the ledger.
* **`portAccessMachine`** — calls that spell each key either way, beside what was last said of it.
* **`port_access_effective`** — the two spellings name one key, in every copy of the reader; and
  access follows what was last said exactly in the runs in which no revocation leaves an entry of
  the other spelling.
-/

namespace Dweb

/-! ## The ledger -/

def MIN_PORT : Nat := 1
def MAX_PORT : Nat := 65535
def PEER_MAX : Nat := 128

def isValidPort (port : Nat) : Bool := MIN_PORT ≤ port ∧ port ≤ MAX_PORT

structure AllowEntry where
  peer : List Char
  remotePort : Nat
  deriving DecidableEq

inductive AccessError where
  | invalid (error : String)
  | lock
  | thrown
  deriving DecidableEq

/-- How `mutateAllowlist` ends: written, without the lock, or with an exception before the new file
is renamed into its place. -/
inductive MutateEnd where
  | ok
  | lock
  | thrown
  deriving DecidableEq

/-- `mutateAllowlist`: the entries as they are read under the lock, changed and written. -/
def mutateAllowlist (entries : List AllowEntry) (fn : List AllowEntry → List AllowEntry)
    (o : MutateEnd) : List AllowEntry × Except AccessError Unit :=
  match o with
  | .ok => (fn entries, .ok ())
  | .lock => (entries, .error .lock)
  | .thrown => (entries, .error .thrown)

def grantAccess (entries : List AllowEntry) (peer : List Char) (remotePort : Nat) (o : MutateEnd) :
    List AllowEntry × Except AccessError Unit :=
  if peer = [] ∨ PEER_MAX < utf16Length (String.ofList peer) then
    (entries, .error (.invalid "peer must be a non-empty endpointId string"))
  else if isValidPort remotePort = false then
    (entries, .error (.invalid s!"remotePort must be an integer in [{MIN_PORT}, {MAX_PORT}]"))
  else
    mutateAllowlist entries
      (fun entries =>
        if ⟨peer, remotePort⟩ ∈ entries then entries else entries ++ [⟨peer, remotePort⟩]) o

/-- `revokeAccess`, which checks nothing of its arguments. -/
def revokeAccess (entries : List AllowEntry) (peer : List Char) (remotePort : Nat) (o : MutateEnd) :
    List AllowEntry × Except AccessError Unit :=
  mutateAllowlist entries (fun entries => entries.filter fun e => e ≠ ⟨peer, remotePort⟩) o

def isAccessAllowed (entries : List AllowEntry) (peer : List Char) (remotePort : Nat) : Bool :=
  let wanted := Ports.normalizePeerId peer
  entries.any fun e => Ports.normalizePeerId e.peer = wanted ∧ e.remotePort = remotePort

/-! ## Calls -/

structure AccessCall where
  grants : Bool
  key : BytesN 32
  spelling : Spelling
  remotePort : Nat
  ending : MutateEnd

/-- The ledger, and of each key and port whether the last successful call granted access. -/
structure PortAccessState where
  entries : List AllowEntry
  told : BytesN 32 → Nat → Bool

def AccessCall.exec (c : AccessCall) (entries : List AllowEntry) :
    List AllowEntry × Except AccessError Unit :=
  if c.grants then grantAccess entries (c.spelling.spell c.key) c.remotePort c.ending
  else revokeAccess entries (c.spelling.spell c.key) c.remotePort c.ending

def PortAccessState.step (s : PortAccessState) (c : AccessCall) : PortAccessState :=
  match c.exec s.entries with
  | (entries, .ok ()) =>
    { entries
      told := fun key remotePort =>
        if key = c.key ∧ remotePort = c.remotePort then c.grants else s.told key remotePort }
  | (entries, .error _) => { s with entries }

def portAccessMachine : Machine PortAccessState AccessCall where
  init s := s = { entries := [], told := fun _ _ => false }
  step s c := some (s.step c)

def PortAccessState.Effective (s : PortAccessState) : Prop :=
  ∀ (key : BytesN 32) (e : Spelling) (remotePort : Nat),
    isAccessAllowed s.entries (e.spell key) remotePort = true ↔ s.told key remotePort = true

def Spelling.other : Spelling → Spelling
  | .hex => .z32
  | .z32 => .hex

/-- A revocation that succeeds finds no entry for the key and the port in the other spelling. -/
def RevokesAll (s : PortAccessState) (c : AccessCall) : Prop :=
  c.grants = false → c.ending = .ok → ⟨c.spelling.other.spell c.key, c.remotePort⟩ ∉ s.entries

instance (s : PortAccessState) (c : AccessCall) : Decidable (RevokesAll s c) := by
  unfold RevokesAll
  infer_instance

/-! ## One call -/

def Spelled (entries : List AllowEntry) : Prop :=
  ∀ entry ∈ entries, ∃ (e : Spelling) (key : BytesN 32), entry.peer = e.spell key

theorem isAccessAllowed_spell {entries : List AllowEntry} (h : Spelled entries) (key : BytesN 32)
    (e : Spelling) (remotePort : Nat) :
    isAccessAllowed entries (e.spell key) remotePort = true
      ↔ ∃ e' : Spelling, ⟨e'.spell key, remotePort⟩ ∈ entries := by
  simp only [isAccessAllowed, Ports.normalizePeerId, normalizePeerId_spell, List.any_eq_true,
    decide_eq_true_eq]
  constructor
  · rintro ⟨entry, hmem, hpeer, hport⟩
    obtain ⟨e', key', hspell⟩ := h entry hmem
    rw [hspell, normalizePeerId_spell] at hpeer
    obtain rfl := hexForm_injective hpeer
    refine ⟨e', ?_⟩
    rw [← hspell, ← hport]
    exact hmem
  · rintro ⟨e', hmem⟩
    exact ⟨_, hmem, normalizePeerId_spell e' key, rfl⟩

def AccessCall.entry (c : AccessCall) : AllowEntry := ⟨c.spelling.spell c.key, c.remotePort⟩

theorem AccessCall.exec_cases (c : AccessCall) (entries : List AllowEntry) :
    (∃ e, c.exec entries = (entries, .error e) ∧ (c.grants = true ∨ c.ending ≠ .ok))
      ∨ ∃ entries', c.exec entries = (entries', .ok ()) ∧ c.ending = .ok
        ∧ ∀ x, x ∈ entries' ↔
          if c.grants then x ∈ entries ∨ x = c.entry else x ∈ entries ∧ x ≠ c.entry := by
  have hmutate : ∀ {fn : List AllowEntry → List AllowEntry}, c.ending ≠ .ok →
      ∃ e, mutateAllowlist entries fn c.ending = (entries, .error e) := by
    intro fn hending
    cases h : c.ending with
    | ok => exact absurd h hending
    | lock => exact ⟨.lock, rfl⟩
    | thrown => exact ⟨.thrown, rfl⟩
  unfold exec
  cases hgrants : c.grants with
  | true =>
    rw [if_pos rfl, grantAccess]
    split
    · exact Or.inl ⟨_, rfl, Or.inl rfl⟩
    · split
      · exact Or.inl ⟨_, rfl, Or.inl rfl⟩
      · by_cases hending : c.ending = .ok
        · refine Or.inr ⟨_, by rw [hending]; rfl, hending, fun x => ?_⟩
          rw [if_pos rfl]
          dsimp only
          split
          · next hmem => exact ⟨Or.inl, fun h => h.elim id fun heq => heq ▸ hmem⟩
          · rw [List.mem_append, List.mem_singleton]
            rfl
        · obtain ⟨e, he⟩ := hmutate hending
          exact Or.inl ⟨e, he, Or.inl rfl⟩
  | false =>
    rw [if_neg Bool.false_ne_true, revokeAccess]
    by_cases hending : c.ending = .ok
    · refine Or.inr ⟨_, by rw [hending]; rfl, hending, fun x => ?_⟩
      rw [if_neg Bool.false_ne_true, List.mem_filter, decide_eq_true_eq]
      rfl
    · obtain ⟨e, he⟩ := hmutate hending
      exact Or.inl ⟨e, he, Or.inr hending⟩

theorem PortAccessState.step_spelled {s : PortAccessState} (h : Spelled s.entries)
    (c : AccessCall) : Spelled (s.step c).entries := by
  unfold PortAccessState.step
  obtain ⟨e, he, -⟩ | ⟨entries', he, -, hmem⟩ := c.exec_cases s.entries
  · rw [he]
    exact h
  · rw [he]
    intro entry hentry
    have hentry := (hmem entry).mp hentry
    split at hentry
    · rcases hentry with hold | rfl
      · exact h entry hold
      · exact ⟨c.spelling, c.key, rfl⟩
    · exact h entry hentry.1

theorem spelled_eq_entry {e : Spelling} {key : BytesN 32} {remotePort : Nat} {c : AccessCall}
    (h : (⟨e.spell key, remotePort⟩ : AllowEntry) = c.entry) :
    e = c.spelling ∧ key = c.key ∧ remotePort = c.remotePort := by
  obtain ⟨hpeer, hport⟩ := AllowEntry.mk.inj h
  by_cases he : e = c.spelling
  · subst he
    exact ⟨rfl, spell_injective hpeer, hport⟩
  · exact absurd hpeer (spell_ne he _ _)

/-- **After a call access is effective exactly if it was no revocation that leaves the other
spelling.** -/
theorem PortAccessState.step_effective {s : PortAccessState} (hspelled : Spelled s.entries)
    (h : s.Effective) (c : AccessCall) : (s.step c).Effective ↔ RevokesAll s c := by
  have hspelled' := PortAccessState.step_spelled hspelled c
  have hiff : (s.step c).Effective ↔ ∀ (key : BytesN 32) (remotePort : Nat),
      (∃ e : Spelling, ⟨e.spell key, remotePort⟩ ∈ (s.step c).entries)
        ↔ (s.step c).told key remotePort = true :=
    ⟨fun heff key remotePort =>
        (isAccessAllowed_spell hspelled' key .hex remotePort).symm.trans (heff key .hex remotePort),
      fun hall key e remotePort =>
        (isAccessAllowed_spell hspelled' key e remotePort).trans (hall key remotePort)⟩
  have hbefore : ∀ (key : BytesN 32) (remotePort : Nat),
      (∃ e : Spelling, ⟨e.spell key, remotePort⟩ ∈ s.entries) ↔ s.told key remotePort = true :=
    fun key remotePort =>
      (isAccessAllowed_spell hspelled key .hex remotePort).symm.trans (h key .hex remotePort)
  rw [hiff]
  unfold PortAccessState.step
  obtain ⟨err, he, hwhy⟩ | ⟨entries', he, hending, hmem⟩ := c.exec_cases s.entries
  · rw [he]
    refine iff_of_true hbefore fun hgrants hok => ?_
    rcases hwhy with hgrants' | hending
    · rw [hgrants] at hgrants'
      cases hgrants'
    · exact absurd hok hending
  · rw [he]
    dsimp only
    -- an entry of another key or port is as it was
    have hother : ∀ {key : BytesN 32} {remotePort : Nat},
        ¬(key = c.key ∧ remotePort = c.remotePort) → ∀ e : Spelling,
        (⟨e.spell key, remotePort⟩ : AllowEntry) ∈ entries'
          ↔ ⟨e.spell key, remotePort⟩ ∈ s.entries := by
      intro key remotePort hne e
      have hentry : (⟨e.spell key, remotePort⟩ : AllowEntry) ≠ c.entry := by
        intro heq
        exact hne (spelled_eq_entry heq).2
      rw [hmem]
      split
      · exact or_iff_left hentry
      · exact and_iff_left hentry
    cases hgrants : c.grants with
    | true =>
      refine iff_of_true (fun key remotePort => ?_) fun hfalse _ => ?_
      · by_cases hkey : key = c.key ∧ remotePort = c.remotePort
        · obtain ⟨rfl, rfl⟩ := hkey
          rw [if_pos ⟨rfl, rfl⟩]
          refine iff_of_true ⟨c.spelling, (hmem _).mpr ?_⟩ rfl
          rw [if_pos hgrants]
          exact Or.inr rfl
        · rw [if_neg hkey, ← hbefore]
          exact exists_congr (hother hkey)
      · rw [hgrants] at hfalse
        cases hfalse
    | false =>
      have hleft : ∀ e : Spelling, (⟨e.spell c.key, c.remotePort⟩ : AllowEntry) ∈ entries'
          ↔ e = c.spelling.other ∧ ⟨e.spell c.key, c.remotePort⟩ ∈ s.entries := by
        intro e
        rw [hmem, if_neg (by rw [hgrants]; exact Bool.false_ne_true)]
        have hne : (⟨e.spell c.key, c.remotePort⟩ : AllowEntry) ≠ c.entry
            ↔ e = c.spelling.other := by
          have hsame : (⟨e.spell c.key, c.remotePort⟩ : AllowEntry) = c.entry ↔ e = c.spelling :=
            ⟨fun heq => (spelled_eq_entry heq).1, fun heq => by rw [heq, AccessCall.entry]⟩
          rw [ne_eq, hsame]
          cases e <;> cases c.spelling <;> decide
        rw [hne, and_comm]
      constructor
      · intro hall _ _ hin
        have hfalse := (hall c.key c.remotePort).mp ⟨c.spelling.other, (hleft _).mpr ⟨rfl, hin⟩⟩
        rw [if_pos ⟨rfl, rfl⟩] at hfalse
        cases hfalse
      · intro hrevokes key remotePort
        by_cases hkey : key = c.key ∧ remotePort = c.remotePort
        · obtain ⟨rfl, rfl⟩ := hkey
          rw [if_pos ⟨rfl, rfl⟩]
          refine iff_of_false ?_ Bool.false_ne_true
          rintro ⟨e, hin⟩
          obtain ⟨rfl, hin⟩ := (hleft e).mp hin
          exact hrevokes hgrants hending hin
        · rw [if_neg hkey, ← hbefore]
          exact exists_congr (hother hkey)

/-- **Two spellings, one key**: the printed form is the hexadecimal one regrouped, every reader
takes it back, different keys stay different, and the copies agree on every text. **Access is
effective** in every state of a run exactly if each revocation that succeeds leaves no entry of the
other spelling. -/
theorem port_access_effective (s₀ s : PortAccessState) (cs : List AccessCall) :
    (∀ key : BytesN 32, hexToZ32 (hexForm key) = toZ32 key
      ∧ z32ToHex (toZ32 key) = .ok (hexForm key)
      ∧ ∀ normalize ∈ [Ports.normalizePeerId, Files.normalizePeerId, Sync.normalizePeerId],
        normalize (toZ32 key) = hexForm key ∧ normalize (hexForm key) = hexForm key)
    ∧ (∀ normalize ∈ [Ports.normalizePeerId, Files.normalizePeerId, Sync.normalizePeerId],
      ∀ (e e' : Spelling) (key key' : BytesN 32),
        normalize (e.spell key) = normalize (e'.spell key') → key = key')
    ∧ (∀ peer : List Char, Ports.normalizePeerId peer = Files.normalizePeerId peer
      ∧ Files.normalizePeerId peer = Sync.normalizePeerId peer)
    ∧ (portAccessMachine.init s₀ → portAccessMachine.run s₀ cs = some s →
      ((∀ k t, portAccessMachine.run s₀ (cs.take k) = some t → t.Effective)
        ↔ portAccessMachine.runUnder RevokesAll s₀ cs = some s)) := by
  have hcopies : ∀ normalize ∈
      [Ports.normalizePeerId, Files.normalizePeerId, Sync.normalizePeerId],
      normalize = normalizePeerId := by
    intro normalize hmem
    simp only [List.mem_cons, List.not_mem_nil, or_false] at hmem
    rcases hmem with rfl | rfl | rfl <;> rfl
  refine ⟨fun key => ⟨hexToZ32_hexForm key, z32ToHex_toZ32 key, fun normalize hmem => ?_⟩,
    fun normalize hmem e e' key key' heq => ?_, fun _ => ⟨rfl, rfl⟩, fun hinit hrun => ?_⟩
  · rw [hcopies normalize hmem]
    exact ⟨normalizePeerId_spell .z32 key, normalizePeerId_spell .hex key⟩
  · rw [hcopies normalize hmem, normalizePeerId_spell, normalizePeerId_spell] at heq
    exact hexForm_injective heq
  · subst hinit
    have hstart : Spelled [] := nofun
    refine Machine.forall_take_iff (I := fun t => Spelled t.entries ∧ t.Effective) ?_ ?_
      ⟨hstart, ?_⟩ ?_ hrun
    · intro t c t' ht hstep
      cases hstep
      exact t.step_effective ht.1 ht.2 c
    · intro t c t' ht hstep heff
      cases hstep
      exact ⟨t.step_spelled ht.1 c, heff⟩
    · exact fun key e remotePort => iff_of_false (by simp [isAccessAllowed]) Bool.false_ne_true
    · exact fun key e remotePort => iff_of_false (by simp [isAccessAllowed]) Bool.false_ne_true

/-! ## One key, granted and revoked -/

namespace SampleAccess

def key : BytesN 32 := BytesN.ofNat 32 0

def start : PortAccessState := { entries := [], told := fun _ _ => false }

def call (grants : Bool) (spelling : Spelling) : AccessCall :=
  { grants, key, spelling, remotePort := 8080, ending := .ok }

theorem revoked_as_granted :
    ∃ s, portAccessMachine.run start [call true .hex, call false .hex] = some s
      ∧ isAccessAllowed s.entries (toZ32 key) 8080 = false := by
  have hgranted : (start.step (call true .hex)).entries = [⟨hexForm key, 8080⟩] := by
    decide +kernel
  have hgrant : RevokesAll start (call true .hex) := nofun
  have hrevoke : RevokesAll (start.step (call true .hex)) (call false .hex) := by
    intro _ _ hmem
    rw [hgranted, List.mem_singleton] at hmem
    have hpeer : Spelling.z32.spell key = Spelling.hex.spell key := (AllowEntry.mk.inj hmem).1
    exact spell_ne (by decide) key key hpeer
  have hrun : ∃ s, portAccessMachine.run start [call true .hex, call false .hex] = some s
      ∧ portAccessMachine.runUnder RevokesAll start [call true .hex, call false .hex] = some s
      ∧ s.told key 8080 = false := by
    refine ⟨_, rfl, ?_, rfl⟩
    simp only [Machine.runUnder, if_pos hgrant, portAccessMachine, Option.bind_some, if_pos hrevoke]
  obtain ⟨s, hrun, hunder, htold⟩ := hrun
  obtain ⟨-, -, -, hruns⟩ :=
    port_access_effective start s [call true .hex, call false .hex]
  have heffective : s.Effective :=
    (hruns rfl hrun).mpr hunder 2 s hrun
  refine ⟨s, hrun, Bool.eq_false_of_not_eq_true fun hallowed => ?_⟩
  rw [(heffective key .z32 8080).mp hallowed] at htold
  cases htold

theorem revoked_otherwise_allowed :
    ∃ s, portAccessMachine.Reachable s ∧ s.told key 8080 = false
      ∧ isAccessAllowed s.entries (toZ32 key) 8080 = true := by
  have hrun : ∃ s, portAccessMachine.run start [call true .hex, call false .z32] = some s
      ∧ s.told key 8080 = false ∧ s.entries = [⟨hexForm key, 8080⟩] :=
    ⟨_, rfl, rfl, by decide +kernel⟩
  obtain ⟨s, hrun, htold, hentries⟩ := hrun
  have hinit : portAccessMachine.init start := rfl
  refine ⟨s, Machine.reachable_of_run hinit hrun, htold, ?_⟩
  have hspelled : Spelled s.entries := by
    rw [hentries]
    exact List.forall_mem_singleton.mpr ⟨.hex, key, rfl⟩
  refine (isAccessAllowed_spell hspelled key .z32 8080).mpr ⟨.hex, ?_⟩
  rw [hentries]
  exact List.mem_singleton_self _

end SampleAccess

end Dweb
