import OpenDweb.Fabric.Invites
import OpenDweb.Lib.JsText

/-!
# OpenDweb — the text of a socket address

Two texts of one address: `Display for SocketAddr` of the Rust standard library, and what
`client-sdk/token/index.mjs` puts into `directAddrs`. Both shorten the first longest run of zero
groups; only the first writes the IPv4 address out that an IPv6 address may hold.

* **`formatAddr_eq_display_iff`** — the two texts are one unless the address is such.
-/

namespace Dweb

open List

/-! ## Groups -/

/-- `{:x}`, and `toString(16)`. -/
def hexNat (n : Nat) : String := String.ofList (Nat.toDigits 16 n)

/-- The byte `i` of an address. -/
def octet {n : Nat} (ip : BytesN n) (i : Nat) : Nat := (ip.toBytes.getD i 0).toNat

/-- `segments`: two bytes are a group. -/
def segments (ip : BytesN 16) : List Nat :=
  (List.range 8).map fun i => octet ip (2 * i) * 256 + octet ip (2 * i + 1)

/-- `a.b.c.d`, from byte `i` on. -/
def dotted {n : Nat} (ip : BytesN n) (i : Nat) : String :=
  s!"{octet ip i}.{octet ip (i + 1)}.{octet ip (i + 2)}.{octet ip (i + 3)}"

def joined (groups : List String) : String := ":".intercalate groups

/-! ## The Rust text -/

/-- `Span`. -/
structure Span where
  start : Nat
  len : Nat

namespace Span

/-- One turn of the loop over the groups, with `longest` and `current`. -/
def visit (i segment : Nat) (longest current : Span) : Span × Span :=
  if segment = 0 then
    let start := if current.len = 0 then i else current.start
    let current : Span := ⟨start, current.len + 1⟩
    if longest.len < current.len then (current, current) else (longest, current)
  else (longest, ⟨0, 0⟩)

def loop : Nat → List Nat → Span → Span → Span
  | _, [], longest, _ => longest
  | i, segment :: rest, longest, current =>
    let (longest, current) := visit i segment longest current
    loop (i + 1) rest longest current

end Span

/-- `to_ipv4_mapped().is_some()`. -/
def IsIpv4Mapped (ip : BytesN 16) : Prop :=
  ip.toBytes.take 12 = [0, 0, 0, 0, 0, 0, 0, 0, 0, 0, 0xff, 0xff]

instance (ip : BytesN 16) : Decidable (IsIpv4Mapped ip) := by
  unfold IsIpv4Mapped
  infer_instance

/-- `Display for Ipv6Addr`. -/
def displayIpv6 (ip : BytesN 16) : String :=
  if IsIpv4Mapped ip then "::ffff:" ++ dotted ip 12
  else
    let groups := (segments ip).map hexNat
    let zeroes := Span.loop 0 (segments ip) ⟨0, 0⟩ ⟨0, 0⟩
    if 1 < zeroes.len then
      joined (groups.take zeroes.start) ++ "::" ++ joined (groups.drop (zeroes.start + zeroes.len))
    else joined groups

namespace SocketAddr

/-- `Display for SocketAddr`. -/
def display : SocketAddr → String
  | v4 ip port => dotted ip 0 ++ ":" ++ toString port
  | v6 ip port _ scopeId =>
    if scopeId = 0 then "[" ++ displayIpv6 ip ++ "]:" ++ toString port
    else "[" ++ displayIpv6 ip ++ "%" ++ toString scopeId ++ "]:" ++ toString port

end SocketAddr

/-! ## The JavaScript text -/

/-- The variables of the loop in `formatIpv6`; no start is the source's `-1`. -/
structure ZeroRuns where
  bestStart : Option Nat
  bestLen : Nat
  curStart : Option Nat
  curLen : Nat

namespace ZeroRuns

def visit (i : Nat) (group : String) (runs : ZeroRuns) : ZeroRuns :=
  if group = "0" then
    let curStart := if runs.curStart = none then some i else runs.curStart
    let curLen := runs.curLen + 1
    if runs.bestLen < curLen then ⟨curStart, curLen, curStart, curLen⟩
    else ⟨runs.bestStart, runs.bestLen, curStart, curLen⟩
  else { runs with curStart := none, curLen := 0 }

def loop : Nat → List String → ZeroRuns → ZeroRuns
  | _, [], runs => runs
  | i, group :: rest, runs => loop (i + 1) rest (runs.visit i group)

end ZeroRuns

/-- `formatIpv6`. -/
def formatIpv6 (octets : BytesN 16) : String :=
  let groups := (segments octets).map hexNat
  let runs := ZeroRuns.loop 0 groups ⟨none, 0, none, 0⟩
  if 2 ≤ runs.bestLen then
    let bestStart := runs.bestStart.getD 0
    let head := joined (groups.take bestStart)
    let tail := joined (groups.drop (bestStart + runs.bestLen))
    s!"[{head}::{tail}]"
  else s!"[{joined groups}]"

/-- The text of `decodeInvite` for an address. -/
def formatAddr : SocketAddr → String
  | .v4 ip port => dotted ip 0 ++ ":" ++ toString port
  | .v6 ip port _ _ => formatIpv6 ip ++ ":" ++ toString port

/-! ## The two loops -/

theorem hexNat_eq_zero {n : Nat} : hexNat n = "0" ↔ n = 0 := by
  rw [hexNat, ← String.toList_inj, String.toList_ofList]
  constructor
  · intro h
    have hlen : (Nat.toDigits 16 n).length ≤ 1 := by
      rw [h]
      decide
    have hlt := (Nat.length_toDigits_le_iff (by decide) (by decide)).mp hlen
    rw [Nat.toDigits_of_lt_base hlt] at h
    have hall : ∀ k < 16, [Nat.digitChar k] = ['0'] → k = 0 := by decide
    exact hall n hlt h
  · rintro rfl
    rfl

/-- The variables of the one loop against those of the other. -/
structure ZeroRuns.Matches (runs : ZeroRuns) (longest current : Span) : Prop where
  bestLen : runs.bestLen = longest.len
  bestStart : 0 < longest.len → runs.bestStart = some longest.start
  curLen : runs.curLen = current.len
  curStart : runs.curStart = if current.len = 0 then none else some current.start

theorem ZeroRuns.Matches.visit {runs : ZeroRuns} {longest current : Span}
    (h : runs.Matches longest current) (i segment : Nat) :
    (runs.visit i (hexNat segment)).Matches (Span.visit i segment longest current).1
      (Span.visit i segment longest current).2 := by
  unfold ZeroRuns.visit Span.visit
  by_cases hzero : segment = 0
  · have hstart : (if runs.curStart = none then some i else runs.curStart)
        = some (if current.len = 0 then i else current.start) := by
      rw [h.curStart]
      by_cases hlen : current.len = 0
      · simp only [hlen, if_true]
      · simp only [hlen, if_false, reduceCtorEq]
    simp only [hexNat_eq_zero, hzero, if_true, hstart, h.bestLen, h.curLen]
    by_cases hlonger : longest.len < current.len + 1
    · simp only [hlonger, if_true]
      exact ⟨rfl, fun _ => rfl, rfl, rfl⟩
    · simp only [hlonger, if_false]
      exact ⟨rfl, h.bestStart, rfl, rfl⟩
  · simp only [hexNat_eq_zero, hzero, if_false]
    exact ⟨h.bestLen, h.bestStart, rfl, rfl⟩

theorem ZeroRuns.Matches.loop {runs : ZeroRuns} {longest current : Span}
    (h : runs.Matches longest current) (i : Nat) (groups : List Nat) :
    (ZeroRuns.loop i (groups.map hexNat) runs).bestLen
        = (Span.loop i groups longest current).len
      ∧ (0 < (Span.loop i groups longest current).len →
        (ZeroRuns.loop i (groups.map hexNat) runs).bestStart
          = some (Span.loop i groups longest current).start) := by
  induction groups generalizing i runs longest current with
  | nil => exact ⟨h.bestLen, h.bestStart⟩
  | cons segment rest ih => exact ih (h.visit i segment) (i + 1)

theorem formatIpv6_eq {ip : BytesN 16} (h : ¬IsIpv4Mapped ip) :
    formatIpv6 ip = "[" ++ displayIpv6 ip ++ "]" := by
  have hstart : (⟨none, 0, none, 0⟩ : ZeroRuns).Matches ⟨0, 0⟩ ⟨0, 0⟩ :=
    ⟨rfl, fun hlt => absurd hlt (Nat.lt_irrefl 0), rfl, rfl⟩
  obtain ⟨hlen, hbest⟩ := hstart.loop 0 (segments ip)
  unfold formatIpv6 displayIpv6
  simp only [h, if_false, hlen]
  by_cases hlong : 1 < (Span.loop 0 (segments ip) ⟨0, 0⟩ ⟨0, 0⟩).len
  · have hlong' : 2 ≤ (Span.loop 0 (segments ip) ⟨0, 0⟩ ⟨0, 0⟩).len := hlong
    simp only [hlong, hlong', if_true, hbest (Nat.zero_lt_of_lt hlong), Option.getD_some]
    simp only [toString, String.append_assoc]
  · have hlong' : ¬2 ≤ (Span.loop 0 (segments ip) ⟨0, 0⟩ ⟨0, 0⟩).len := hlong
    simp only [hlong, hlong', if_false]
    simp only [toString]

/-! ## The dots -/

theorem not_mem_toDigits {c : Char} (hc : ∀ d < 16, Nat.digitChar d ≠ c) (n : Nat) :
    c ∉ Nat.toDigits 16 n :=
  fun hmem => forall_mem_toDigits (p := (· ≠ c)) (by decide) hc n c hmem rfl

theorem not_mem_joined {c : Char} (hcolon : c ≠ ':') {groups : List String}
    (h : ∀ group ∈ groups, c ∉ group.toList) : c ∉ (joined groups).toList := by
  have hsep : c ∉ ":".toList := fun hmem => hcolon (mem_singleton.mp hmem)
  induction groups with
  | nil => exact not_mem_nil
  | cons group rest ih =>
    obtain ⟨hgroup, hrest⟩ := forall_mem_cons.mp h
    cases rest with
    | nil =>
      rw [joined, String.intercalate_singleton]
      exact hgroup
    | cons next rest =>
      rw [joined, String.intercalate_cons_cons]
      simp only [String.toList_append, mem_append, not_or]
      exact ⟨⟨hgroup, hsep⟩, ih hrest⟩

theorem dot_not_mem_formatIpv6 (ip : BytesN 16) : '.' ∉ (formatIpv6 ip).toList := by
  have hgroups : ∀ group ∈ (segments ip).map hexNat, '.' ∉ group.toList := by
    intro group hmem
    obtain ⟨n, -, rfl⟩ := mem_map.mp hmem
    rw [hexNat, String.toList_ofList]
    exact not_mem_toDigits (by decide) n
  have hjoined : ∀ groups, groups ⊆ (segments ip).map hexNat → '.' ∉ (joined groups).toList :=
    fun groups hsub => not_mem_joined (by decide) fun group hmem => hgroups group (hsub hmem)
  have hopen : '.' ∉ "[".toList := by decide
  have hclose : '.' ∉ "]".toList := by decide
  have hcolons : '.' ∉ "::".toList := by decide
  unfold formatIpv6
  simp only [toString]
  split
  · simp only [String.toList_append, mem_append, not_or]
    exact ⟨⟨⟨⟨hopen, hjoined _ (take_subset _ _)⟩, hcolons⟩,
      hjoined _ (drop_subset _ _)⟩, hclose⟩
  · simp only [String.toList_append, mem_append, not_or]
    exact ⟨⟨hopen, hjoined _ (List.Subset.refl _)⟩, hclose⟩

def SocketAddr.Ipv4Mapped : SocketAddr → Prop
  | v4 _ _ => False
  | v6 ip _ _ _ => IsIpv4Mapped ip

instance (addr : SocketAddr) : Decidable addr.Ipv4Mapped := by
  cases addr <;> unfold SocketAddr.Ipv4Mapped <;> infer_instance

theorem SocketAddr.ipv4Mapped_carried (addr : SocketAddr) :
    addr.carried.Ipv4Mapped ↔ addr.Ipv4Mapped := by
  cases addr <;> rfl

/-- **The texts of an address that a decoder has read.** -/
theorem formatAddr_eq_display_iff {addr : SocketAddr} (h : addr.carried = addr) :
    formatAddr addr = addr.display ↔ ¬addr.Ipv4Mapped := by
  cases addr with
  | v4 ip port => exact iff_of_true rfl id
  | v6 ip port flowinfo scopeId =>
    obtain ⟨-, rfl⟩ : 0 = flowinfo ∧ 0 = scopeId := by
      simpa only [SocketAddr.carried, SocketAddr.v6.injEq, true_and] using h
    have hdisplay : (SocketAddr.v6 ip port flowinfo 0).display
        = "[" ++ displayIpv6 ip ++ "]:" ++ toString port := by
      rw [SocketAddr.display, if_pos rfl]
    rw [hdisplay, formatAddr, SocketAddr.Ipv4Mapped]
    have hport : "]:" = "]" ++ ":" := by decide
    rw [hport, ← String.append_assoc, String.append_left_inj, String.append_left_inj]
    constructor
    · intro heq hmapped
      -- the Rust text has the dots of the IPv4 address
      have hdot : '.' ∈ ("[" ++ displayIpv6 ip ++ "]").toList := by
        have hdotted : '.' ∈ (dotted ip 12).toList := by
          have hsep : '.' ∈ ".".toList := by decide
          unfold dotted
          simp only [toString, String.toList_append, mem_append, hsep, or_true, true_or]
        simp only [displayIpv6, if_pos hmapped, String.toList_append, mem_append, hdotted,
          or_true, true_or]
      exact dot_not_mem_formatIpv6 ip (heq ▸ hdot)
    · exact formatIpv6_eq

-- the same address in the two forms
example : formatIpv6 ⟨[0, 0, 0, 0, 0, 0, 0, 0, 0, 0, 0xff, 0xff, 192, 0, 2, 1], rfl⟩
    = "[::ffff:c000:201]" := by decide +kernel
example : displayIpv6 ⟨[0, 0, 0, 0, 0, 0, 0, 0, 0, 0, 0xff, 0xff, 192, 0, 2, 1], rfl⟩
    = "::ffff:192.0.2.1" := by decide +kernel

end Dweb
