import OpenDweb.Server.Cap
import OpenDweb.Server.Registry

/-!
# OpenDweb — the rendezvous registry

Embedding of `handle_announce` of `dweb-server/src/rendezvous.rs`: a node announces its addresses
under its own signature, for a limited time.

* **`announceCanonicalBytes`** — what the node signs.
* **`handleAnnounce_eq_ok`** — what is accepted, and what the registry then holds.
-/

namespace Dweb

open Std (ExtTreeMap)

namespace Rendezvous

def TIMESTAMP_WINDOW_MS : UInt64 := 120000
def MAX_TTL_SECS : UInt64 := 3600

/-- `b"dweb-rendezvous-announce-v1\0"`. -/
def ANNOUNCE_DOMAIN : Bytes :=
  [100, 119, 101, 98, 45, 114, 101, 110, 100, 101, 122, 118, 111, 117, 115, 45, 97, 110, 110, 111,
    117, 110, 99, 101, 45, 118, 49, 0]

inductive RendezvousError where
  | invalidEndpointId
  | invalidSignature
  | staleTimestamp
  | ttlTooLarge
  | idMismatch
  | invalidAddr
  | aclDenied (reason : String)
  deriving DecidableEq

namespace RendezvousError

/-- The text that `thiserror` derives. -/
def display : RendezvousError → String
  | invalidEndpointId => "invalid endpoint id: expected 64-char hex"
  | invalidSignature => "invalid signature"
  | staleTimestamp => "timestamp out of window"
  | ttlTooLarge => s!"ttl exceeds maximum {MAX_TTL_SECS}s"
  | idMismatch => "endpoint id mismatch between path and body"
  | invalidAddr => "invalid address entry"
  | aclDenied reason => reason

def status : RendezvousError → Nat
  | invalidEndpointId => 400
  | idMismatch => 400
  | invalidAddr => 400
  | invalidSignature => 401
  | staleTimestamp => 401
  | ttlTooLarge => 400
  | aclDenied _ => 401

end RendezvousError

structure AnnounceRequest where
  endpointId : String
  addrs : List String
  ttlSecs : UInt64
  timestampMs : UInt64
  signature : String

structure Entry where
  addrs : List String
  expiresAtMs : UInt64

/-- What is announced now. -/
abbrev Entries := ExtTreeMap (BytesN 32) Entry

def addrField (addr : String) : Bytes := leBytes 2 (utf8Bytes addr).length ++ utf8Bytes addr

/-- `announce_canonical_bytes`. The two lengths and the count are cast to `u16`. -/
def announceCanonicalBytes (endpointId : BytesN 32) (timestampMs : UInt64) (addrs : List String)
    (ttlSecs : UInt32) : Bytes :=
  ANNOUNCE_DOMAIN ++ (endpointId.toBytes ++ (leBytes 8 timestampMs.toNat
    ++ (leBytes 2 addrs.length ++ (addrs.flatMap addrField ++ leBytes 4 ttlSecs.toNat))))

/-- `decode_endpoint_id`. -/
def decodeEndpointId (s : String) : Except RendezvousError (BytesN 32) := do
  let bytes ← (hexDecode s).mapError fun _ => .invalidEndpointId
  okOr (BytesN.ofBytes? 32 bytes) .invalidEndpointId

/-- The addresses that `handle_announce` lets through. -/
def addrsAllowed (addrs : List String) : Bool :=
  !addrs.isEmpty && addrs.all fun addr => !addr.isEmpty && (utf8Bytes addr).length ≤ 512

def ttlAllowed (ttlSecs : UInt64) : Bool := ttlSecs ≠ 0 && ttlSecs ≤ MAX_TTL_SECS

section

variable [ServerCrypto]

/-- `handle_announce`, at the time `now`. -/
def handleAnnounce (entries : Entries) (idBytes : BytesN 32) (req : AnnounceRequest)
    (now : UInt64) : Except RendezvousError Entries := do
  if ¬addrsAllowed req.addrs then throw .invalidAddr
  if ¬ttlAllowed req.ttlSecs then throw .ttlTooLarge
  if absDiff req.timestampMs now > TIMESTAMP_WINDOW_MS then throw .staleTimestamp
  let canonical := announceCanonicalBytes idBytes req.timestampMs req.addrs req.ttlSecs.toUInt32
  let sigBytes ← okOr (base64Decode req.signature) .invalidSignature
  let signature ← okOr (BytesN.ofBytes? 64 sigBytes) .invalidSignature
  if ¬ServerCrypto.isVerifyingKey idBytes then throw .invalidEndpointId
  if ¬ServerCrypto.verifies idBytes canonical signature then throw .invalidSignature
  return entries.insert idBytes
    { addrs := req.addrs, expiresAtMs := now + req.ttlSecs * 1000 }

/-- What `resolve` finds of an endpoint at the time `now`. -/
def resolve (entries : Entries) (idBytes : BytesN 32) (now : UInt64) : Option Entry :=
  entries[idBytes]?.filter fun entry => now < entry.expiresAtMs

/-- **What is accepted of an announcement.** -/
theorem handleAnnounce_eq_ok {entries entries' : Entries} {idBytes : BytesN 32}
    {req : AnnounceRequest} {now : UInt64} :
    handleAnnounce entries idBytes req now = .ok entries'
      ↔ addrsAllowed req.addrs = true ∧ ttlAllowed req.ttlSecs = true
        ∧ absDiff req.timestampMs now ≤ TIMESTAMP_WINDOW_MS
        ∧ (∃ sigBytes signature, base64Decode req.signature = some sigBytes
          ∧ BytesN.ofBytes? 64 sigBytes = some signature
          ∧ ServerCrypto.isVerifyingKey idBytes = true
          ∧ ServerCrypto.verifies idBytes (announceCanonicalBytes idBytes req.timestampMs req.addrs
            req.ttlSecs.toUInt32) signature = true)
        ∧ entries' = entries.insert idBytes
          { addrs := req.addrs, expiresAtMs := now + req.ttlSecs * 1000 } := by
  simp only [handleAnnounce, bind_eq_ok, ite_throw_eq_ok, okOr_eq_ok, pure_eq_ok, not_not]
  constructor
  · rintro ⟨haddrs, httl, hnow, sigBytes, hbytes, signature, hsig, hkey, hverifies, rfl⟩
    exact ⟨haddrs, httl, not_lt.mp hnow, ⟨sigBytes, signature, hbytes, hsig, hkey, hverifies⟩, rfl⟩
  · rintro ⟨haddrs, httl, hnow, ⟨sigBytes, signature, hbytes, hsig, hkey, hverifies⟩, rfl⟩
    exact ⟨haddrs, httl, not_lt.mpr hnow, sigBytes, hbytes, signature, hsig, hkey, hverifies, rfl⟩

end

end Rendezvous

end Dweb
