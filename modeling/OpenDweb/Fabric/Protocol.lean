import OpenDweb.Lib.Except
import OpenDweb.Lib.Hex

/-!
# OpenDweb — membership facts and their canonical bytes

Embedding of the fact part of `dweb-fabric/src/protocol.rs`: the canonical layout of a
`Fact`, its content address, the strict parser, and the signed wire frames the roster
persists. Errors carry the source's texts.

The primitives that live outside the repository are the fields of `Crypto`: BLAKE3, the
Ed25519 key check behind `EndpointId::from_bytes`, signing and verification. Nothing is
assumed about them here.
-/

namespace Dweb

/-! ## Errors -/

/-- `ProtocolError`, the two variants the fact codec raises. -/
inductive ProtocolError where
  | encoding (message : String)
  | quarantine (reason : String)
deriving DecidableEq

namespace ProtocolError

/-- `Display for ProtocolError`. -/
def display : ProtocolError → String
  | encoding message => s!"canonical encoding error: {message}"
  | quarantine reason => s!"quarantine: {reason}"

end ProtocolError

def debugBytes (bytes : Bytes) : String :=
  "[" ++ ", ".intercalate (bytes.map fun b => toString b.toNat) ++ "]"

/-! ## Layout constants -/

/-- `b"dweb/fact/v1\0"`. -/
def FACT_DOMAIN : Bytes := [100, 119, 101, 98, 47, 102, 97, 99, 116, 47, 118, 49, 0]

/-- `b"dweb/fact-unrepresentable/v1\0"`. -/
def FACT_UNREPRESENTABLE : Bytes :=
  [100, 119, 101, 98, 47, 102, 97, 99, 116, 45, 117, 110, 114, 101, 112, 114, 101, 115, 101, 110,
    116, 97, 98, 108, 101, 47, 118, 49, 0]

def MAX_NAME_BYTES : Nat := 512
def FACT_FIXED_LEN : Nat := 119
def SIGNATURE_LENGTH : Nat := 64

def KIND_GENESIS : UInt8 := 1
def KIND_GRANT : UInt8 := 2
def KIND_JOIN : UInt8 := 3
def KIND_REVOKE : UInt8 := 4

def FLAG_HAS_NAME : UInt8 := 0b001
def FLAG_HAS_EXPIRY : UInt8 := 0b010
def FLAG_HAS_TARGET : UInt8 := 0b100

/-! ## Fact kinds -/

inductive FactKind where
  | genesis
  | grant
  | join
  | revoke
deriving DecidableEq

namespace FactKind

def asU8 : FactKind → UInt8
  | genesis => KIND_GENESIS
  | grant => KIND_GRANT
  | join => KIND_JOIN
  | revoke => KIND_REVOKE

def fromU8 (v : UInt8) : Option FactKind :=
  if v = KIND_GENESIS then some genesis
  else if v = KIND_GRANT then some grant
  else if v = KIND_JOIN then some join
  else if v = KIND_REVOKE then some revoke
  else none

/-- `Debug for FactKind`. -/
def debug : FactKind → String
  | genesis => "Genesis"
  | grant => "Grant"
  | join => "Join"
  | revoke => "Revoke"

@[simp] theorem fromU8_asU8 (k : FactKind) : fromU8 k.asU8 = some k := by
  cases k <;> rfl

theorem fromU8_eq_some {v : UInt8} {k : FactKind} (h : fromU8 v = some k) : k.asU8 = v := by
  unfold fromU8 at h
  split at h
  · cases h; simp_all [asU8]
  · split at h
    · cases h; simp_all [asU8]
    · split at h
      · cases h; simp_all [asU8]
      · split at h
        · cases h; simp_all [asU8]
        · cases h

end FactKind

/-! ## Primitives -/

/-- The hash and signature primitives the fabric is built on. -/
class Crypto where
  /-- `blake3::hash`. -/
  blake3 : Bytes → BytesN 32
  /-- Whether 32 bytes are an Ed25519 public key (`PublicKey::from_bytes` accepts). -/
  isPublicKey : BytesN 32 → Bool
  SecretKey : Type
  /-- `SecretKey::public`. -/
  publicKey : SecretKey → BytesN 32
  isPublicKey_publicKey : ∀ secret, isPublicKey (publicKey secret) = true
  /-- `SecretKey::sign`, as the 64 bytes of the signature. -/
  sign : SecretKey → Bytes → BytesN 64
  /-- `PublicKey::verify`. -/
  verify : BytesN 32 → Bytes → BytesN 64 → Bool

/-- Content address of a `Fact`: the BLAKE3 hash of its canonical bytes. -/
abbrev FactId := BytesN 32

/-- Identity of one fabric (network). -/
abbrev FabricId := BytesN 32

/-- An Ed25519 signature. `Signature::from_bytes` accepts any 64 bytes. -/
abbrev Signature := BytesN 64

variable [Crypto]

structure EndpointId where
  asBytes : BytesN 32
  isPublicKey : Crypto.isPublicKey asBytes = true

namespace EndpointId

theorem asBytes_injective : Function.Injective (asBytes : EndpointId → BytesN 32) := by
  intro a b h
  cases a; cases b
  simpa using h

/-- `Ord for PublicKey` compares the key bytes. -/
instance : LinearOrder EndpointId := LinearOrder.lift' asBytes asBytes_injective

/-- `EndpointId::from_bytes`. -/
def fromBytes (bs : BytesN 32) : Option EndpointId :=
  if h : Crypto.isPublicKey bs = true then some ⟨bs, h⟩ else none

@[simp] theorem fromBytes_asBytes (e : EndpointId) : fromBytes e.asBytes = some e := by
  simp [fromBytes, e.isPublicKey]

theorem fromBytes_eq_some {bs : BytesN 32} {e : EndpointId} (h : fromBytes bs = some e) :
    e.asBytes = bs := by
  unfold fromBytes at h
  split at h
  · simp only [Option.some.injEq] at h
    rw [← h]
  · simp at h

end EndpointId

/-- `NodeIdentity`: a secret key and the endpoint id derived from it. -/
structure NodeIdentity where
  secretKey : Crypto.SecretKey

/-- `NodeIdentity::endpoint_id`. -/
def NodeIdentity.endpointId (identity : NodeIdentity) : EndpointId :=
  ⟨Crypto.publicKey identity.secretKey, Crypto.isPublicKey_publicKey identity.secretKey⟩

/-! ## Facts -/

structure Fact where
  kind : FactKind
  fabricId : FabricId
  issuer : EndpointId
  subject : EndpointId
  displayName : Option String
  issuedAtMs : UInt64
  expiresAtMs : Option UInt64
  targetFactId : Option FactId
deriving DecidableEq

/-- The UTF-8 bytes of a string, `str::as_bytes`. -/
def utf8 (s : String) : Bytes := s.toUTF8.data.toList

/-- `std::str::from_utf8`. -/
def fromUtf8 (bytes : Bytes) : Option String := String.fromUTF8? ⟨bytes.toArray⟩

namespace Fact

/-- Whether this fact still has effect at `nowMs`: no expiry, or not yet reached. -/
def isValidAt (f : Fact) (nowMs : UInt64) : Bool :=
  match f.expiresAtMs with
  | none => true
  | some e => nowMs < e

def flags (f : Fact) : UInt8 :=
  (if f.displayName.isSome then FLAG_HAS_NAME else 0) |||
    (if f.expiresAtMs.isSome then FLAG_HAS_EXPIRY else 0) |||
    (if f.targetFactId.isSome then FLAG_HAS_TARGET else 0)

/-- The optional name field: `u16 BE len || bytes`. -/
def nameField (name : Option String) : Bytes :=
  match name with
  | none => []
  | some name => beBytes 2 (utf8 name).length ++ utf8 name

def expiryField (exp : Option UInt64) : Bytes :=
  match exp with
  | none => []
  | some exp => beBytes 8 exp.toNat

def targetField (target : Option FactId) : Bytes :=
  match target with
  | none => []
  | some target => target.toBytes

/-- The buffer `canonical_bytes` fills once the name limit has been checked. -/
def layout (f : Fact) : Bytes :=
  FACT_DOMAIN ++ ([f.kind.asU8] ++ (f.fabricId.toBytes ++ (f.issuer.asBytes.toBytes ++
    (f.subject.asBytes.toBytes ++ (beBytes 8 f.issuedAtMs.toNat ++ ([f.flags] ++
      (nameField f.displayName ++ (expiryField f.expiresAtMs ++
        targetField f.targetFactId))))))))

/-- Deterministic canonical serialization: the bytes that get signed. -/
def canonicalBytes (f : Fact) : Except ProtocolError Bytes :=
  match f.displayName with
  | some name =>
    if MAX_NAME_BYTES < (utf8 name).length then
      .error (.encoding
        s!"display_name of {(utf8 name).length} bytes exceeds the {MAX_NAME_BYTES} byte limit")
    else .ok f.layout
  | none => .ok f.layout

/-- The content address. Unrepresentable facts share one sentinel id. -/
def factId (f : Fact) : FactId :=
  match f.canonicalBytes with
  | .ok bytes => Crypto.blake3 bytes
  | .error _ => Crypto.blake3 FACT_UNREPRESENTABLE

end Fact

/-! ## The strict parser -/

/-- `key_from_bytes` on the 32 bytes at `a`. -/
def keyFromBytes (bytes : BytesN 32) : Except ProtocolError EndpointId :=
  okOr (EndpointId.fromBytes bytes) (.quarantine "key field is not a valid Ed25519 public key")

/-- `trunc` of `parse_fact_prefix`. -/
def truncFact (what : String) : ProtocolError :=
  .quarantine s!"truncated canonical fact: {what}"

/-- The `display_name` part of `parse_fact_prefix`, with the offset after it. -/
def parseName (bytes : Bytes) (flags : UInt8) (off : Nat) :
    Except ProtocolError (Option String × Nat) :=
  if flags &&& FLAG_HAS_NAME ≠ 0 then
    if bytes.length < off + 2 then .error (truncFact "display_name length prefix")
    else
      let nameLen := beNat (slice bytes off (off + 2))
      let off := off + 2
      if MAX_NAME_BYTES < nameLen then
        .error (.quarantine
          s!"display_name of {nameLen} bytes exceeds the {MAX_NAME_BYTES} byte limit")
      else if bytes.length < off + nameLen then .error (truncFact "display_name bytes")
      else
        match fromUtf8 (slice bytes off (off + nameLen)) with
        | none => .error (.quarantine "display_name is not valid UTF-8")
        | some name => .ok (some name, off + nameLen)
  else .ok (none, off)

/-- The `expires_at_ms` part of `parse_fact_prefix`. -/
def parseExpiry (bytes : Bytes) (flags : UInt8) (off : Nat) :
    Except ProtocolError (Option UInt64 × Nat) :=
  if flags &&& FLAG_HAS_EXPIRY ≠ 0 then
    if bytes.length < off + 8 then .error (truncFact "expires_at_ms")
    else .ok (some (UInt64.ofNat (beNat (slice bytes off (off + 8)))), off + 8)
  else .ok (none, off)

/-- The `target_fact_id` part of `parse_fact_prefix`. -/
def parseTarget (bytes : Bytes) (flags : UInt8) (off : Nat) :
    Except ProtocolError (Option FactId × Nat) :=
  if flags &&& FLAG_HAS_TARGET ≠ 0 then
    if bytes.length < off + 32 then .error (truncFact "target_fact_id")
    else .ok (some (arrayAt bytes off 32), off + 32)
  else .ok (none, off)

/-- Parses a canonical fact from the front of `bytes`: the fact and the number of bytes
consumed. -/
def parseFactPrefix (bytes : Bytes) : Except ProtocolError (Fact × Nat) := do
  if bytes.length < FACT_FIXED_LEN then
    throw (truncFact "shorter than the fixed 119-byte prefix")
  if slice bytes 0 13 ≠ FACT_DOMAIN then
    throw (.quarantine
      s!"bad fact domain {debugBytes bytes} (expected {debugBytes FACT_DOMAIN})")
  let kind ← okOr (FactKind.fromU8 (bytes.getD 13 0))
    (.quarantine s!"unknown fact kind 0x{hexByte (bytes.getD 13 0)}")
  let fabricId := arrayAt bytes 14 32
  let issuer ← keyFromBytes (arrayAt bytes 46 32)
  let subject ← keyFromBytes (arrayAt bytes 78 32)
  let issuedAtMs := UInt64.ofNat (beNat (slice bytes 110 118))
  let flags := bytes.getD 118 0
  if flags &&& ~~~(FLAG_HAS_NAME ||| FLAG_HAS_EXPIRY ||| FLAG_HAS_TARGET) ≠ 0 then
    throw (.quarantine s!"reserved flag bits set: 0x{hexByte flags}")
  let (displayName, off) ← parseName bytes flags FACT_FIXED_LEN
  let (expiresAtMs, off) ← parseExpiry bytes flags off
  let (targetFactId, off) ← parseTarget bytes flags off
  return (⟨kind, fabricId, issuer, subject, displayName, issuedAtMs, expiresAtMs,
    targetFactId⟩, off)

/-- Strict parse: exactly one canonical fact, no trailing bytes. -/
def Fact.decodeStrict (bytes : Bytes) : Except ProtocolError Fact := do
  let (fact, consumed) ← parseFactPrefix bytes
  if consumed ≠ bytes.length then
    throw (.quarantine s!"{bytes.length - consumed} trailing byte(s) after canonical fact")
  return fact

/-! ## Signed facts and their wire frames -/

/-- A fact plus a signature over its canonical bytes by its issuer. -/
structure SignedFact where
  fact : Fact
  signature : Signature
deriving DecidableEq

namespace SignedFact

/-- `SignedFact::sign`. -/
def sign (fact : Fact) (secret : Crypto.SecretKey) : Except ProtocolError SignedFact := do
  let bytes ← fact.canonicalBytes
  return ⟨fact, Crypto.sign secret bytes⟩

def factId (sf : SignedFact) : FactId := sf.fact.factId

/-- Verifies the signature against the embedded issuer. -/
def verify (sf : SignedFact) : Except ProtocolError Unit := do
  let bytes ← sf.fact.canonicalBytes
  if Crypto.verify sf.fact.issuer.asBytes bytes sf.signature then pure ()
  else throw (.quarantine "fact signature verification failed")

/-- Wire frame: `u32 BE fact_len || canonical fact bytes || signature`. -/
def encode (sf : SignedFact) : Except ProtocolError Bytes := do
  let factBytes ← sf.fact.canonicalBytes
  return beBytes 4 factBytes.length ++ (factBytes ++ sf.signature.toBytes)

/-- Strict inverse of `encode`. The two `checked_add`s of the source cannot overflow a
64-bit `usize` after a 32-bit length. -/
def decode (bytes : Bytes) : Except ProtocolError SignedFact := do
  if bytes.length < 4 + SIGNATURE_LENGTH then
    throw (.quarantine ("signed fact wire frame of " ++
      s!"{bytes.length} bytes shorter than the minimum {4 + SIGNATURE_LENGTH}"))
  let factLen := beNat (slice bytes 0 4)
  let stop := 4 + factLen + SIGNATURE_LENGTH
  if bytes.length ≠ stop then
    throw (.quarantine ("signed fact wire frame length mismatch: " ++
      s!"header says {stop}, got {bytes.length}"))
  let fact ← Fact.decodeStrict (slice bytes 4 (4 + factLen))
  return ⟨fact, arrayAt bytes (4 + factLen) 64⟩

/-- `u32 BE count || frames`; the count is truncated by its cast. -/
def encodeAll (items : List SignedFact) : Except ProtocolError Bytes := do
  let frames ← items.mapM encode
  return beBytes 4 frames.length ++ frames.flatten

/-- The item loop of `decode_all_prefix`: `n` items still to read at `off`, out of
`count`. -/
def decodeItems (bytes : Bytes) (count : Nat) :
    Nat → Nat → Except ProtocolError (List SignedFact × Nat)
  | 0, off => .ok ([], off)
  | n + 1, off => do
    let i := count - (n + 1)
    if bytes.length < off + 4 then
      throw (.quarantine s!"fact list truncated at item {i}'s length prefix")
    let frameLen := beNat (slice bytes off (off + 4))
    let frameEnd := off + 4 + frameLen + SIGNATURE_LENGTH
    if bytes.length < frameEnd then
      throw (.quarantine s!"fact list truncated inside item {i}")
    let sf ← decode (slice bytes off frameEnd)
    let (rest, off) ← decodeItems bytes count n frameEnd
    return (sf :: rest, off)

/-- The fact list at the front of `bytes` and the number of bytes it takes. -/
def decodeAllPrefix (bytes : Bytes) : Except ProtocolError (List SignedFact × Nat) :=
  if bytes.length < 4 then
    .error (.quarantine "fact list shorter than the u32 count prefix")
  else
    let count := beNat (slice bytes 0 4)
    decodeItems bytes count count 4

/-- Strict inverse of `encodeAll`. -/
def decodeAll (bytes : Bytes) : Except ProtocolError (List SignedFact) := do
  let (facts, consumed) ← decodeAllPrefix bytes
  if consumed ≠ bytes.length then
    throw (.quarantine s!"{bytes.length - consumed} trailing byte(s) after fact list")
  return facts

end SignedFact

/-- `protocol::genesis`: the fabric's single trust root, signed by itself. -/
def genesis (identity : NodeIdentity) (fabricId : FabricId) (nowMs : UInt64) :
    Except ProtocolError SignedFact :=
  SignedFact.sign
    { kind := .genesis
      fabricId
      issuer := identity.endpointId
      subject := identity.endpointId
      displayName := none
      issuedAtMs := nowMs
      expiresAtMs := none
      targetFactId := none }
    identity.secretKey

end Dweb

namespace Dweb

/-! ## Known answers -/

/-- The primitives where their answers are known: the listed keys, hashes and signatures.
Elsewhere the hash is zero and no signature verifies. -/
@[reducible] def Crypto.known (keys : List (BytesN 32)) (hashes : List (Bytes × BytesN 32))
    (signatures : List (BytesN 32 × Bytes × BytesN 64)) : Crypto where
  blake3 bytes := ((hashes.find? fun e => e.1 = bytes).map Prod.snd).getD (BytesN.ofNat 32 0)
  isPublicKey key := key ∈ keys
  SecretKey := {key // key ∈ keys}
  publicKey secret := secret.1
  isPublicKey_publicKey secret := decide_eq_true secret.2
  sign secret bytes :=
    ((signatures.find? fun e => e.1 = secret.1 ∧ e.2.1 = bytes).map fun e => e.2.2).getD
      (BytesN.ofNat 64 0)
  verify key bytes signature := (key, bytes, signature) ∈ signatures

end Dweb
