import OpenDweb.Server.Cap
import OpenDweb.Server.Registry

/-!
# OpenDweb — registration requests and the server's receipts

Embedding of the checks of `dweb-server/src/access/register.rs` on a request, up to the redemption
of its code, and of what the server signs: `register_receipt_canonical`, and `receipt_canonical` of
`access/admin/mod.rs`.

* **`Register.verified_eq_ok`** — a request that passes is signed by the root it names.
-/

namespace Dweb

namespace Register

/-- `b"dweb/register/v1\0"`. -/
def REGISTER_DOMAIN : Bytes :=
  [100, 119, 101, 98, 47, 114, 101, 103, 105, 115, 116, 101, 114, 47, 118, 49, 0]

/-- `b"dweb/register-receipt/v1\0"`. -/
def RECEIPT_DOMAIN : Bytes :=
  [100, 119, 101, 98, 47, 114, 101, 103, 105, 115, 116, 101, 114, 45, 114, 101, 99, 101, 105, 112,
    116, 47, 118, 49, 0]

def TS_WINDOW_MS : UInt64 := 120000
def ALIAS_MAX_BYTES : Nat := 32

/-- `register_pop_canonical`. -/
def registerPopCanonical (code fabricHexLower rootHexLower : String) (ts : UInt64) : Bytes :=
  REGISTER_DOMAIN ++ (utf8Bytes code ++ (utf8Bytes fabricHexLower ++ (utf8Bytes rootHexLower
    ++ beBytes 8 ts.toNat)))

/-- `register_receipt_canonical`. -/
def registerReceiptCanonical (codeHash fabricId root : BytesN 32) (ts generation : UInt64) :
    Bytes :=
  RECEIPT_DOMAIN ++ (codeHash.toBytes ++ (fabricId.toBytes ++ (root.toBytes
    ++ (beBytes 8 ts.toNat ++ beBytes 8 generation.toNat))))

structure RegisterBody where
  code : String
  fabricId : String
  root : String
  ts : UInt64
  sig : String
  aliasName : Option String

/-- Why a request is refused before its code is looked up. -/
inductive RegisterError where
  | code
  | aliasName
  /-- `fabric_id` or `root`, with the text of `parse_owner_hex`. -/
  | ownerId (e : IdError)
  /-- Not base64url, with the library's own text, or not 64 bytes. -/
  | sig
  | staleTs
  | rootKey
  | badSignature
  deriving DecidableEq

namespace RegisterError

def envelope : RegisterError → Nat × String
  | code => (400, "invalid-request")
  | aliasName => (400, "invalid-request")
  | ownerId _ => (400, "invalid-request")
  | sig => (400, "invalid-request")
  | staleTs => (401, "stale-ts")
  | rootKey => (401, "bad-signature")
  | badSignature => (401, "bad-signature")

end RegisterError

/-- `base64url-nopad` of 64 bytes. -/
def parseSig (s : String) : Except RegisterError (BytesN 64) := do
  let bytes ← okOr (base64Decode s) .sig
  okOr (BytesN.ofBytes? 64 bytes) .sig

def codeAllowed (code : String) : Bool := !code.isEmpty && (utf8Bytes code).length ≤ 256

def aliasAllowed (aliasName : Option String) : Bool :=
  aliasName.all fun name => !name.isEmpty && (utf8Bytes name).length ≤ ALIAS_MAX_BYTES

/-- The checks of `register_endpoint` before the code is looked up, at the time `now`: the shape,
the time, and the root's signature. The code is signed as it was sent. -/
def RegisterBody.verified [ServerCrypto] (body : RegisterBody) (now : UInt64) :
    Except RegisterError OwnerKey := do
  if ¬codeAllowed body.code then throw .code
  if ¬aliasAllowed body.aliasName then throw .aliasName
  let fabricId ← (parseOwnerHex body.fabricId).mapError .ownerId
  let root ← (parseOwnerHex body.root).mapError .ownerId
  let sig ← parseSig body.sig
  if absDiff body.ts now > TS_WINDOW_MS then throw .staleTs
  let canonical := registerPopCanonical body.code (encodeKey fabricId) (encodeKey root) body.ts
  if ¬ServerCrypto.isVerifyingKey root then throw .rootKey
  if ¬ServerCrypto.verifies root canonical sig then throw .badSignature
  return { fabricId, root }

/-- **A request that passes is signed by the root it names.** -/
theorem verified_eq_ok [ServerCrypto] {body : RegisterBody} {now : UInt64} {owner : OwnerKey} :
    body.verified now = .ok owner
      ↔ codeAllowed body.code = true ∧ aliasAllowed body.aliasName = true
        ∧ parseOwnerHex body.fabricId = .ok owner.fabricId ∧ parseOwnerHex body.root = .ok owner.root
        ∧ absDiff body.ts now ≤ TS_WINDOW_MS ∧ ServerCrypto.isVerifyingKey owner.root = true
        ∧ ∃ sig, parseSig body.sig = .ok sig ∧ ServerCrypto.verifies owner.root
          (registerPopCanonical body.code (encodeKey owner.fabricId) (encodeKey owner.root) body.ts)
          sig = true := by
  simp only [RegisterBody.verified, bind_eq_ok, ite_throw_eq_ok, mapError_eq_ok, pure_eq_ok,
    not_not]
  constructor
  · rintro ⟨hcode, halias, fabricId, hfabric, root, hroot, sig, hsig, hnow, hkey, hverifies, rfl⟩
    exact ⟨hcode, halias, hfabric, hroot, not_lt.mp hnow, hkey, sig, hsig, hverifies⟩
  · rintro ⟨hcode, halias, hfabric, hroot, hnow, hkey, sig, hsig, hverifies⟩
    exact ⟨hcode, halias, _, hfabric, _, hroot, sig, hsig, not_lt.mpr hnow, hkey, hverifies, rfl⟩

end Register

namespace Admin

/-- `b"dweb/admin-receipt/v1\0"`. -/
def RECEIPT_DOMAIN : Bytes :=
  [100, 119, 101, 98, 47, 97, 100, 109, 105, 110, 45, 114, 101, 99, 101, 105, 112, 116, 47, 118, 49,
    0]

/-- `receipt_canonical`. -/
def receiptCanonical (op : UInt8) (fabricId root : BytesN 32) (ts generation : UInt64) : Bytes :=
  RECEIPT_DOMAIN ++ ([op] ++ (fabricId.toBytes ++ (root.toBytes ++ (beBytes 8 ts.toNat
    ++ beBytes 8 generation.toNat))))

end Admin

end Dweb
