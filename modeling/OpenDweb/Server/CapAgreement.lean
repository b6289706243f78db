import OpenDweb.Fabric.RelayCap
import OpenDweb.Server.Cap

/-!
# OpenDweb — the two codecs of a relay capability

The fabric signs capabilities and reads them back for its invites; the server reads and verifies
them with a codec of its own.

* **`token_toServer`** — the two layouts are the same.
* **`relay_cap_agreement`** — what the fabric signs, both read alike, and the server accepts it
  within its time; what the server accepts, the fabric reads alike if both its keys are keys.
-/

namespace Dweb

variable [Crypto]

def RelayCapV1.toServer (cap : RelayCapV1) (signature : Signature) : RelayCap where
  fabricId := cap.fabricId
  serverId := cap.serverId
  issuer := cap.issuer.asBytes
  recipient := cap.recipient.asBytes
  caps := cap.caps
  issuedAt := cap.issuedAt
  expiresAt := cap.expiresAt
  signature

structure RelayCap.Agrees (parsed : RelayCap) (cap : RelayCapV1) : Prop where
  fabricId : parsed.fabricId = cap.fabricId
  serverId : parsed.serverId = cap.serverId
  issuer : parsed.issuer = cap.issuer.asBytes
  recipient : parsed.recipient = cap.recipient.asBytes
  caps : parsed.caps = cap.caps
  issuedAt : parsed.issuedAt = cap.issuedAt
  expiresAt : parsed.expiresAt = cap.expiresAt

theorem RelayCapV1.toServer_agrees (cap : RelayCapV1) (signature : Signature) :
    (cap.toServer signature).Agrees cap :=
  ⟨rfl, rfl, rfl, rfl, rfl, rfl, rfl⟩

theorem RelayCapV1.token_toServer (cap : RelayCapV1) (signature : Signature) :
    (cap.toServer signature).token = cap.token signature :=
  rfl

/-- A signature that the server accepts as made by `secret`. -/
def Verifies [ServerCrypto] (secret : Crypto.SecretKey) (message : Bytes) : Prop :=
  ServerCrypto.isVerifyingKey (Crypto.publicKey secret) = true
    ∧ ServerCrypto.verifies (Crypto.publicKey secret) message (Crypto.sign secret message) = true

theorem RelayCapV1.validAt_iff [ServerCrypto] {secret : Crypto.SecretKey} {cap : RelayCapV1}
    (hissuer : cap.issuer.asBytes = Crypto.publicKey secret) (hcaps : KnownCaps cap.caps)
    (hordered : cap.issuedAt ≤ cap.expiresAt)
    (httl : cap.expiresAt - cap.issuedAt ≤ RELAY_CAP_MAX_TTL_MS)
    (hverifies : Verifies secret cap.signedBytes) (now : UInt64) :
    Cap.ValidAt (cap.toServer (Crypto.sign secret cap.signedBytes)) cap.serverId
        cap.recipient.asBytes now
      ↔ cap.issuedAt.toNat ≤ now.toNat + 120000 ∧ now < cap.expiresAt := by
  obtain ⟨hkey, hsignature⟩ := hverifies
  rw [← hissuer] at hkey hsignature
  constructor
  · intro h
    exact ⟨h.notAhead, h.notExpired⟩
  · rintro ⟨hahead, hexpired⟩
    exact ⟨hcaps, hkey, hsignature, rfl, hexpired, hahead, hordered, httl, rfl⟩

/-- **The codecs agree.** What the fabric signs, both read, and the server accepts from two minutes
before its issue to its expiry; what the server accepts, with keys for ids, the fabric reads. -/
theorem relay_cap_agreement [ServerCrypto] :
    (∀ (secret : Crypto.SecretKey) (cap : RelayCapV1) (s : String),
      cap.issuer.asBytes = Crypto.publicKey secret →
      RelayCapV1.signAndEncode secret cap.fabricId cap.serverId cap.recipient cap.caps
        cap.issuedAt cap.expiresAt = .ok s →
      Verifies secret cap.signedBytes →
      RelayCapV1.decode s = .ok cap
        ∧ ∃ parsed, Cap.decode s = .ok parsed ∧ parsed.Agrees cap
          ∧ ∀ now, Cap.verifyL1 parsed cap.serverId cap.recipient.asBytes now = .ok ()
            ↔ cap.issuedAt.toNat ≤ now.toNat + 120000 ∧ now < cap.expiresAt)
    ∧ (∀ (s : String) (parsed : RelayCap) (serverId endpointId : BytesN 32) (now : UInt64),
      Cap.decode s = .ok parsed → Cap.verifyL1 parsed serverId endpointId now = .ok () →
      Crypto.isPublicKey parsed.issuer = true → Crypto.isPublicKey parsed.recipient = true →
      ∃ cap, RelayCapV1.decode s = .ok cap ∧ parsed.Agrees cap) := by
  refine ⟨fun secret cap s hissuer hsign hverifies => ?_,
    fun s parsed serverId endpointId now hdecode hverify hissuer hrecipient => ?_⟩
  · obtain ⟨hcaps, hordered, httl, signed, hsigned, rfl⟩ := RelayCapV1.signAndEncode_eq_ok hsign
    have hsame : signed = cap := by
      rw [hsigned]
      cases cap
      simp only [RelayCapV1.mk.injEq, true_and, and_true]
      exact EndpointId.asBytes_injective hissuer.symm
    subst hsame
    let signature := Crypto.sign secret signed.signedBytes
    have hread : Cap.decode (signed.token signature) = .ok (signed.toServer signature) :=
      Cap.decode_eq_ok.mpr (signed.token_toServer signature).symm
    refine ⟨RelayCapV1.decode_eq_ok.mpr ⟨hcaps, signature, rfl⟩, _, hread,
      signed.toServer_agrees signature, fun now => ?_⟩
    rw [Cap.verifyL1_eq_ok]
    exact signed.validAt_iff hissuer hcaps hordered httl hverifies now
  · have hvalid := Cap.verifyL1_eq_ok.mp hverify
    let cap : RelayCapV1 :=
      { fabricId := parsed.fabricId
        serverId := parsed.serverId
        issuer := ⟨parsed.issuer, hissuer⟩
        recipient := ⟨parsed.recipient, hrecipient⟩
        caps := parsed.caps
        issuedAt := parsed.issuedAt
        expiresAt := parsed.expiresAt }
    have htoken : s = cap.token parsed.signature := Cap.decode_eq_ok.mp hdecode
    exact ⟨cap, RelayCapV1.decode_eq_ok.mpr ⟨hvalid.caps, parsed.signature, htoken⟩,
      ⟨rfl, rfl, rfl, rfl, rfl, rfl, rfl⟩⟩

end Dweb

namespace Dweb

/-! ## Known answers -/

instance lawfulBEqSigned : LawfulBEq (BytesN 32 × Bytes × BytesN 64) := inferInstance

/-- `ed25519_dalek` where its answers are known. -/
@[reducible] def ServerCrypto.known (keys : List (BytesN 32))
    (signatures : List (BytesN 32 × Bytes × BytesN 64)) : ServerCrypto where
  isVerifyingKey key := key ∈ keys
  verifies key bytes signature := (key, bytes, signature) ∈ signatures

namespace FrozenVector

def issuer : BytesN 32 :=
  .ofNat 32 62661036972089873194988114229977232981811067054527611535751773680930539925340

def recipient : BytesN 32 :=
  .ofNat 32 91628109653329269446615640518334049285888367141089099501821708681845268987516

def serverId : BytesN 32 := ⟨List.replicate 32 2, rfl⟩

def fabricId : BytesN 32 := .ofNat 32 0x0303030303030303030303030303030303030303030303030303030303030303

def signedBytes (recipient : BytesN 32) : Bytes :=
  Cap.DOMAIN ++ RelayCap.canonicalBytes
    ⟨fabricId, serverId, issuer, recipient, 7, 1800000000000, 1800003600000, .ofNat 64 0⟩

/-- The signature of the frozen vector: its two halves. -/
def signature : BytesN 64 :=
  let r := 91635337740795141837775608516203606468876702387389519803164978785844903875331
  let s := 90951462838777780433206473840868006066892259794065588987608490553033093635849
  .ofNat 64 (r * 2 ^ 256 + s)

/-- The issuer's signature for the recipient `[2; 32]`. -/
def keylessSignature : BytesN 64 :=
  let r := 104631412686551859886475441373803942874837439871722836777209805395752258568127
  let s := 18833331133126790049197707009432579164437959309255949313959346894069115161353
  .ofNat 64 (r * 2 ^ 256 + s)

/-- The issuer's signatures for the frozen recipient, and for `[2; 32]`. -/
def signatures : List (BytesN 32 × Bytes × BytesN 64) :=
  [(issuer, signedBytes recipient, signature), (issuer, signedBytes serverId, keylessSignature)]

@[reducible] def crypto : Crypto := .known [issuer, recipient] [] signatures

@[reducible] def serverCrypto : ServerCrypto := .known [issuer, recipient] signatures

attribute [local instance] crypto serverCrypto

/-- The capability of the frozen vector. -/
def cap : RelayCapV1 where
  fabricId
  serverId
  issuer := ⟨issuer, by decide +kernel⟩
  recipient := ⟨recipient, by decide +kernel⟩
  caps := 7
  issuedAt := 1800000000000
  expiresAt := 1800003600000

/-- A capability of the same issuer for a recipient that is no key. -/
def keyless : RelayCap where
  fabricId
  serverId
  issuer
  recipient := serverId
  caps := 7
  issuedAt := 1800000000000
  expiresAt := 1800003600000
  signature := keylessSignature

theorem relay_cap_agreement_frozen :
    ∃ s parsed, RelayCapV1.decode s = .ok cap ∧ Cap.decode s = .ok parsed
      ∧ Cap.verifyL1 parsed serverId recipient 1800000000000 = .ok () := by
  let secret : Crypto.SecretKey := ⟨issuer, by decide⟩
  have hsign : ∃ s, RelayCapV1.signAndEncode secret cap.fabricId cap.serverId cap.recipient
      cap.caps cap.issuedAt cap.expiresAt = .ok s := ⟨_, rfl⟩
  have hverifies : Verifies secret cap.signedBytes := ⟨by decide +kernel, by decide +kernel⟩
  obtain ⟨s, hs⟩ := hsign
  obtain ⟨hread, parsed, hparsed, -, haccepted⟩ :=
    relay_cap_agreement.1 secret cap s rfl hs hverifies
  exact ⟨s, parsed, hread, hparsed, (haccepted _).mpr (by decide)⟩

theorem keyless_recipient_read_by_server_only :
    ∃ s parsed, Cap.decode s = .ok parsed
      ∧ Cap.verifyL1 parsed serverId serverId 1800000000000 = .ok ()
      ∧ Crypto.isPublicKey parsed.issuer = true ∧ RelayCapV1.KnownCaps parsed.caps
      ∧ ∀ cap, RelayCapV1.decode s ≠ .ok cap := by
  have hdecode : Cap.decode keyless.token = .ok keyless := Cap.decode_eq_ok.mpr rfl
  refine ⟨keyless.token, keyless, hdecode, by decide +kernel, by decide +kernel,
    by decide, fun cap hread => ?_⟩
  obtain ⟨-, signature, htoken⟩ := RelayCapV1.decode_eq_ok.mp hread
  have hparsed : Cap.decode keyless.token = .ok (cap.toServer signature) :=
    Cap.decode_eq_ok.mpr htoken
  have hsame : cap.toServer signature = keyless := Except.ok.inj (hparsed.symm.trans hdecode)
  -- the fabric's recipient is a key
  have hkey : Crypto.isPublicKey keyless.recipient = true := by
    rw [← hsame]
    exact cap.recipient.isPublicKey
  revert hkey
  decide

end FrozenVector

end Dweb
