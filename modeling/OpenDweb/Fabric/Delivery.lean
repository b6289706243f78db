import OpenDweb.Fabric.RedeemTransaction

/-!
# OpenDweb — delivery

What becomes of the frames that `dweb-fabric/src/session.rs` writes after it committed: the limits
of the joiner are looked at by the joiner only. With them the relays of `FabricConfig::validate` of
`fabric.rs`, which the issuer mints capabilities for.

* **`RelayConfig.validate`** — what is checked of the relays when a fabric is built.
* **`issuerRuns`** — a roster under its own operations and under redemptions.
* **`RelayConfig.map_fst_mintFor`** — which relays the issuer mints a capability for.
* **`delivery`** — which receipts and which HELLO are read back.
-/

namespace Dweb

open List

/-! ## The relays of a configuration -/

/-- `RelayUrl::from_str`: the text of its error, if the text is no URL. -/
abbrev RelayUrlParser := String → Except String Unit

structure RelayEntry where
  url : String
  serverId : Option (BytesN 32)
  token : Option String

inductive RelayConfig where
  | disabled
  | custom (urls : List String)
  | n0Default
  | customWithCaps (entries : List RelayEntry)

section

variable [Crypto]

namespace RelayConfig

def checkUrl (parse : RelayUrlParser) (url : String) : Except String Unit :=
  (parse url).mapError fun e => "invalid relay url " ++ url ++ ": " ++ e

def checkEntry (parse : RelayUrlParser) (entry : RelayEntry) : Except String Unit := do
  checkUrl parse entry.url
  match entry.token.map RelayCapV1.decode with
  | some (.error _) =>
    throw ("relay '" ++ entry.url ++ "' carries a malformed dwebr1. capability token")
  | _ => return ()

/-- What `FabricConfig::validate` checks of the relays. -/
def validate (parse : RelayUrlParser) : RelayConfig → Except String Unit
  | custom urls => do
    if urls.isEmpty then throw "custom relay list must not be empty"
    urls.forM (checkUrl parse)
  | customWithCaps entries => do
    if entries.isEmpty then throw "custom relay list must not be empty"
    if MAX_RELAYS_V2 < entries.length then
      throw (s!"custom relay list of {entries.length} entries exceeds the v2 invite limit of " ++
        s!"{MAX_RELAYS_V2}")
    entries.forM (checkEntry parse)
  | _ => return ()

def restricted : RelayConfig → List (String × BytesN 32)
  | customWithCaps entries => entries.filterMap fun e => e.serverId.map fun sid => (e.url, sid)
  | _ => []

def issuer (config : RelayConfig) (identity : NodeIdentity) (fabricId : FabricId) : Issuer where
  identity
  v2Minter := some ⟨fabricId, identity.secretKey, config.restricted⟩

def minted (config : RelayConfig) (inviteRelays : List InviteRelayV2) : List String :=
  (config.restricted.map Prod.fst).filter fun url => inviteRelays.any fun r => r.url = url

theorem length_restricted_le {parse : RelayUrlParser} {config : RelayConfig}
    (h : config.validate parse = .ok ()) : config.restricted.length ≤ MAX_RELAYS_V2 := by
  cases config with
  | customWithCaps entries =>
    simp only [validate, ite_throw_eq_ok, not_lt] at h
    obtain ⟨-, hle, -⟩ := h
    exact (length_filterMap_le _ _).trans hle
  | _ => exact Nat.zero_le _

/-- **A capability is minted for every restricted relay of the invite**: no clock makes it fail. -/
theorem map_fst_mintFor (config : RelayConfig) (identity : NodeIdentity) (fabricId : FabricId)
    (redeemer : EndpointId) (inviteRelays : List InviteRelayV2) (nowMs : UInt64) :
    ((⟨fabricId, identity.secretKey, config.restricted⟩ : RedeemCapMinter).mintFor redeemer
      inviteRelays nowMs).map Prod.fst = config.minted inviteRelays := by
  have hsigned : ∀ sid, ∃ token, RelayCapV1.signAndEncode identity.secretKey fabricId sid redeemer
      MEMBER_CAPS nowMs (saturatingAdd nowMs MEMBER_CAP_TTL_MS) = .ok token := by
    intro sid
    have hissued : nowMs ≤ saturatingAdd nowMs MEMBER_CAP_TTL_MS :=
      le_saturatingAdd.mpr (Nat.le_add_right _ _)
    have httl : saturatingAdd nowMs MEMBER_CAP_TTL_MS - nowMs ≤ RELAY_CAP_MAX_TTL_MS := by
      have hmember : MEMBER_CAP_TTL_MS.toNat ≤ RELAY_CAP_MAX_TTL_MS.toNat := by decide
      have hupper := le_saturatingAdd.mp (le_refl (saturatingAdd nowMs MEMBER_CAP_TTL_MS))
      have hsub := UInt64.toNat_sub_of_le _ _ hissued
      rw [UInt64.le_iff_toNat_le, hsub]
      omega
    unfold RelayCapV1.signAndEncode
    rw [if_neg (by decide), if_neg (not_lt.mpr hissued), if_neg (not_lt.mpr httl)]
    exact ⟨_, rfl⟩
  unfold RedeemCapMinter.mintFor minted
  dsimp only
  induction config.restricted with
  | nil => rfl
  | cons entry rest ih =>
    obtain ⟨token, htoken⟩ := hsigned entry.2
    rw [map_cons, filter_cons, filterMap_cons]
    by_cases hnamed : (inviteRelays.any fun r => r.url = entry.1) = true
    · rw [if_neg (not_not.mpr hnamed), if_pos hnamed, htoken, ← ih]
      rfl
    · rw [if_pos hnamed, if_neg hnamed, ← ih]

end RelayConfig

/-! ## Runs of an issuer -/

inductive IssuerOp where
  | run (op : RosterOp) (io : PersistIo)
  | redeem (issuer : Issuer) (token : InviteVersion) (redeemer : EndpointId)
      (challenge : BytesN 32) (sig : Signature) (clock : TransactionClock) (io : TransactionIo)

def IssuerOp.apply (h : Handle) : IssuerOp → Handle
  | run op io => (op.apply h io).1
  | redeem issuer token redeemer challenge sig clock io =>
    (issuer.transaction h token redeemer challenge sig clock io).1

/-- One roster, with every fact that its operations, its peers and redemptions add. -/
def issuerRuns : Machine Handle IssuerOp where
  init := Handle.Fresh
  step h l := some (l.apply h)

variable {h h' : Handle} {r : Roster} {redeemer : EndpointId} {challenge : BytesN 32}
    {sig : Signature}

theorem Handle.Keeps.wellFormed (hkeeps : h.Keeps h') (hwf : h.roster.WellFormed) :
    h'.roster.WellFormed where
  stored := by
    rw [hkeeps.facts, hkeeps.fabric]
    exact hwf.stored
  genesis_stored := by
    rw [hkeeps.facts, hkeeps.genesis, hkeeps.root]
    exact hwf.genesis_stored
  genesis_unique := by
    rw [hkeeps.facts, hkeeps.genesis]
    exact hwf.genesis_unique
  root_none := by
    rw [hkeeps.genesis, hkeeps.root]
    exact hwf.root_none

theorem Issuer.Grants.wellFormed {inviteId : BytesN 16} {subject : EndpointId} {signed : SignedFact}
    (hgrants : Issuer.Grants h h' inviteId subject signed) (hwf : h.roster.WellFormed) :
    h'.roster.WellFormed where
  stored id sf hget := by
    rw [hgrants.facts, getElem?_facts_insert] at hget
    split at hget
    · next hid =>
      cases hget
      exact ⟨hid.symm, hgrants.fabric ▸ hgrants.acceptable⟩
    · exact hgrants.fabric ▸ hwf.stored id sf hget
  genesis_stored id hid := by
    rw [hgrants.genesis] at hid
    obtain ⟨sf, hget, hkind, hroot⟩ := hwf.genesis_stored id hid
    refine ⟨sf, ?_, hkind, hgrants.root.trans hroot⟩
    -- the grant is stored under an id of its own
    rw [hgrants.facts, getElem?_facts_insert, if_neg]
    · exact hget
    · intro hsame
      rw [← hsame, hgrants.fresh] at hget
      cases hget
  genesis_unique id sf hget hkind := by
    rw [hgrants.facts, getElem?_facts_insert] at hget
    split at hget
    · cases hget
      rw [hgrants.kind] at hkind
      cases hkind
    · exact hgrants.genesis.trans (hwf.genesis_unique id sf hget hkind)
  root_none hnone := hgrants.root.trans (hwf.root_none (hgrants.genesis ▸ hnone))

theorem Issuer.wellFormed_transaction (issuer : Issuer) (hwf : h.roster.WellFormed)
    (token : InviteVersion) (redeemer : EndpointId) (challenge : BytesN 32) (sig : Signature)
    (clock : TransactionClock) (io : TransactionIo) :
    (issuer.transaction h token redeemer challenge sig clock io).1.roster.WellFormed := by
  obtain hkeeps | ⟨signed, -, hgrants⟩ :=
    issuer.transaction_cases h token redeemer challenge sig clock io
  · exact hkeeps.wellFormed hwf
  · exact hgrants.wellFormed hwf

/-- **Every store of every run is well formed.** -/
theorem wellFormed_of_issuerRuns (hreach : issuerRuns.Reachable h) : h.roster.WellFormed := by
  refine hreach.invariant (fun h (hfresh : h.Fresh) => hfresh.loaded.wellFormed) ?_
  intro h l h' hwf _ hstep
  obtain rfl : l.apply h = h' := Option.some.inj hstep
  cases l with
  | run op io => exact ((op.apply_effect h io).extends hwf).1
  | redeem issuer token redeemer challenge sig clock io =>
    exact issuer.wellFormed_transaction hwf token redeemer challenge sig clock io

/-! ## What is read back -/

/-- The length of the dump of a roster: the count, and of each fact its length, its bytes and its
signature. -/
def Roster.dumpLength (r : Roster) : Nat :=
  4 + (r.values.map fun sf => 4 + sf.fact.layout.length + 64).sum

def segmentLength (urls : List String) : Nat :=
  4 + (urls.map fun url => 2 + (utf8Bytes url).length + 2 + 287).sum

theorem Roster.length_listBytes_values (r : Roster) :
    (SignedFact.listBytes r.values).length = r.dumpLength := by
  rw [SignedFact.listBytes, length_append, length_flatten, map_map, length_beBytes,
    dumpLength]
  congr 2
  exact map_congr_left fun sf _ => sf.length_frame

omit [Crypto] in
theorem length_encodeOk2CapSegment {caps : List (String × String)}
    (hcount : caps.length ≤ OK2_CAP_ITEM_MAX)
    (hcaps : ∀ item ∈ caps, (utf8Bytes item.2).length = 287) :
    (encodeOk2CapSegment caps).length = segmentLength (caps.map Prod.fst) := by
  rw [encodeOk2CapSegment, take_of_length_le hcount, length_append, length_beBytes,
    length_flatMap, segmentLength, map_map]
  congr 2
  refine map_congr_left fun item hmem => ?_
  simp only [textField, length_append, length_beBytes, hcaps item hmem, Function.comp_apply]

/-- The joiner reads the facts, and of every relay the first capability that was minted for it,
and skips none but as a duplicate. -/
def ReadWhole (facts : List SignedFact) (caps : List (String × String)) (stream : Bytes)
    (redeemer : EndpointId) : Prop :=
  ∃ receipt, readReceiptV2 stream redeemer = .ok receipt ∧ receipt.facts = facts
    ∧ receipt.skipped.skippedMalformed = 0 ∧ receipt.skipped.skippedNotRecipient = 0
    ∧ receipt.relayCaps = receipt.skipped.items ∧ (receipt.relayCaps.map Prod.fst).Nodup
    ∧ ∀ url, receipt.relayCaps.find? (·.1 = url) = caps.find? (·.1 = url)

/-- The joiner reads of the receipt what the issuer has committed. -/
def Delivered (r : Roster) (config : RelayConfig) (identity : NodeIdentity) (token : InviteVersion)
    (redeemer : EndpointId) (clock : TransactionClock) (stream : Bytes) : Prop :=
  match token with
  | .v1 _ => readReceipt stream = .ok r.values
  | .v2 token => ReadWhole r.values
      ((config.issuer identity r.fabricId).caps token redeemer clock.mint) stream redeemer

/-- The receipt is within the frame of the joiner, and the joiner takes the URLs in it. -/
def Deliverable (r : Roster) (config : RelayConfig) (token : InviteVersion) : Prop :=
  match token with
  | .v1 _ => 5 + r.dumpLength ≤ MAX_REDEEM_FRAME
  | .v2 token =>
    let urls := config.minted token.invite.relays
    5 + (r.dumpLength + segmentLength urls) ≤ MAX_REDEEM_FRAME ∧ ∀ url ∈ urls, UrlTaken url

theorem Roster.WellFormed.representable (hwf : r.WellFormed) :
    ∀ sf ∈ r.values, sf.fact.Representable :=
  (SignedFact.encodeAll_eq_ok.mp hwf.encodeAll).1

/-- **The receipt of the second version**, of a well-formed store and a validated configuration. -/
theorem readWhole_iff {parse : RelayUrlParser} {config : RelayConfig}
    (hvalid : config.validate parse = .ok ()) (hwf : r.WellFormed) (identity : NodeIdentity)
    (fabricId : FabricId) (token : InviteV2Token) (hcanon : token.invite.Canonical)
    (redeemer : EndpointId) (nowMs : UInt64) :
    let caps := (config.issuer identity fabricId).caps token redeemer nowMs
    ReadWhole r.values caps (writeFrame FrameType.REDEEM_OK2
        (SignedFact.listBytes r.values ++ encodeOk2CapSegment caps)) redeemer
      ↔ Deliverable r config (.v2 token) := by
  intro caps
  have hurls : caps.map Prod.fst = config.minted token.invite.relays :=
    config.map_fst_mintFor identity fabricId redeemer token.invite.relays nowMs
  have hcount : caps.length ≤ OK2_CAP_ITEM_MAX :=
    (RedeemCapMinter.length_mintFor _ _ _ _).trans (RelayConfig.length_restricted_le hvalid)
  have hminted : ∀ item ∈ caps, (∃ relay ∈ token.invite.relays, relay.url = item.1)
      ∧ (utf8Bytes item.2).length = 287
      ∧ ∃ parsed, RelayCapV1.decode item.2 = .ok parsed ∧ parsed.recipient = redeemer :=
    fun item hmem => RedeemCapMinter.of_mem_mintFor hmem
  have hshort : ∀ item ∈ capItems caps, CapItemShort item := by
    intro item hmem
    obtain ⟨cap, hcap, rfl⟩ := mem_map.mp hmem
    obtain ⟨⟨relay, hrelay, hurl⟩, hlen, -⟩ := hminted cap hcap
    have hle := (hcanon.relay relay hrelay).url
    have hmax : MAX_RELAY_URL_BYTES < 256 ^ 2 := by decide
    rw [hurl] at hle
    exact ⟨show (utf8Bytes cap.1).length < 256 ^ 2 by omega, hlen.trans_le (by decide)⟩
  have htakes := takes_foldl_add (fun item hmem => (hminted item hmem).2.2) ⟨[], 0, 0, 0⟩
  have hsize : (SignedFact.listBytes r.values ++ encodeOk2CapSegment caps).length
      = r.dumpLength + segmentLength (config.minted token.invite.relays) := by
    rw [length_append, r.length_listBytes_values,
      length_encodeOk2CapSegment hcount fun item hmem => (hminted item hmem).2.1, hurls]
  have htaken : (∀ item ∈ caps, UrlTaken item.1)
      ↔ ∀ url ∈ config.minted token.invite.relays, UrlTaken url := by
    rw [← hurls, forall_mem_map]
  have hread : ∀ receipt, readReceiptV2 (writeFrame FrameType.REDEEM_OK2
      (SignedFact.listBytes r.values ++ encodeOk2CapSegment caps)) redeemer = .ok receipt
        ∧ receipt.facts = r.values ↔ _ :=
    fun receipt => readReceiptV2_writeFrame hwf.representable hcount hshort receipt
  rw [hsize, htaken] at hread
  constructor
  · rintro ⟨receipt, hok, hfacts, -⟩
    exact ((hread receipt).mp ⟨hok, hfacts⟩).1
  · intro hfits
    let skipped := (capItems caps).foldl (Ok2Caps.add redeemer) ⟨[], 0, 0, 0⟩
    obtain ⟨hok, -⟩ := (hread ⟨r.values, skipped.items, skipped⟩).mpr ⟨hfits, rfl, rfl, rfl⟩
    exact ⟨_, hok, rfl, htakes.malformed, htakes.notRecipient, rfl, htakes.unique nodup_nil,
      fun url => htakes.first url⟩

theorem InviteV2Token.canonical_of_redeemVerify {token : InviteV2Token} {verified : EndpointId}
    {nowMs : UInt64}
    (h : (InviteVersion.v2 token).redeemVerify r redeemer challenge sig nowMs = .ok verified) :
    token.invite.Canonical := by
  obtain ⟨-, -, hverify, -⟩ := Roster.verifyClaims_eq_ok.mp h
  exact (InviteV2Token.verify_eq_ok.mp hverify).1

/-- **A receipt is written of the roster** that the transaction leaves. -/
theorem Issuer.receipt_of_transaction {issuer : Issuer} {token : InviteVersion}
    {clock : TransactionClock} {io : TransactionIo} {frameType : UInt8} {payload : Bytes}
    (htrans : issuer.transaction h token redeemer challenge sig clock io = (h', .ok (.receipt frameType payload))) :
    (∃ verified, token.redeemVerify h.roster redeemer challenge sig clock.verify = .ok verified)
      ∧ issuer.receipt h'.roster token redeemer clock.mint = .ok (.receipt frameType payload) := by
  unfold transaction at htrans
  cases hverify : token.redeemVerify h.roster redeemer challenge sig clock.verify with
  | error e =>
    rw [hverify] at htrans
    dsimp only at htrans
    cases hemit : redeemVerifyEmit e with
    | none =>
      rw [hemit] at htrans
      cases htrans
    | some kind =>
      rw [hemit] at htrans
      cases htrans
  | ok verified =>
    rw [hverify] at htrans
    refine ⟨⟨verified, rfl⟩, ?_⟩
    dsimp only [commit] at htrans
    split at htrans
    · cases htrans
    · cases htrans
    · split at htrans
      · cases htrans
      · obtain ⟨rfl, hreceipt⟩ := Prod.mk.inj htrans
        exact hreceipt

/-- **A receipt**, of a well-formed store and a validated configuration. -/
theorem delivered_iff {parse : RelayUrlParser} {config : RelayConfig}
    (hvalid : config.validate parse = .ok ()) (hwf : h.roster.WellFormed) {identity : NodeIdentity}
    {token : InviteVersion} {clock : TransactionClock} {io : TransactionIo} {frameType : UInt8}
    {payload : Bytes}
    (htrans : (config.issuer identity h.roster.fabricId).transaction h token redeemer challenge sig clock io = (h', .ok (.receipt frameType payload))) :
    Delivered h'.roster config identity token redeemer clock (writeFrame frameType payload)
      ↔ Deliverable h'.roster config token := by
  have hwf' : h'.roster.WellFormed := by
    have hkept := (config.issuer identity h.roster.fabricId).wellFormed_transaction hwf token
      redeemer challenge sig clock io
    rwa [htrans] at hkept
  obtain ⟨⟨verified, hverify⟩, hreceipt⟩ := Issuer.receipt_of_transaction htrans
  have hfabric : h'.roster.fabricId = h.roster.fabricId := by
    have hcases := (config.issuer identity h.roster.fabricId).transaction_cases h token redeemer
      challenge sig clock io
    rw [htrans] at hcases
    obtain hkeeps | ⟨signed, -, hgrants⟩ := hcases
    · exact hkeeps.fabric
    · exact hgrants.fabric
  rw [Issuer.receipt, hwf'.encodeAll] at hreceipt
  cases token with
  | v1 token =>
    cases hreceipt
    show readReceipt (writeFrame FrameType.REDEEM_OK (SignedFact.listBytes h'.roster.values))
      = .ok h'.roster.values ↔ 5 + h'.roster.dumpLength ≤ MAX_REDEEM_FRAME
    rw [← h'.roster.length_listBytes_values]
    exact readReceipt_writeFrame hwf'.representable
  | v2 token =>
    cases hreceipt
    have hcanon := InviteV2Token.canonical_of_redeemVerify hverify
    have hiff := readWhole_iff hvalid hwf' identity h'.roster.fabricId token hcanon redeemer
      clock.mint
    rw [hfabric] at hiff
    rw [Delivered, hfabric]
    exact hiff

/-- **Delivery.** For every reachable roster and every validated configuration: the receipt of a
committed redemption is read back exactly if it is within the frame of the joiner and every relay
URL in it is short and begins in lower case, and a HELLO exactly if it is within its frame. -/
theorem delivery {parse : RelayUrlParser} {config : RelayConfig}
    (hvalid : config.validate parse = .ok ()) {h : Handle} (hreach : issuerRuns.Reachable h) :
    (∀ identity token redeemer challenge sig clock io h' frameType payload,
      (config.issuer identity h.roster.fabricId).transaction h token redeemer challenge sig clock io
        = (h', .ok (.receipt frameType payload)) →
      (Delivered h'.roster config identity token redeemer clock (writeFrame frameType payload)
        ↔ Deliverable h'.roster config token))
      ∧ ∃ dump, SignedFact.encodeAll h.roster.values = .ok dump
        ∧ (readHello (writeFrame FrameType.HELLO dump) = .ok h.roster.values
          ↔ 5 + h.roster.dumpLength ≤ MAX_FRAME) := by
  have hwf := wellFormed_of_issuerRuns hreach
  constructor
  · intro identity token redeemer challenge sig clock io h' frameType payload htrans
    exact delivered_iff hvalid hwf htrans
  · refine ⟨_, hwf.encodeAll, ?_⟩
    rw [← h.roster.length_listBytes_values]
    exact readHello_writeFrame hwf.representable

end

namespace SampleRedeem

open Sample (fabricId)

attribute [local instance] crypto

def config : RelayConfig := .customWithCaps [⟨relayUrl, some serverId, none⟩]

def parse : RelayUrlParser := fun url =>
  if url = relayUrl then .ok () else .error "relative URL without a base"

theorem config_valid : config.validate parse = .ok () := by decide +kernel

theorem created_reachable : issuerRuns.Reachable created := by
  have hacceptable : genesis.Acceptable fabricId := ⟨rfl, by decide +kernel, by decide +kernel⟩
  refine .init (.created root (Sample.dir "/root") 1000 fabricId .done ?_)
  exact Roster.createWithFabricId_missing rfl rfl (by decide +kernel) hacceptable

def redemption (config : RelayConfig) : Handle × Except Silent Flow :=
  (config.issuer root created.roster.fabricId).transaction created (.v2 invite) member.endpointId
    challenge popSignature clock ⟨.done, .done⟩

def isReceiptV2 : Except Silent Flow → Bool
  | .ok (.receipt frameType _) => frameType = FrameType.REDEEM_OK2
  | _ => false

theorem redemption_eq {config : RelayConfig} (h : isReceiptV2 (redemption config).2 = true) :
    ∃ payload, redemption config
      = ((redemption config).1, .ok (.receipt FrameType.REDEEM_OK2 payload)) := by
  revert h
  rcases redemption config with ⟨h', _ | _ | ⟨frameType, payload⟩⟩
  · exact nofun
  · exact nofun
  · intro h
    have htype : frameType = FrameType.REDEEM_OK2 := of_decide_eq_true h
    exact ⟨payload, by rw [htype]⟩

theorem delivery_without_relays : ∃ payload,
    Delivered (redemption .n0Default).1.roster .n0Default root (.v2 invite) member.endpointId clock
      (writeFrame FrameType.REDEEM_OK2 payload) := by
  have hcommitted : isReceiptV2 (redemption .n0Default).2 = true := by decide +kernel
  obtain ⟨payload, hpayload⟩ := redemption_eq hcommitted
  have hvalid : RelayConfig.n0Default.validate parse = .ok () := rfl
  refine ⟨payload, ((delivery hvalid created_reachable).1 _ _ _ _ _ _ _ _ _ _ hpayload).mpr ?_⟩
  exact ⟨by decide +kernel, fun url hmem => absurd hmem not_mem_nil⟩

theorem receipt_not_delivered :
    config.validate parse = .ok () ∧ issuerRuns.Reachable created
      ∧ ∃ payload, redemption config
          = ((redemption config).1, .ok (.receipt FrameType.REDEEM_OK2 payload))
        ∧ ¬Delivered (redemption config).1.roster config root (.v2 invite) member.endpointId clock
          (writeFrame FrameType.REDEEM_OK2 payload) := by
  have hcommitted : isReceiptV2 (redemption config).2 = true := by decide +kernel
  obtain ⟨payload, hpayload⟩ := redemption_eq hcommitted
  refine ⟨config_valid, created_reachable, payload, hpayload, fun hdelivered => ?_⟩
  have hwf := wellFormed_of_issuerRuns created_reachable
  obtain ⟨-, htaken⟩ := (delivered_iff config_valid hwf hpayload).mp hdelivered
  have hshort := (htaken relayUrl (by decide +kernel)).1
  revert hshort
  decide +kernel

end SampleRedeem

end Dweb
