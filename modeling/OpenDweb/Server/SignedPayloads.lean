import OpenDweb.Fabric.FactCodec
import OpenDweb.Fabric.InviteTokens
import OpenDweb.Server.Register
import OpenDweb.Server.Rendezvous

/-!
# OpenDweb — signed payloads

One key signs messages of several kinds, each under a layout of its own. This module puts the
layouts side by side.

* **`domain_not_prefix`** — no kind's domain begins another's.
* **`signed_payloads_unambiguous`** — bytes that two messages share come from one kind and the
  same fields, but for what an IPv6 address loses.
-/

namespace Dweb

open List Bool

theorem append_ne_of_not_prefix {d d' x y : Bytes} (h : ¬d <+: d') (h' : ¬d' <+: d) :
    d ++ x ≠ d' ++ y := by
  intro heq
  have hd : d <+: d' ++ y := heq ▸ prefix_append d x
  have hd' : d' <+: d' ++ y := prefix_append d' y
  -- two beginnings of one text are beginnings of each other
  cases prefix_or_prefix_of_prefix hd hd' with
  | inl hle => exact h hle
  | inr hle => exact h' hle

/-! ## Kinds -/

inductive MessageKind where
  | fact
  | inviteV1
  | inviteV2
  | relayCap
  | redeemPop
  | announce
  | registerPop
  | adminReceipt
  | registerReceipt
  deriving DecidableEq

def MessageKind.domain : MessageKind → Bytes
  | fact => FACT_DOMAIN
  | inviteV1 => INVITE_DOMAIN
  | inviteV2 => INVITE2_DOMAIN
  | relayCap => RELAY_CAP_DOMAIN
  | redeemPop => POP_DOMAIN
  | announce => Rendezvous.ANNOUNCE_DOMAIN
  | registerPop => Register.REGISTER_DOMAIN
  | adminReceipt => Admin.RECEIPT_DOMAIN
  | registerReceipt => Register.RECEIPT_DOMAIN

/-- **No kind's domain begins another's.** -/
theorem MessageKind.domain_not_prefix (k k' : MessageKind) (hne : k ≠ k') : ¬k.domain <+: k'.domain := by
  -- all pairs are read
  cases k <;> cases k' <;> first | exact absurd rfl hne | decide

section

variable [Crypto]

/-! ## Messages -/

inductive SignedMessage where
  | fact (fact : Fact)
  | inviteV1 (invite : InviteV1)
  | inviteV2 (invite : InviteV2)
  | relayCap (cap : RelayCapV1)
  | redeemPop (fabricId : FabricId) (inviteId : BytesN 16) (challenge : BytesN 32)
  | announce (endpointId : BytesN 32) (timestampMs : UInt64) (addrs : List String)
      (ttlSecs : UInt64)
  | registerPop (code : String) (fabricId root : BytesN 32) (ts : UInt64)
  | adminReceipt (op : UInt8) (fabricId root : BytesN 32) (ts generation : UInt64)
  | registerReceipt (codeHash fabricId root : BytesN 32) (ts generation : UInt64)

namespace SignedMessage

def kind : SignedMessage → MessageKind
  | fact _ => .fact
  | inviteV1 _ => .inviteV1
  | inviteV2 _ => .inviteV2
  | relayCap _ => .relayCap
  | redeemPop _ _ _ => .redeemPop
  | announce _ _ _ _ => .announce
  | registerPop _ _ _ _ => .registerPop
  | adminReceipt _ _ _ _ _ => .adminReceipt
  | registerReceipt _ _ _ _ _ => .registerReceipt

/-- The encoder of the message builds these bytes, and no endpoint that verifies such a message
refuses its fields. -/
def Built : SignedMessage → Bytes → Prop
  | fact f, bytes => f.canonicalBytes = .ok bytes
  | inviteV1 invite, bytes => invite.canonicalBytes = .ok bytes
  | inviteV2 invite, bytes => invite.canonicalBytes = .ok bytes
  | relayCap cap, bytes => bytes = cap.signedBytes
  | redeemPop fabricId inviteId challenge, bytes =>
    bytes = redeemChallengeBytes fabricId inviteId challenge
  | announce endpointId timestampMs addrs ttlSecs, bytes =>
    Rendezvous.addrsAllowed addrs = true ∧ Rendezvous.ttlAllowed ttlSecs = true
      ∧ bytes = Rendezvous.announceCanonicalBytes endpointId timestampMs addrs ttlSecs.toUInt32
  | registerPop code fabricId root ts, bytes =>
    Register.codeAllowed code = true
      ∧ bytes = Register.registerPopCanonical code (encodeKey fabricId) (encodeKey root) ts
  | adminReceipt op fabricId root ts generation, bytes =>
    bytes = Admin.receiptCanonical op fabricId root ts generation
  | registerReceipt codeHash fabricId root ts generation, bytes =>
    bytes = Register.registerReceiptCanonical codeHash fabricId root ts generation

def carried : SignedMessage → SignedMessage
  | inviteV2 invite => inviteV2 invite.carried
  | m => m

/-! ## Between the kinds -/

theorem built_of_handleAnnounce [ServerCrypto] {entries entries' : Rendezvous.Entries}
    {id : BytesN 32} {req : Rendezvous.AnnounceRequest} {now : UInt64}
    (h : Rendezvous.handleAnnounce entries id req now = .ok entries') :
    (announce id req.timestampMs req.addrs req.ttlSecs).Built
      (Rendezvous.announceCanonicalBytes id req.timestampMs req.addrs req.ttlSecs.toUInt32) := by
  have haccepted := Rendezvous.handleAnnounce_eq_ok.mp h
  exact ⟨haccepted.1, haccepted.2.1, rfl⟩

theorem built_of_verified [ServerCrypto] {body : Register.RegisterBody} {now : UInt64}
    {owner : OwnerKey} (h : body.verified now = .ok owner) :
    (registerPop body.code owner.fabricId owner.root body.ts).Built
      (Register.registerPopCanonical body.code (encodeKey owner.fabricId) (encodeKey owner.root)
        body.ts) := by
  have hverified := Register.verified_eq_ok.mp h
  exact ⟨hverified.1, rfl⟩

/-! ## Between the kinds -/

theorem Built.domain {m : SignedMessage} {bytes : Bytes} (h : m.Built bytes) :
    ∃ rest, bytes = m.kind.domain ++ rest := by
  cases m with
  | fact f => exact ⟨_, (Fact.canonicalBytes_eq_ok.mp h).2⟩
  | inviteV1 invite => exact ⟨_, (InviteV1.canonicalBytes_eq_ok.mp h).2⟩
  | inviteV2 invite => exact ⟨_, (InviteV2.canonicalBytes_eq_ok.mp h).2⟩
  | announce endpointId timestampMs addrs ttlSecs => exact ⟨_, h.2.2⟩
  | registerPop code fabricId root ts => exact ⟨_, h.2⟩
  | relayCap cap => exact ⟨_, h⟩
  | redeemPop fabricId inviteId challenge => exact ⟨_, h⟩
  | adminReceipt op fabricId root ts generation => exact ⟨_, h⟩
  | registerReceipt codeHash fabricId root ts generation => exact ⟨_, h⟩

theorem Built.kind_eq {m m' : SignedMessage} {bytes : Bytes} (h : m.Built bytes)
    (h' : m'.Built bytes) : m.kind = m'.kind := by
  by_contra hne
  obtain ⟨rest, hrest⟩ := h.domain
  obtain ⟨rest', hrest'⟩ := h'.domain
  exact append_ne_of_not_prefix (MessageKind.domain_not_prefix _ _ hne) (MessageKind.domain_not_prefix _ _ (Ne.symm hne))
    (hrest.symm.trans hrest')

/-! ## Within a kind -/

theorem fact_inj {f f' : Fact} {bytes : Bytes} (h : f.canonicalBytes = .ok bytes)
    (h' : f'.canonicalBytes = .ok bytes) : f = f' := by
  have hf := Fact.canonicalBytes_eq_ok.mp h
  have hf' := Fact.canonicalBytes_eq_ok.mp h'
  have hparse := parseFactPrefix_layout hf.1 []
  have hparse' := parseFactPrefix_layout hf'.1 []
  rw [← hf.2] at hparse
  -- one text has one reading
  rw [← hf'.2, hparse] at hparse'
  exact (Prod.mk.inj (Except.ok.inj hparse')).1

theorem inviteV1_inj {i i' : InviteV1} {bytes : Bytes} (h : i.canonicalBytes = .ok bytes)
    (h' : i'.canonicalBytes = .ok bytes) : i = i' := by
  have hi := InviteV1.decodeStrict_canonicalBytes h
  rw [InviteV1.decodeStrict_canonicalBytes h'] at hi
  exact (Except.ok.inj hi).symm

theorem inviteV2_inj {i i' : InviteV2} {bytes : Bytes} (h : i.canonicalBytes = .ok bytes)
    (h' : i'.canonicalBytes = .ok bytes) : i.carried = i'.carried := by
  have hi := InviteV2.decodeStrict_canonicalBytes h
  rw [InviteV2.decodeStrict_canonicalBytes h'] at hi
  exact (Except.ok.inj hi).symm

theorem relayCap_inj {cap cap' : RelayCapV1} (h : cap.signedBytes = cap'.signedBytes) :
    cap = cap' := by
  simp only [RelayCapV1.signedBytes, RelayCapV1.canonicalBytes, append_cancel_left_eq,
    BytesN.append_inj, singleton_append_inj, beBytes_u64_append_inj, beBytes_u64_inj,
    EndpointId.asBytes_injective.eq_iff] at h
  cases cap
  cases cap'
  simpa only [RelayCapV1.mk.injEq] using h

omit [Crypto] in
theorem addrFields_inj {addrs addrs' : List String} {x y : Bytes}
    (h : ∀ addr ∈ addrs, (utf8Bytes addr).length < 256 ^ 2)
    (h' : ∀ addr ∈ addrs', (utf8Bytes addr).length < 256 ^ 2) (hlen : x.length = y.length)
    (heq : addrs.flatMap Rendezvous.addrField ++ x = addrs'.flatMap Rendezvous.addrField ++ y) :
    addrs = addrs' ∧ x = y := by
  induction addrs generalizing addrs' with
  | nil =>
    cases addrs' with
    | nil => exact ⟨rfl, heq⟩
    | cons addr' addrs' =>
      have htotal := congrArg List.length heq
      simp only [flatMap_nil, flatMap_cons, Rendezvous.addrField, length_append,
        length_leBytes, length_nil] at htotal
      omega
  | cons addr addrs ih =>
    cases addrs' with
    | nil =>
      have htotal := congrArg List.length heq
      simp only [flatMap_nil, flatMap_cons, Rendezvous.addrField, length_append,
        length_leBytes, length_nil] at htotal
      omega
    | cons addr' addrs' =>
      have haddr := h addr mem_cons_self
      have haddr' := h' addr' mem_cons_self
      simp only [flatMap_cons, Rendezvous.addrField, append_assoc] at heq
      rw [leBytes_append_inj haddr haddr'] at heq
      obtain ⟨hsize, hrest⟩ := heq
      rw [append_inj_of_length hsize] at hrest
      have htail := ih (fun a ha => h a (mem_cons_of_mem _ ha))
        (fun a ha => h' a (mem_cons_of_mem _ ha)) hrest.2
      exact ⟨congrArg₂ List.cons (utf8Bytes_injective hrest.1) htail.1, htail.2⟩

omit [Crypto] in
theorem length_of_addrsAllowed {addrs : List String} (h : Rendezvous.addrsAllowed addrs = true) :
    ∀ addr ∈ addrs, (utf8Bytes addr).length < 256 ^ 2 := by
  intro addr hmem
  have hall := all_eq_true.mp (and_eq_true_iff.mp h).2 addr hmem
  have hle := of_decide_eq_true (and_eq_true_iff.mp hall).2
  omega

omit [Crypto] in
theorem toUInt32_of_ttlAllowed {ttl ttl' : UInt64} (h : Rendezvous.ttlAllowed ttl = true)
    (h' : Rendezvous.ttlAllowed ttl' = true) (heq : ttl.toUInt32 = ttl'.toUInt32) : ttl = ttl' := by
  have hle := of_decide_eq_true (and_eq_true_iff.mp h).2
  have hle' := of_decide_eq_true (and_eq_true_iff.mp h').2
  rw [UInt64.le_iff_toNat_le] at hle hle'
  have hmax : Rendezvous.MAX_TTL_SECS.toNat = 3600 := rfl
  have hmod := congrArg UInt32.toNat heq
  rw [UInt64.toNat_toUInt32, UInt64.toNat_toUInt32] at hmod
  refine UInt64.toNat_inj.mp ?_
  omega

omit [Crypto] in
theorem announce_inj {id id' : BytesN 32} {ts ts' : UInt64} {addrs addrs' : List String}
    {ttl ttl' : UInt64} (haddrs : Rendezvous.addrsAllowed addrs = true)
    (haddrs' : Rendezvous.addrsAllowed addrs' = true) (httl : Rendezvous.ttlAllowed ttl = true)
    (httl' : Rendezvous.ttlAllowed ttl' = true)
    (h : Rendezvous.announceCanonicalBytes id ts addrs ttl.toUInt32
      = Rendezvous.announceCanonicalBytes id' ts' addrs' ttl'.toUInt32) :
    id = id' ∧ ts = ts' ∧ addrs = addrs' ∧ ttl = ttl' := by
  have hcount : (leBytes 2 addrs.length).length = (leBytes 2 addrs'.length).length := by
    rw [length_leBytes, length_leBytes]
  have hlast : (leBytes 4 ttl.toUInt32.toNat).length = (leBytes 4 ttl'.toUInt32.toNat).length := by
    rw [length_leBytes, length_leBytes]
  have hlt : ts.toNat < 256 ^ 8 := ts.toNat_lt
  have hlt' : ts'.toNat < 256 ^ 8 := ts'.toNat_lt
  simp only [Rendezvous.announceCanonicalBytes, append_cancel_left_eq, BytesN.append_inj,
    leBytes_append_inj hlt hlt', append_inj_of_length hcount] at h
  obtain ⟨hid, hts, -, hrest⟩ := h
  -- the count is modulo 65536: the addresses are told by the bytes that are left
  have hfields := addrFields_inj (length_of_addrsAllowed haddrs) (length_of_addrsAllowed haddrs')
    hlast hrest
  have hbound : ttl.toUInt32.toNat < 256 ^ 4 := ttl.toUInt32.toNat_lt
  have hbound' : ttl'.toUInt32.toNat < 256 ^ 4 := ttl'.toUInt32.toNat_lt
  rw [leBytes_inj hbound hbound', UInt32.toNat_inj] at hfields
  exact ⟨hid, UInt64.toNat_inj.mp hts, hfields.1, toUInt32_of_ttlAllowed httl httl' hfields.2⟩

omit [Crypto] in
theorem length_encodeKey (id : BytesN 32) : (utf8Bytes (encodeKey id)).length = 64 := by
  rw [encodeKey, toAsciiLowercase_hexStr, length_utf8Bytes_hexStr, id.length_toBytes]

omit [Crypto] in
theorem encodeKey_inj {id id' : BytesN 32} (h : encodeKey id = encodeKey id') : id = id' := by
  have hparse := parseOwnerHex_encodeKey id
  rw [h, parseOwnerHex_encodeKey] at hparse
  exact (Except.ok.inj hparse).symm

omit [Crypto] in
theorem registerPop_inj {code code' : String} {fabricId fabricId' root root' : BytesN 32}
    {ts ts' : UInt64}
    (h : Register.registerPopCanonical code (encodeKey fabricId) (encodeKey root) ts
      = Register.registerPopCanonical code' (encodeKey fabricId') (encodeKey root') ts') :
    code = code' ∧ fabricId = fabricId' ∧ root = root' ∧ ts = ts' := by
  have hkey : ∀ id id' : BytesN 32,
      (utf8Bytes (encodeKey id)).length = (utf8Bytes (encodeKey id')).length := by
    intro id id'
    rw [length_encodeKey, length_encodeKey]
  simp only [Register.registerPopCanonical, append_cancel_left_eq] at h
  -- what follows the code has one length
  have hsplit := append_inj' h (by
    simp only [length_append, length_encodeKey, length_beBytes])
  obtain ⟨hcode, hrest⟩ := hsplit
  rw [append_inj_of_length (hkey _ _), append_inj_of_length (hkey _ _), beBytes_u64_inj] at hrest
  obtain ⟨hfabric, hroot, hts⟩ := hrest
  exact ⟨utf8Bytes_injective hcode, encodeKey_inj (utf8Bytes_injective hfabric),
    encodeKey_inj (utf8Bytes_injective hroot), hts⟩

/-- **Signed payloads are unambiguous**, but for the flow and the scope of an IPv6 address: equal
bytes are of one kind and of the same fields. -/
theorem signed_payloads_unambiguous (m m' : SignedMessage) (bytes : Bytes) (h : m.Built bytes)
    (h' : m'.Built bytes) : m.carried = m'.carried := by
  have hkind := h.kind_eq h'
  cases m with
  | fact f =>
    cases m' with
    | fact f' => exact congrArg (fun x => (fact x).carried) (fact_inj h h')
    | _ => cases hkind
  | inviteV1 i =>
    cases m' with
    | inviteV1 i' => exact congrArg (fun x => (inviteV1 x).carried) (inviteV1_inj h h')
    | _ => cases hkind
  | inviteV2 i =>
    cases m' with
    | inviteV2 i' => exact congrArg inviteV2 (inviteV2_inj h h')
    | _ => cases hkind
  | relayCap cap =>
    cases m' with
    | relayCap cap' =>
      have hcap := relayCap_inj (Eq.trans (Eq.symm h) h')
      exact congrArg (fun x => (relayCap x).carried) hcap
    | _ => cases hkind
  | redeemPop fabricId inviteId challenge =>
    cases m' with
    | redeemPop fabricId' inviteId' challenge' =>
      have heq := Eq.trans (Eq.symm h) h'
      simp only [redeemChallengeBytes, append_cancel_left_eq, BytesN.append_inj,
        BytesN.toBytes_injective.eq_iff] at heq
      obtain ⟨rfl, rfl, rfl⟩ := heq
      rfl
    | _ => cases hkind
  | announce id ts addrs ttl =>
    cases m' with
    | announce id' ts' addrs' ttl' =>
      obtain ⟨rfl, rfl, rfl, rfl⟩ := announce_inj h.1 h'.1 h.2.1 h'.2.1 (h.2.2.symm.trans h'.2.2)
      rfl
    | _ => cases hkind
  | registerPop code fabricId root ts =>
    cases m' with
    | registerPop code' fabricId' root' ts' =>
      obtain ⟨rfl, rfl, rfl, rfl⟩ := registerPop_inj (h.2.symm.trans h'.2)
      rfl
    | _ => cases hkind
  | adminReceipt op fabricId root ts generation =>
    cases m' with
    | adminReceipt op' fabricId' root' ts' generation' =>
      have heq := Eq.trans (Eq.symm h) h'
      simp only [Admin.receiptCanonical, append_cancel_left_eq, BytesN.append_inj,
        singleton_append_inj, beBytes_u64_append_inj, beBytes_u64_inj] at heq
      obtain ⟨rfl, rfl, rfl, rfl, rfl⟩ := heq
      rfl
    | _ => cases hkind
  | registerReceipt codeHash fabricId root ts generation =>
    cases m' with
    | registerReceipt codeHash' fabricId' root' ts' generation' =>
      have heq := Eq.trans (Eq.symm h) h'
      simp only [Register.registerReceiptCanonical, append_cancel_left_eq, BytesN.append_inj,
        beBytes_u64_append_inj, beBytes_u64_inj] at heq
      obtain ⟨rfl, rfl, rfl, rfl, rfl⟩ := heq
      rfl
    | _ => cases hkind

end SignedMessage

end

/-! ## The scope -/

namespace SampleInvites

attribute [local instance] crypto

theorem built_inviteV2 :
    (SignedMessage.inviteV2 inviteV2).Built inviteV2.layout
      ∧ (SignedMessage.inviteV2 inviteV2.carried).Built inviteV2.layout := by
  constructor
  · exact InviteV2.canonicalBytes_eq_ok.mpr ⟨canonical_inviteV2, rfl⟩
  · exact InviteV2.canonicalBytes_eq_ok.mpr
      ⟨InviteV2.canonical_carried canonical_inviteV2, inviteV2.layout_carried.symm⟩

theorem signed_payloads_unambiguous_scopes :
    (SignedMessage.inviteV2 inviteV2).carried = (SignedMessage.inviteV2 inviteV2.carried).carried :=
  SignedMessage.signed_payloads_unambiguous _ _ _ built_inviteV2.1 built_inviteV2.2

theorem scopes_share_bytes :
    (SignedMessage.inviteV2 inviteV2).Built inviteV2.layout
      ∧ (SignedMessage.inviteV2 inviteV2.carried).Built inviteV2.layout
      ∧ SignedMessage.inviteV2 inviteV2 ≠ SignedMessage.inviteV2 inviteV2.carried := by
  refine ⟨built_inviteV2.1, built_inviteV2.2, fun heq => ?_⟩
  have haddrs : [linkLocal] = [linkLocal.carried] :=
    congrArg InviteV2.directAddrs (SignedMessage.inviteV2.inj heq)
  revert haddrs
  decide +kernel

end SampleInvites

end Dweb
