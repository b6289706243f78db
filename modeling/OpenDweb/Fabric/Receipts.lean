import OpenDweb.Fabric.RosterRuns
import OpenDweb.Fabric.SessionFrames

/-!
# OpenDweb — receipts

Embedding of what the two ends of `dweb-fabric/src/session.rs` send each other once they agree:
the facts of a roster, and, behind them in a `REDEEM_OK2` frame, a capability for each restricted
relay of the invite.

* **`RedeemCapMinter.mintFor`** — what the issuer mints, each of it for the redeemer.
* **`parseOk2Caps_encode`** — the joiner reads the segment exactly if every URL is one it takes.
* **`readReceipt_writeFrame`**, **`readReceiptV2_writeFrame`**, **`readHello_writeFrame`** — the
  frames that are read back, and what of.
-/

namespace Dweb

open List

/-! ## Fields of a given length -/

/-- Bytes behind their length in `w` bytes. -/
def bytesField (w : Nat) (bytes : Bytes) : Bytes := beBytes w bytes.length ++ bytes

theorem bytesField_append_inj {w : Nat} {a b x y : Bytes} (ha : a.length < 256 ^ w)
    (hb : b.length < 256 ^ w) (h : bytesField w a ++ x = bytesField w b ++ y) :
    a = b ∧ x = y := by
  simp only [bytesField, append_assoc] at h
  obtain ⟨hlen, hrest⟩ := (append_inj_of_length (by simp)).mp h
  exact (append_inj_of_length ((beBytes_inj ha hb).mp hlen)).mp hrest

theorem flatMap_append_inj {α : Type} {enc : α → Bytes} {P : α → Prop}
    (henc : ∀ a b x y, P a → P b → enc a ++ x = enc b ++ y → a = b ∧ x = y) {as bs : List α}
    {x y : Bytes} (hlen : as.length = bs.length) (has : ∀ a ∈ as, P a) (hbs : ∀ b ∈ bs, P b)
    (h : as.flatMap enc ++ x = bs.flatMap enc ++ y) : as = bs ∧ x = y := by
  induction as generalizing bs with
  | nil =>
    cases bs with
    | nil => exact ⟨rfl, h⟩
    | cons b bs => cases hlen
  | cons a as ih =>
    cases bs with
    | nil => cases hlen
    | cons b bs =>
      obtain ⟨ha, has⟩ := forall_mem_cons.mp has
      obtain ⟨hb, hbs'⟩ := forall_mem_cons.mp hbs
      simp only [flatMap_cons, append_assoc] at h
      obtain ⟨rfl, hrest⟩ := henc a b _ _ ha hb h
      obtain ⟨rfl, hxy⟩ := ih (Nat.succ.inj hlen) has hbs' hrest
      exact ⟨rfl, hxy⟩

/-! ## The capability segment -/

def OK2_CAP_ITEM_MAX : Nat := 8
def OK2_ITEM_BYTES_MAX : Nat := 512

/-- `u.starts_with("http://") || u.starts_with("https://")`. -/
def isHttp (url : String) : Bool :=
  (stripPrefix url "http://").isSome || (stripPrefix url "https://").isSome

/-- `encode_ok2_cap_segment`. The lengths are asserted in debug builds only. -/
def encodeOk2CapSegment (caps : List (String × String)) : Bytes :=
  beBytes 4 (min caps.length OK2_CAP_ITEM_MAX)
    ++ (caps.take OK2_CAP_ITEM_MAX).flatMap fun item => textField 2 item.1 ++ textField 2 item.2

/-- `Ok2Caps`. -/
structure Ok2Caps where
  items : List (String × String)
  skippedDuplicate : Nat
  skippedMalformed : Nat
  skippedNotRecipient : Nat
deriving DecidableEq

/-- The `i`-th URL and the bytes of its capability. -/
def scanCapItem (i : Nat) : Scan String (String × Bytes) := do
  let urlLen ← Scan.be 2 s!"OK2 cap item {i} url length prefix truncated"
  Scan.check (OK2_ITEM_BYTES_MAX < urlLen) s!"OK2 cap item {i} url exceeds {OK2_ITEM_BYTES_MAX}B"
  let url ← Scan.text urlLen s!"OK2 cap item {i} url bytes truncated"
    s!"OK2 cap item {i} url is not valid UTF-8"
  -- the URL, which follows in the source, is left out
  Scan.check (¬isHttp url) s!"OK2 cap item {i} url is not http(s)"
  let capLen ← Scan.be 2 s!"OK2 cap item {i} capability length prefix truncated"
  Scan.check (OK2_ITEM_BYTES_MAX < capLen)
    s!"OK2 cap item {i} capability exceeds {OK2_ITEM_BYTES_MAX}B"
  let cap ← Scan.take capLen s!"OK2 cap item {i} capability bytes truncated"
  return (url, cap)

section

variable [Crypto]

/-- What the joiner makes of one item: it is taken, or skipped and counted. -/
def Ok2Caps.add (redeemer : EndpointId) (out : Ok2Caps) (item : String × Bytes) : Ok2Caps :=
  match utf8Text? item.2 with
  | none => { out with skippedMalformed := out.skippedMalformed + 1 }
  | some cap =>
    match RelayCapV1.decode cap with
    | .error _ => { out with skippedMalformed := out.skippedMalformed + 1 }
    | .ok parsed =>
      if parsed.recipient ≠ redeemer then
        { out with skippedNotRecipient := out.skippedNotRecipient + 1 }
      else if out.items.any fun taken => taken.1 = item.1 then
        { out with skippedDuplicate := out.skippedDuplicate + 1 }
      else { out with items := out.items ++ [(item.1, cap)] }

/-- `parse_ok2_caps`. Nothing is taken of a segment that is not whole. -/
def parseOk2Caps (tail : Bytes) (redeemer : EndpointId) : Except String Ok2Caps := do
  let (count, bytes) ←
    (Scan.be 4 "OK2 capability segment shorter than the u32 count prefix").run tail
  if OK2_CAP_ITEM_MAX < count then
    throw s!"OK2 cap_item_count {count} exceeds the limit of {OK2_CAP_ITEM_MAX}"
  let (items, rest) ← (Scan.times scanCapItem 0 count).run bytes
  if rest.length ≠ 0 then
    throw s!"OK2 capability segment has {rest.length} trailing byte(s)"
  return items.foldl (Ok2Caps.add redeemer) ⟨[], 0, 0, 0⟩

/-! ### What is read of it -/

def capItemBytes (item : String × Bytes) : Bytes := textField 2 item.1 ++ bytesField 2 item.2

def UrlTaken (url : String) : Prop := (utf8Bytes url).length ≤ OK2_ITEM_BYTES_MAX ∧ isHttp url

def CapItemShort (item : String × Bytes) : Prop :=
  (utf8Bytes item.1).length < 256 ^ 2 ∧ item.2.length ≤ OK2_ITEM_BYTES_MAX

omit [Crypto] in
theorem codes_scanCapItem (i : Nat) :
    Scan.Codes (scanCapItem i) capItemBytes fun item => UrlTaken item.1 ∧ CapItemShort item := by
  rintro bs ⟨url, cap⟩ rest
  simp only [scanCapItem, Scan.run_bind_eq_ok, Scan.codes_be _ _ _ _ _, Scan.run_check_eq_ok,
    Scan.run_text_eq_ok, Scan.codes_take _ _ _ _ _, Scan.run_pure_eq_ok, Prod.mk.injEq, id, not_lt,
    not_not, capItemBytes, textField, bytesField, append_assoc, UrlTaken, CapItemShort]
  constructor
  · rintro ⟨_, _, ⟨hurl, rfl⟩, _, _, ⟨hshort, rfl⟩, url, _, ⟨rfl, rfl⟩, _, _, ⟨hhttp, rfl⟩, _, _,
      ⟨hcap, rfl⟩, _, _, ⟨hcapShort, rfl⟩, cap, _, ⟨rfl, rfl⟩, ⟨rfl, rfl⟩, rfl⟩
    exact ⟨⟨⟨hshort, hhttp⟩, hurl, hcapShort⟩, rfl⟩
  · rintro ⟨⟨⟨hshort, hhttp⟩, hurl, hcapShort⟩, rfl⟩
    have hcap : cap.length < 256 ^ 2 := hcapShort.trans_lt (by decide)
    exact ⟨_, _, ⟨hurl, rfl⟩, (), _, ⟨hshort, rfl⟩, _, _, ⟨rfl, rfl⟩, (), _, ⟨hhttp, rfl⟩, _, _,
      ⟨hcap, rfl⟩, (), _, ⟨hcapShort, rfl⟩, _, _, ⟨rfl, rfl⟩, ⟨rfl, rfl⟩, rfl⟩

omit [Crypto] in
theorem capItemBytes_append_inj (a b : String × Bytes) (x y : Bytes) (ha : CapItemShort a)
    (hb : CapItemShort b) (h : capItemBytes a ++ x = capItemBytes b ++ y) : a = b ∧ x = y := by
  have hshort : ∀ {item : String × Bytes}, CapItemShort item → item.2.length < 256 ^ 2 :=
    fun hitem => hitem.2.trans_lt (by decide)
  simp only [capItemBytes, append_assoc] at h
  obtain ⟨hurl, hrest⟩ := bytesField_append_inj ha.1 hb.1 h
  obtain ⟨hcap, hxy⟩ := bytesField_append_inj (hshort ha) (hshort hb) hrest
  exact ⟨Prod.ext (utf8Bytes_injective hurl) hcap, hxy⟩

def capItems (caps : List (String × String)) : List (String × Bytes) :=
  caps.map fun item => (item.1, utf8Bytes item.2)

omit [Crypto] in
theorem encodeOk2CapSegment_eq {caps : List (String × String)}
    (hcount : caps.length ≤ OK2_CAP_ITEM_MAX) :
    encodeOk2CapSegment caps = beBytes 4 caps.length ++ (capItems caps).flatMap capItemBytes := by
  rw [encodeOk2CapSegment, Nat.min_eq_left hcount, take_of_length_le hcount, capItems,
    flatMap_map]
  rfl

variable {caps : List (String × String)} {redeemer : EndpointId} {facts : List SignedFact}

/-- **The segment is read exactly if every URL is taken**, whole or as the front of more. -/
theorem parseOk2Caps_of_append {tail rest : Bytes} {out : Ok2Caps}
    (hcount : caps.length ≤ OK2_CAP_ITEM_MAX) (hshort : ∀ item ∈ capItems caps, CapItemShort item)
    (htail : encodeOk2CapSegment caps = tail ++ rest) (h : parseOk2Caps tail redeemer = .ok out) :
    rest = [] ∧ (∀ item ∈ caps, UrlTaken item.1)
      ∧ out = (capItems caps).foldl (Ok2Caps.add redeemer) ⟨[], 0, 0, 0⟩ := by
  simp only [parseOk2Caps, bind_eq_ok, ite_throw_eq_ok, pure_eq_ok, Prod.exists] at h
  obtain ⟨count, bytes, hcountRun, hmax, items, last, hitemsRun, hlast, rfl⟩ := h
  obtain ⟨hlt, rfl⟩ := (Scan.codes_be 4 _ _ _ _).mp hcountRun
  obtain ⟨⟨hlen, hitems⟩, rfl⟩ := (Scan.Codes.times codes_scanCapItem 0 count _ _ _).mp hitemsRun
  obtain rfl : last = [] := eq_nil_of_length_eq_zero (not_not.mp hlast)
  rw [encodeOk2CapSegment_eq hcount, append_nil, append_assoc] at htail
  obtain ⟨hcounts, hrest⟩ := (append_inj_of_length (by simp)).mp htail
  have hlt' : caps.length < 256 ^ 4 := hcount.trans_lt (by decide)
  have hsame : caps.length = count := (beBytes_inj hlt' hlt).mp hcounts
  have hlens : (capItems caps).length = items.length := by
    rw [capItems, length_map, hsame, hlen]
  have hsplit : (capItems caps).flatMap capItemBytes ++ [] = items.flatMap capItemBytes ++ rest := by
    rw [append_nil]
    exact hrest
  obtain ⟨rfl, hnil⟩ := flatMap_append_inj capItemBytes_append_inj hlens hshort
    (fun item hmem => (hitems item hmem).2) hsplit
  refine ⟨hnil.symm, fun item hmem => ?_, rfl⟩
  exact (hitems _ (mem_map_of_mem hmem)).1

omit [Crypto] in
/-- From `out` to `out'` by the capabilities: none is skipped but as a duplicate, and of one URL
the first is taken. -/
structure Ok2Caps.Takes (caps : List (String × String)) (out out' : Ok2Caps) : Prop where
  malformed : out'.skippedMalformed = out.skippedMalformed
  notRecipient : out'.skippedNotRecipient = out.skippedNotRecipient
  first : ∀ url, out'.items.find? (·.1 = url) = (out.items ++ caps).find? (·.1 = url)
  unique : (out.items.map Prod.fst).Nodup → (out'.items.map Prod.fst).Nodup

theorem Ok2Caps.add_eq {item : String × String} {parsed : RelayCapV1}
    (hdecode : RelayCapV1.decode item.2 = .ok parsed) (hrecipient : parsed.recipient = redeemer)
    (out : Ok2Caps) :
    out.add redeemer (item.1, utf8Bytes item.2)
      = if out.items.any fun taken => taken.1 = item.1 then
          { out with skippedDuplicate := out.skippedDuplicate + 1 }
        else { out with items := out.items ++ [item] } := by
  rw [Ok2Caps.add]
  dsimp only
  rw [utf8Text?_utf8Bytes]
  dsimp only
  rw [hdecode]
  dsimp only
  rw [if_neg (not_not.mpr hrecipient)]

/-- **Nothing but duplicates is skipped** of capabilities for the redeemer. -/
theorem takes_foldl_add
    (hcaps : ∀ item ∈ caps, ∃ parsed, RelayCapV1.decode item.2 = .ok parsed ∧ parsed.recipient = redeemer)
    (out : Ok2Caps) : out.Takes caps ((capItems caps).foldl (Ok2Caps.add redeemer) out) := by
  induction caps generalizing out with
  | nil =>
    refine ⟨rfl, rfl, fun url => ?_, id⟩
    rw [append_nil]
    rfl
  | cons item caps ih =>
    obtain ⟨⟨parsed, hdecode, hrecipient⟩, hcaps⟩ := forall_mem_cons.mp hcaps
    show out.Takes (item :: caps)
      ((capItems caps).foldl (Ok2Caps.add redeemer) (out.add redeemer (item.1, utf8Bytes item.2)))
    rw [Ok2Caps.add_eq hdecode hrecipient]
    by_cases hdup : out.items.any fun taken => taken.1 = item.1
    · rw [if_pos hdup]
      have htakes := ih hcaps { out with skippedDuplicate := out.skippedDuplicate + 1 }
      refine ⟨htakes.malformed, htakes.notRecipient, fun url => (htakes.first url).trans ?_,
        htakes.unique⟩
      -- the first of the URL is taken already
      rw [find?_append, find?_append, find?_cons]
      by_cases hurl : item.1 = url
      · have hsome : (out.items.find? (·.1 = url)).isSome := by
          rw [find?_isSome]
          obtain ⟨taken, hmem, htaken⟩ := any_eq_true.mp hdup
          exact ⟨taken, hmem, by rw [← hurl]; exact htaken⟩
        obtain ⟨first, hfirst⟩ := Option.isSome_iff_exists.mp hsome
        rw [hfirst]
        rfl
      · rw [decide_eq_false hurl]
    · rw [if_neg hdup]
      have htakes := ih hcaps { out with items := out.items ++ [item] }
      refine ⟨htakes.malformed, htakes.notRecipient, fun url => (htakes.first url).trans ?_,
        fun hunique => htakes.unique ?_⟩
      · rw [append_assoc, singleton_append]
      · have hnew : item.1 ∉ out.items.map Prod.fst := by
          intro hmem
          obtain ⟨taken, hmem, htaken⟩ := mem_map.mp hmem
          exact hdup (any_eq_true.mpr ⟨taken, hmem, decide_eq_true htaken⟩)
        rw [map_append, map_singleton]
        exact hunique.append (nodup_singleton _) (disjoint_singleton.mpr hnew)

theorem parseOk2Caps_encode (hcount : caps.length ≤ OK2_CAP_ITEM_MAX)
    (hshort : ∀ item ∈ capItems caps, CapItemShort item) (htaken : ∀ item ∈ caps, UrlTaken item.1) :
    parseOk2Caps (encodeOk2CapSegment caps) redeemer
      = .ok ((capItems caps).foldl (Ok2Caps.add redeemer) ⟨[], 0, 0, 0⟩) := by
  have hlt : caps.length < 256 ^ 4 := hcount.trans_lt (by decide)
  have hitems : ∀ item ∈ capItems caps, UrlTaken item.1 ∧ CapItemShort item := by
    intro item hmem
    obtain ⟨cap, hcap, rfl⟩ := mem_map.mp hmem
    exact ⟨htaken cap hcap, hshort _ hmem⟩
  have hlen : (capItems caps).length = caps.length := length_map _
  rw [encodeOk2CapSegment_eq hcount]
  simp only [parseOk2Caps, bind_eq_ok, ite_throw_eq_ok, pure_eq_ok, Prod.exists]
  exact ⟨caps.length, _, (Scan.codes_be 4 _ _ _ _).mpr ⟨hlt, rfl⟩, Nat.not_lt.mpr hcount,
    capItems caps, [], (Scan.Codes.times codes_scanCapItem 0 caps.length _ _ _).mpr
      ⟨⟨hlen, hitems⟩, (append_nil _).symm⟩, fun hne => hne rfl, rfl⟩

/-! ## What the issuer mints -/

def MEMBER_CAP_TTL_MS : UInt64 := 90 * 24 * 60 * 60 * 1000

def MEMBER_CAPS : UInt8 := CAP_RELAY

structure RedeemCapMinter where
  fabricId : FabricId
  signer : Crypto.SecretKey
  /-- The restricted relays of the issuer, with their servers. -/
  restricted : List (String × BytesN 32)

/-- `mint_for`: a capability for each restricted relay that the invite names. -/
def RedeemCapMinter.mintFor (minter : RedeemCapMinter) (redeemer : EndpointId)
    (inviteRelays : List InviteRelayV2) (nowMs : UInt64) : List (String × String) :=
  let expires := saturatingAdd nowMs MEMBER_CAP_TTL_MS
  minter.restricted.filterMap fun entry =>
    if ¬inviteRelays.any fun r => r.url = entry.1 then none
    else (RelayCapV1.signAndEncode minter.signer minter.fabricId entry.2 redeemer MEMBER_CAPS nowMs
      expires).toOption.map fun token => (entry.1, token)

theorem RelayCapV1.length_token (cap : RelayCapV1) (signature : Signature) :
    (utf8Bytes (cap.token signature)).length = 287 := by
  have hprefix : (utf8Bytes RELAY_CAP_TOKEN_PREFIX).length = 7 := by decide +kernel
  have hwire : (cap.canonicalBytes ++ signature.toBytes).length = RELAY_CAP_WIRE_LEN := by
    rw [length_append, length_canonicalBytes, signature.length_toBytes]
    rfl
  rw [RelayCapV1.token, utf8Bytes_append, length_append, length_base64Encode_wire hwire,
    hprefix]
  rfl

/-- **What is minted**: capabilities for the redeemer, at relays of the invite. -/
theorem RedeemCapMinter.of_mem_mintFor {minter : RedeemCapMinter}
    {inviteRelays : List InviteRelayV2} {nowMs : UInt64} {item : String × String}
    (h : item ∈ minter.mintFor redeemer inviteRelays nowMs) :
    (∃ relay ∈ inviteRelays, relay.url = item.1) ∧ (utf8Bytes item.2).length = 287
      ∧ ∃ parsed, RelayCapV1.decode item.2 = .ok parsed ∧ parsed.recipient = redeemer := by
  obtain ⟨entry, -, hentry⟩ := mem_filterMap.mp h
  split at hentry
  · cases hentry
  · next hany =>
    obtain ⟨relay, hmem, hurl⟩ := any_eq_true.mp (not_not.mp hany)
    cases hsign : RelayCapV1.signAndEncode minter.signer minter.fabricId entry.2 redeemer
        MEMBER_CAPS nowMs (saturatingAdd nowMs MEMBER_CAP_TTL_MS) with
    | error e =>
      rw [hsign] at hentry
      cases hentry
    | ok token =>
      rw [hsign] at hentry
      cases hentry
      obtain ⟨hknown, -, -, cap, rfl, rfl⟩ := RelayCapV1.signAndEncode_eq_ok hsign
      exact ⟨⟨relay, hmem, of_decide_eq_true hurl⟩, RelayCapV1.length_token _ _, _,
        RelayCapV1.decode_eq_ok.mpr ⟨hknown, _, rfl⟩, rfl⟩

theorem RedeemCapMinter.length_mintFor (minter : RedeemCapMinter) (redeemer : EndpointId)
    (inviteRelays : List InviteRelayV2) (nowMs : UInt64) :
    (minter.mintFor redeemer inviteRelays nowMs).length ≤ minter.restricted.length :=
  length_filterMap_le _ _

/-! ## What the joiner reads -/

/-- `RedeemError`. -/
inductive RedeemError where
  | rejected (rejection : RedeemRejection)
  | unstructured (reason : String)
  | timeout
deriving DecidableEq

/-- What a `REDEEM_ERR` frame comes to. -/
def refusal (payload : Bytes) : RedeemError :=
  match decodeRecords payload with
  | .error v => .unstructured ("redeem error frame violated wire: " ++ v.display)
  | .ok [] => .unstructured "redeem error frame carries no record"
  | .ok records => .rejected (reduce records)

def factDecodeFailed (e : ProtocolError) : RedeemError :=
  .unstructured ("receipt fact decode failed: " ++ e.display)

/-- The last frame of `redeem_as_joiner`. -/
def readReceipt (stream : Bytes) : Except RedeemError (List SignedFact) := do
  let ((frameType, payload), _) ←
    ((readFrame MAX_REDEEM_FRAME).run stream).mapError fun e => .unstructured e.display
  if frameType = FrameType.REDEEM_OK then (SignedFact.decodeAll payload).mapError factDecodeFailed
  else if frameType = FrameType.REDEEM_ERR then throw (refusal payload)
  else throw (.unstructured ("unexpected frame " ++ hexAlternate frameType))

structure RedeemReceiptV2 where
  facts : List SignedFact
  relayCaps : List (String × String)
  skipped : Ok2Caps

/-- The payload of a `REDEEM_OK2` frame. -/
def parseReceiptV2 (payload : Bytes) (redeemer : EndpointId) :
    Except RedeemError RedeemReceiptV2 := do
  let (facts, consumed) ← (SignedFact.decodeAllPrefix payload).mapError factDecodeFailed
  if MAX_HELLO_FACTS < facts.length then
    throw (.unstructured "receipt fact count exceeds the limit")
  let caps ← (parseOk2Caps (payload.drop consumed) redeemer).mapError fun why =>
    .unstructured ("OK2 frame violated wire: " ++ why)
  return { facts, relayCaps := caps.items, skipped := caps }

/-- The last frame of `redeem_v2_as_joiner`. -/
def readReceiptV2 (stream : Bytes) (redeemer : EndpointId) :
    Except RedeemError RedeemReceiptV2 := do
  let ((frameType, payload), _) ←
    ((readFrame MAX_REDEEM_FRAME).run stream).mapError fun e => .unstructured e.display
  if frameType = FrameType.REDEEM_OK2 then parseReceiptV2 payload redeemer
  else if frameType = FrameType.REDEEM_OK then do
    let facts ← (SignedFact.decodeAll payload).mapError factDecodeFailed
    return { facts, relayCaps := [], skipped := ⟨[], 0, 0, 0⟩ }
  else if frameType = FrameType.REDEEM_ERR then throw (refusal payload)
  else throw (.unstructured ("unexpected frame " ++ hexAlternate frameType))

/-- The frame that `dialer_hello` and `acceptor_hello` read. -/
def readHello (stream : Bytes) : Except SessionError (List SignedFact) := do
  let ((frameType, payload), _) ← (readFrame MAX_FRAME).run stream
  if frameType ≠ FrameType.HELLO then
    throw (.redeemRejected ("expect HELLO, got " ++ hexAlternate frameType))
  let facts ← (SignedFact.decodeAll payload).mapError .protocol
  if MAX_HELLO_FACTS < facts.length then throw (.frameTooLarge MAX_HELLO_FACTS)
  return facts

/-! ### What is read back -/

theorem length_listBytes_le (facts : List SignedFact) :
    187 * facts.length ≤ (SignedFact.listBytes facts).length := by
  have hframe : ∀ sf : SignedFact, 187 ≤ sf.frame.length := by
    intro sf
    rw [SignedFact.length_frame, Fact.layout_eq, length_append]
    have hfixed : sf.fact.fixedFields.length = 119 := sf.fact.length_fixedFields
    omega
  have hframes : 187 * facts.length ≤ (facts.map SignedFact.frame).flatten.length := by
    induction facts with
    | nil => exact Nat.le_refl 0
    | cons sf facts ih =>
      have hsf := hframe sf
      rw [map_cons, flatten_cons, length_append, length_cons]
      omega
  rw [SignedFact.listBytes, length_append]
  omega

theorem listBytes_of_decodeAllPrefix {bytes : Bytes} {consumed : Nat}
    (h : SignedFact.decodeAllPrefix bytes = .ok (facts, consumed)) :
    bytes = SignedFact.listBytes facts ++ bytes.drop consumed := by
  unfold SignedFact.decodeAllPrefix at h
  split at h
  · cases h
  · next hlen =>
    obtain ⟨hframes, hle, -, hcount, -⟩ :=
      SignedFact.frames_of_decodeItems (Nat.le_of_not_lt hlen) h
    have hsize : (slice bytes 0 4).length = 4 := by rw [length_slice (by omega)]
    have hback := beBytes_beNat (slice bytes 0 4)
    rw [hsize] at hback
    have hfront : SignedFact.listBytes facts = bytes.take consumed := by
      rw [SignedFact.listBytes, hcount, hback, ← hframes, slice_append_slice (by omega) hle, slice,
        drop_zero, Nat.sub_zero]
    rw [hfront, take_append_drop]

theorem decodeAllPrefix_listBytes (hall : ∀ sf ∈ facts, sf.fact.Representable)
    (hcount : facts.length < 256 ^ 4) (tail : Bytes) :
    SignedFact.decodeAllPrefix (SignedFact.listBytes facts ++ tail)
      = .ok (facts, (SignedFact.listBytes facts).length) := by
  have hlenBytes : slice (SignedFact.listBytes facts ++ tail) 0 4 = beBytes 4 facts.length := by
    rw [SignedFact.listBytes, append_assoc]
    exact slice_append_self (by simp)
  have hloop := SignedFact.decodeItems_frames facts.length facts (beBytes 4 facts.length) tail hall
  rw [length_beBytes] at hloop
  unfold SignedFact.decodeAllPrefix
  rw [if_neg (by simp [SignedFact.listBytes]), hlenBytes, beNat_beBytes_of_lt hcount]
  simpa [SignedFact.listBytes] using hloop

omit [Crypto] in
theorem frameFits_of_le {limit : Nat} {payload : Bytes} (hlimit : limit ≤ MAX_FRAME)
    (h : 5 + payload.length ≤ limit) : FrameFits limit payload := by
  have hmax : MAX_FRAME < 256 ^ 4 := by decide
  exact ⟨h, by omega⟩

theorem le_of_decodeAll {limit : Nat} {frameType frameType' : UInt8} {payload rest : Bytes}
    (hframe : (readFrame limit).run (writeFrame frameType (SignedFact.listBytes facts)) = .ok ((frameType', payload), rest))
    (hdecode : SignedFact.decodeAll payload = .ok facts) :
    5 + (SignedFact.listBytes facts).length ≤ limit := by
  rw [← append_nil (writeFrame _ _)] at hframe
  obtain ⟨-, -, hfits⟩ := readFrame_writeFrame hframe
  obtain ⟨hpayload, -⟩ := SignedFact.listBytes_of_decodeAll hdecode
  rw [← hpayload]
  exact hfits.1

/-- **The receipt of the first version** is read back if and only if it is within the frame. -/
theorem readReceipt_writeFrame (hall : ∀ sf ∈ facts, sf.fact.Representable) :
    readReceipt (writeFrame FrameType.REDEEM_OK (SignedFact.listBytes facts)) = .ok facts
      ↔ 5 + (SignedFact.listBytes facts).length ≤ MAX_REDEEM_FRAME := by
  constructor
  · intro h
    simp only [readReceipt, bind_eq_ok, mapError_eq_ok, Prod.exists] at h
    obtain ⟨frameType, payload, rest, hframe, h⟩ := h
    split at h
    · exact le_of_decodeAll hframe (mapError_eq_ok.mp h)
    · split at h
      · cases h
      · cases h
  · intro h
    have hcount : facts.length < 256 ^ 4 := by
      have hle := length_listBytes_le facts
      have hmax : MAX_REDEEM_FRAME < 256 ^ 4 := by decide
      omega
    have hframe := run_readFrame FrameType.REDEEM_OK
      (frameFits_of_le (by decide) h)
    simp only [readReceipt, bind_eq_ok, mapError_eq_ok, Prod.exists]
    refine ⟨_, _, _, hframe, ?_⟩
    rw [if_pos rfl, mapError_eq_ok]
    exact SignedFact.decodeAll_listBytes hall hcount

/-- **A HELLO** is read back if and only if it is within the frame: fewer facts than the limit fit
in one. -/
theorem readHello_writeFrame (hall : ∀ sf ∈ facts, sf.fact.Representable) :
    readHello (writeFrame FrameType.HELLO (SignedFact.listBytes facts)) = .ok facts
      ↔ 5 + (SignedFact.listBytes facts).length ≤ MAX_FRAME := by
  constructor
  · intro h
    simp only [readHello, bind_eq_ok, ite_throw_eq_ok, mapError_eq_ok, pure_eq_ok,
      Prod.exists] at h
    obtain ⟨frameType, payload, rest, hframe, -, facts', hdecode, -, rfl⟩ := h
    exact le_of_decodeAll hframe hdecode
  · intro h
    have hle := length_listBytes_le facts
    have hmax : MAX_FRAME = 1048576 := by decide
    have hcount : facts.length < 256 ^ 4 := by omega
    have hfew : ¬MAX_HELLO_FACTS < facts.length := by
      rw [MAX_HELLO_FACTS]
      omega
    have hframe := run_readFrame FrameType.HELLO (frameFits_of_le le_rfl h)
    simp only [readHello, bind_eq_ok, ite_throw_eq_ok, mapError_eq_ok, pure_eq_ok, Prod.exists]
    exact ⟨_, _, _, hframe, fun hne => hne rfl, facts,
      SignedFact.decodeAll_listBytes hall hcount, hfew, rfl⟩

/-- **The receipt of the second version** is read back, with all the facts, if and only if it is
within the frame and every URL is one that the joiner takes. -/
theorem readReceiptV2_writeFrame (hall : ∀ sf ∈ facts, sf.fact.Representable)
    (hcount : caps.length ≤ OK2_CAP_ITEM_MAX) (hshort : ∀ item ∈ capItems caps, CapItemShort item)
    (receipt : RedeemReceiptV2) :
    readReceiptV2 (writeFrame FrameType.REDEEM_OK2
        (SignedFact.listBytes facts ++ encodeOk2CapSegment caps)) redeemer = .ok receipt
        ∧ receipt.facts = facts
      ↔ (5 + (SignedFact.listBytes facts ++ encodeOk2CapSegment caps).length ≤ MAX_REDEEM_FRAME
          ∧ ∀ item ∈ caps, UrlTaken item.1)
        ∧ receipt.facts = facts ∧ receipt.relayCaps = receipt.skipped.items
        ∧ receipt.skipped = (capItems caps).foldl (Ok2Caps.add redeemer) ⟨[], 0, 0, 0⟩ := by
  constructor
  · rintro ⟨h, hfacts⟩
    simp only [readReceiptV2, bind_eq_ok, mapError_eq_ok, Prod.exists] at h
    obtain ⟨frameType, payload, rest, hframe, h⟩ := h
    rw [← append_nil (writeFrame _ _)] at hframe
    obtain ⟨rfl, hpayload, hfits⟩ := readFrame_writeFrame hframe
    rw [if_pos rfl, parseReceiptV2] at h
    simp only [bind_eq_ok, ite_throw_eq_ok, mapError_eq_ok, pure_eq_ok, Prod.exists] at h
    obtain ⟨facts', consumed, hdecode, -, out, hparse, rfl⟩ := h
    obtain rfl : facts' = facts := hfacts
    have hfront := listBytes_of_decodeAllPrefix hdecode
    rw [append_nil] at hpayload
    -- the segment that was sent is what was parsed, and what was not read
    have hsegment : encodeOk2CapSegment caps = payload.drop consumed ++ rest := by
      rw [hfront, append_assoc] at hpayload
      exact append_cancel_left hpayload
    obtain ⟨rfl, htaken, hout⟩ := parseOk2Caps_of_append hcount hshort hsegment hparse
    rw [hpayload, append_nil]
    exact ⟨⟨hfits.1, htaken⟩, rfl, rfl, hout⟩
  · rintro ⟨⟨hlimit, htaken⟩, hfacts, hcaps, hskipped⟩
    have hle := length_listBytes_le facts
    have hmax : MAX_REDEEM_FRAME = 32768 := by decide
    have hlen := hlimit
    rw [length_append] at hlen
    have hcount' : facts.length < 256 ^ 4 := by omega
    have hfew : ¬MAX_HELLO_FACTS < facts.length := by
      rw [MAX_HELLO_FACTS]
      omega
    have hframe := run_readFrame FrameType.REDEEM_OK2
      (frameFits_of_le (by decide) hlimit)
    refine ⟨?_, hfacts⟩
    simp only [readReceiptV2, bind_eq_ok, mapError_eq_ok, Prod.exists]
    refine ⟨_, _, _, hframe, ?_⟩
    rw [if_pos rfl, parseReceiptV2]
    simp only [bind_eq_ok, ite_throw_eq_ok, mapError_eq_ok, pure_eq_ok, Prod.exists]
    refine ⟨facts, _, decodeAllPrefix_listBytes hall hcount' _, hfew, receipt.skipped, ?_, ?_⟩
    · rw [drop_left, hskipped]
      exact parseOk2Caps_encode hcount hshort htaken
    · rw [← hfacts, ← hcaps]

end

end Dweb
