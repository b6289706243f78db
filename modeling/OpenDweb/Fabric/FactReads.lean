import OpenDweb.Fabric.FactCodec
import OpenDweb.Lib.Panic

/-!
# OpenDweb — the strict fact decoders on arbitrary bytes

The decoders read at offsets the sender chose. Here every index, slice, `expect` and `usize`
sum of `parse_fact_prefix` and the decoders built on it is written out with the panic it could
end in.

* **`parseFactPrefixChecked`**, **`SignedFact.decodeChecked`**,
  **`SignedFact.decodeAllPrefixChecked`** — the decoders, panics included.
* **`SignedFact.decodeAllPrefixChecked_eq`** and its like — on no byte string does one panic.
* **`fact_codec_strict`** — the codec as a whole. Facts and frames round-trip in both
  directions, and a list of facts does so exactly if the `u32` in front of it holds its length.
-/

namespace Dweb

variable [Crypto]

/-! ## The decoders with their panics -/

/-- The `display_name` part of `parse_fact_prefix`. -/
def parseNameChecked (bytes : Bytes) (flags : UInt8) (off : Nat) :
    MayPanic ProtocolError (Option String × Nat) :=
  if flags &&& FLAG_HAS_NAME ≠ 0 then do
    let stop ← orPanic (usizeAdd off 2)
    if bytes.length < stop then throw (truncFact "display_name length prefix")
    let nameLen := beNat (← orPanic (indexesChecked bytes off 2))
    let off := stop
    if MAX_NAME_BYTES < nameLen then
      throw (.quarantine
        s!"display_name of {nameLen} bytes exceeds the {MAX_NAME_BYTES} byte limit")
    let stop ← orPanic (usizeAdd off nameLen)
    if bytes.length < stop then throw (truncFact "display_name bytes")
    match fromUtf8 (← orPanic (sliceChecked bytes off stop)) with
    | none => throw (.quarantine "display_name is not valid UTF-8")
    | some name => return (some name, stop)
  else return (none, off)

/-- The `expires_at_ms` part of `parse_fact_prefix`. -/
def parseExpiryChecked (bytes : Bytes) (flags : UInt8) (off : Nat) :
    MayPanic ProtocolError (Option UInt64 × Nat) :=
  if flags &&& FLAG_HAS_EXPIRY ≠ 0 then do
    let stop ← orPanic (usizeAdd off 8)
    if bytes.length < stop then throw (truncFact "expires_at_ms")
    let exp ← orPanic (arrayChecked bytes off stop 8)
    return (some (UInt64.ofNat (beNat exp.toBytes)), stop)
  else return (none, off)

/-- The `target_fact_id` part of `parse_fact_prefix`. -/
def parseTargetChecked (bytes : Bytes) (flags : UInt8) (off : Nat) :
    MayPanic ProtocolError (Option FactId × Nat) :=
  if flags &&& FLAG_HAS_TARGET ≠ 0 then do
    let stop ← orPanic (usizeAdd off 32)
    if bytes.length < stop then throw (truncFact "target_fact_id")
    let target ← orPanic (arrayChecked bytes off stop 32)
    return (some target, stop)
  else return (none, off)

/-- `key_from_bytes` on a slice: a slice of another length is an error, not a panic. -/
def keyFromSlice (bytes : Bytes) : Except ProtocolError EndpointId := do
  let key ← okOr (BytesN.ofBytes? 32 bytes) (.quarantine "key field is not 32 bytes")
  keyFromBytes key

/-- `parse_fact_prefix`. -/
def parseFactPrefixChecked (bytes : Bytes) : MayPanic ProtocolError (Fact × Nat) := do
  if bytes.length < FACT_FIXED_LEN then
    throw (truncFact "shorter than the fixed 119-byte prefix")
  let domain ← orPanic (sliceChecked bytes 0 FACT_DOMAIN.length)
  if domain ≠ FACT_DOMAIN then
    throw (.quarantine
      s!"bad fact domain {debugBytes bytes} (expected {debugBytes FACT_DOMAIN})")
  let kindByte ← orPanic bytes[13]?
  let kind ← sure (okOr (FactKind.fromU8 kindByte)
    (.quarantine s!"unknown fact kind 0x{hexByte kindByte}"))
  let fabricId ← orPanic (arrayChecked bytes 14 46 32)
  let issuer ← sure (keyFromSlice (← orPanic (sliceChecked bytes 46 78)))
  let subject ← sure (keyFromSlice (← orPanic (sliceChecked bytes 78 110)))
  let issuedAtMs ← orPanic (arrayChecked bytes 110 118 8)
  let flags ← orPanic bytes[118]?
  if flags &&& ~~~(FLAG_HAS_NAME ||| FLAG_HAS_EXPIRY ||| FLAG_HAS_TARGET) ≠ 0 then
    throw (.quarantine s!"reserved flag bits set: 0x{hexByte flags}")
  let (displayName, off) ← parseNameChecked bytes flags FACT_FIXED_LEN
  let (expiresAtMs, off) ← parseExpiryChecked bytes flags off
  let (targetFactId, off) ← parseTargetChecked bytes flags off
  return (⟨kind, fabricId, issuer, subject, displayName,
    UInt64.ofNat (beNat issuedAtMs.toBytes), expiresAtMs, targetFactId⟩, off)

/-- `Fact::decode_strict`. -/
def Fact.decodeStrictChecked (bytes : Bytes) : MayPanic ProtocolError Fact := do
  let (fact, consumed) ← parseFactPrefixChecked bytes
  if consumed ≠ bytes.length then do
    let left ← orPanic (usizeSub bytes.length consumed)
    throw (.quarantine s!"{left} trailing byte(s) after canonical fact")
  else return fact

namespace SignedFact

/-- `SignedFact::decode`. -/
def decodeChecked (bytes : Bytes) : MayPanic ProtocolError SignedFact := do
  if bytes.length < 4 + SIGNATURE_LENGTH then
    throw (.quarantine ("signed fact wire frame of " ++
      s!"{bytes.length} bytes shorter than the minimum {4 + SIGNATURE_LENGTH}"))
  let factLen := beNat (← orPanic (indexesChecked bytes 0 4))
  let stop ← sure (okOr ((usizeAdd 4 factLen).bind fun v => usizeAdd v SIGNATURE_LENGTH)
    (.quarantine "signed fact length overflow"))
  if bytes.length ≠ stop then
    throw (.quarantine ("signed fact wire frame length mismatch: " ++
      s!"header says {stop}, got {bytes.length}"))
  let factEnd ← orPanic (usizeAdd 4 factLen)
  let fact ← Fact.decodeStrictChecked (← orPanic (sliceChecked bytes 4 factEnd))
  let signature ← orPanic (arrayChecked bytes factEnd stop 64)
  return ⟨fact, signature⟩

/-- The item loop of `decode_all_prefix`. -/
def decodeItemsChecked (bytes : Bytes) (count : Nat) :
    Nat → Nat → MayPanic ProtocolError (List SignedFact × Nat)
  | 0, off => return ([], off)
  | n + 1, off => do
    let i := count - (n + 1)
    let lenEnd ← orPanic (usizeAdd off 4)
    if bytes.length < lenEnd then
      throw (.quarantine s!"fact list truncated at item {i}'s length prefix")
    let frameLen := beNat (← orPanic (indexesChecked bytes off 4))
    let frameEnd ← sure (okOr (((usizeAdd off 4).bind fun v => usizeAdd v frameLen).bind
        fun v => usizeAdd v SIGNATURE_LENGTH)
      (.quarantine "fact list length overflow"))
    if bytes.length < frameEnd then
      throw (.quarantine s!"fact list truncated inside item {i}")
    let sf ← decodeChecked (← orPanic (sliceChecked bytes off frameEnd))
    let (rest, off) ← decodeItemsChecked bytes count n frameEnd
    return (sf :: rest, off)

/-- `SignedFact::decode_all_prefix`. -/
def decodeAllPrefixChecked (bytes : Bytes) :
    MayPanic ProtocolError (List SignedFact × Nat) := do
  if bytes.length < 4 then
    throw (.quarantine "fact list shorter than the u32 count prefix")
  let count := beNat (← orPanic (indexesChecked bytes 0 4))
  decodeItemsChecked bytes count count 4

/-- `SignedFact::decode_all`. -/
def decodeAllChecked (bytes : Bytes) : MayPanic ProtocolError (List SignedFact) := do
  let (facts, consumed) ← decodeAllPrefixChecked bytes
  if consumed ≠ bytes.length then do
    let left ← orPanic (usizeSub bytes.length consumed)
    throw (.quarantine s!"{left} trailing byte(s) after fact list")
  else return facts

end SignedFact

/-! ## None of it panics -/

omit [Crypto] in
theorem usizeAdd_offset {bytes : Bytes} {off n : Nat} (hsize : bytes.length ≤ ISIZE_MAX)
    (hoff : off ≤ bytes.length) (hn : n ≤ 2 ^ 33) : usizeAdd off n = some (off + n) := by
  apply usizeAdd_of_lt
  unfold ISIZE_MAX at hsize
  omega

omit [Crypto] in
theorem parseNameChecked_eq {bytes : Bytes} {off : Nat} (hsize : bytes.length ≤ ISIZE_MAX)
    (hoff : off ≤ bytes.length) (flags : UInt8) :
    parseNameChecked bytes flags off = sure (parseName bytes flags off) := by
  unfold parseNameChecked parseName
  by_cases hset : flags &&& FLAG_HAS_NAME ≠ 0
  · rw [if_pos hset, if_pos hset, orPanic_bind (usizeAdd_offset hsize hoff (by norm_num))]
    by_cases hlen : bytes.length < off + 2
    · rw [if_pos hlen, if_pos hlen]
      rfl
    rw [if_neg hlen, if_neg hlen, orPanic_bind (indexesChecked_of_le (by omega))]
    by_cases hmax : MAX_NAME_BYTES < beNat (slice bytes off (off + 2))
    · rw [if_pos hmax, if_pos hmax]
      rfl
    rw [if_neg hmax, if_neg hmax]
    have hname : beNat (slice bytes off (off + 2)) ≤ 2 ^ 33 := by
      norm_num [MAX_NAME_BYTES] at *
      omega
    rw [orPanic_bind (usizeAdd_offset hsize (by omega) hname)]
    by_cases hbody : bytes.length < off + 2 + beNat (slice bytes off (off + 2))
    · rw [if_pos hbody, if_pos hbody]
      rfl
    rw [if_neg hbody, if_neg hbody, orPanic_bind (sliceChecked_of_le (by omega) (by omega))]
    cases fromUtf8 (slice bytes (off + 2) (off + 2 + beNat (slice bytes off (off + 2)))) with
    | none => rfl
    | some name => rfl
  · rw [if_neg hset, if_neg hset]
    rfl

omit [Crypto] in
theorem parseExpiryChecked_eq {bytes : Bytes} {off : Nat} (hsize : bytes.length ≤ ISIZE_MAX)
    (hoff : off ≤ bytes.length) (flags : UInt8) :
    parseExpiryChecked bytes flags off = sure (parseExpiry bytes flags off) := by
  unfold parseExpiryChecked parseExpiry
  by_cases hset : flags &&& FLAG_HAS_EXPIRY ≠ 0
  · rw [if_pos hset, if_pos hset, orPanic_bind (usizeAdd_offset hsize hoff (by norm_num))]
    by_cases hlen : bytes.length < off + 8
    · rw [if_pos hlen, if_pos hlen]
      rfl
    rw [if_neg hlen, if_neg hlen, orPanic_bind (arrayChecked_of_le rfl (by omega)),
      toBytes_arrayAt (by omega)]
    rfl
  · rw [if_neg hset, if_neg hset]
    rfl

omit [Crypto] in
theorem parseTargetChecked_eq {bytes : Bytes} {off : Nat} (hsize : bytes.length ≤ ISIZE_MAX)
    (hoff : off ≤ bytes.length) (flags : UInt8) :
    parseTargetChecked bytes flags off = sure (parseTarget bytes flags off) := by
  unfold parseTargetChecked parseTarget
  by_cases hset : flags &&& FLAG_HAS_TARGET ≠ 0
  · rw [if_pos hset, if_pos hset, orPanic_bind (usizeAdd_offset hsize hoff (by norm_num))]
    by_cases hlen : bytes.length < off + 32
    · rw [if_pos hlen, if_pos hlen]
      rfl
    rw [if_neg hlen, if_neg hlen, orPanic_bind (arrayChecked_of_le rfl (by omega))]
    rfl
  · rw [if_neg hset, if_neg hset]
    rfl

variable {bytes : Bytes}

theorem keyFromSlice_slice {a : Nat} (h : a + 32 ≤ bytes.length) :
    keyFromSlice (slice bytes a (a + 32)) = keyFromBytes (arrayAt bytes a 32) := by
  rw [keyFromSlice, ← toBytes_arrayAt h, BytesN.ofBytes?_toBytes]
  rfl

/-- **`parse_fact_prefix` does not panic.** -/
theorem parseFactPrefixChecked_eq (hsize : bytes.length ≤ ISIZE_MAX) :
    parseFactPrefixChecked bytes = sure (parseFactPrefix bytes) := by
  unfold parseFactPrefixChecked parseFactPrefix
  apply guard_sure
  intro hlen
  have hfixed : FACT_FIXED_LEN ≤ bytes.length := Nat.le_of_not_lt hlen
  have hlen : 119 ≤ bytes.length := hfixed
  rw [orPanic_bind (sliceChecked_of_le (Nat.zero_le _) (hlen.trans' (by norm_num [FACT_DOMAIN])))]
  apply guard_sure
  intro _
  rw [orPanic_bind (getElem?_eq_getD (by omega))]
  apply sure_bind
  intro kind _
  -- the fields behind the length check
  have hfabric : arrayChecked bytes 14 46 32 = some (arrayAt bytes 14 32) :=
    arrayChecked_of_le rfl (by omega)
  have hissued : arrayChecked bytes 110 118 8 = some (arrayAt bytes 110 8) :=
    arrayChecked_of_le rfl (by omega)
  have hbytes : (arrayAt bytes 110 8).toBytes = slice bytes 110 118 :=
    toBytes_arrayAt (by omega)
  have hissuer : keyFromSlice (slice bytes 46 78) = keyFromBytes (arrayAt bytes 46 32) :=
    keyFromSlice_slice (by omega)
  have hsubject : keyFromSlice (slice bytes 78 110) = keyFromBytes (arrayAt bytes 78 32) :=
    keyFromSlice_slice (by omega)
  rw [orPanic_bind hfabric, orPanic_bind (sliceChecked_of_le (by omega) (by omega)), hissuer]
  apply sure_bind
  intro issuer _
  rw [orPanic_bind (sliceChecked_of_le (by omega) (by omega)), hsubject]
  apply sure_bind
  intro subject _
  rw [orPanic_bind hissued, orPanic_bind (getElem?_eq_getD (by omega)), hbytes]
  apply guard_sure
  intro _
  rw [parseNameChecked_eq hsize hfixed]
  apply sure_bind
  rintro ⟨name, off₁⟩ hname
  obtain ⟨-, -, hoff₁, -⟩ := nameField_of_parseName hfixed hname
  dsimp only
  rw [parseExpiryChecked_eq hsize hoff₁]
  apply sure_bind
  rintro ⟨exp, off₂⟩ hexp
  obtain ⟨-, -, hoff₂, -⟩ := expiryField_of_parseExpiry hoff₁ hexp
  dsimp only
  rw [parseTargetChecked_eq hsize hoff₂]
  apply sure_bind
  intro _ _
  rfl

omit [Crypto] in
theorem leftover_sure {ε α : Type} {r : Except ε (α × Nat)} {size : Nat} (message : Nat → ε)
    (h : ∀ a n, r = .ok (a, n) → n ≤ size) :
    (do
      let (a, consumed) ← sure r
      if consumed ≠ size then do
        let left ← orPanic (usizeSub size consumed)
        throw (message left)
      else return a : MayPanic ε α) =
    sure (do
      let (a, consumed) ← r
      if consumed ≠ size then throw (message (size - consumed))
      return a) := by
  apply sure_bind
  intro ⟨a, n⟩ hr
  dsimp only
  by_cases hn : n ≠ size
  · rw [if_pos hn, if_pos hn, orPanic_bind (usizeSub_of_le (h a n hr))]
    rfl
  · rw [if_neg hn, if_neg hn]
    rfl

theorem Fact.decodeStrictChecked_eq (hsize : bytes.length ≤ ISIZE_MAX) :
    Fact.decodeStrictChecked bytes = sure (Fact.decodeStrict bytes) := by
  unfold Fact.decodeStrictChecked Fact.decodeStrict
  rw [parseFactPrefixChecked_eq hsize]
  exact leftover_sure _ fun _ _ h => (layout_of_parseFactPrefix h).2.1

namespace SignedFact

omit [Crypto] in
theorem beNat_u32_le {bytes : Bytes} {a : Nat} (h : a + 4 ≤ bytes.length) :
    beNat (slice bytes a (a + 4)) < 2 ^ 32 := by
  have hlt := beNat_lt (slice bytes a (a + 4))
  rw [length_slice h, Nat.add_sub_cancel_left] at hlt
  exact hlt

variable {bytes : Bytes}

theorem decodeChecked_eq (hsize : bytes.length ≤ ISIZE_MAX) :
    decodeChecked bytes = sure (decode bytes) := by
  unfold decodeChecked decode
  apply guard_sure
  intro hmin
  have hmin : 4 + 64 ≤ bytes.length := Nat.le_of_not_lt hmin
  have hread : indexesChecked bytes 0 4 = some (slice bytes 0 4) :=
    indexesChecked_of_le (by omega)
  have hlt : beNat (slice bytes 0 4) < 2 ^ 32 := beNat_u32_le (a := 0) (by omega)
  have hlen : usizeAdd 4 (beNat (slice bytes 0 4)) = some (4 + beNat (slice bytes 0 4)) :=
    usizeAdd_of_lt (by omega)
  have hstop : usizeAdd (4 + beNat (slice bytes 0 4)) SIGNATURE_LENGTH =
      some (4 + beNat (slice bytes 0 4) + SIGNATURE_LENGTH) :=
    usizeAdd_of_lt (by unfold SIGNATURE_LENGTH; omega)
  rw [orPanic_bind hread]
  simp only [hlen, hstop, Option.bind_some, okOr_some]
  show (if bytes.length ≠ _ then _ else _ : MayPanic ProtocolError SignedFact) = _
  apply guard_sure
  intro heq
  have heq : bytes.length = 4 + beNat (slice bytes 0 4) + 64 := not_not.mp heq
  have hbody : (slice bytes 4 (4 + beNat (slice bytes 0 4))).length ≤ ISIZE_MAX := by
    rw [length_slice (by omega)]
    omega
  have hsig : arrayChecked bytes (4 + beNat (slice bytes 0 4))
      (4 + beNat (slice bytes 0 4) + SIGNATURE_LENGTH) 64 =
      some (arrayAt bytes (4 + beNat (slice bytes 0 4)) 64) := arrayChecked_of_le rfl heq.ge
  rw [orPanic_bind rfl, orPanic_bind (sliceChecked_of_le (by omega) (by omega)),
    Fact.decodeStrictChecked_eq hbody]
  apply sure_bind
  intro fact _
  rw [orPanic_bind hsig]
  rfl

theorem decodeItemsChecked_eq {bytes : Bytes} (hsize : bytes.length ≤ ISIZE_MAX) (count n : Nat)
    {off : Nat} (hoff : off ≤ bytes.length) :
    decodeItemsChecked bytes count n off = sure (decodeItems bytes count n off) := by
  induction n generalizing off with
  | zero => rfl
  | succ n ih =>
    unfold decodeItemsChecked decodeItems
    have hlenEnd : usizeAdd off 4 = some (off + 4) := usizeAdd_offset hsize hoff (by norm_num)
    rw [orPanic_bind hlenEnd]
    apply guard_sure
    intro hlen
    have hlen : off + 4 ≤ bytes.length := Nat.le_of_not_lt hlen
    have hlt : beNat (slice bytes off (off + 4)) < 2 ^ 32 := beNat_u32_le hlen
    have hbody : usizeAdd (off + 4) (beNat (slice bytes off (off + 4))) =
        some (off + 4 + beNat (slice bytes off (off + 4))) :=
      usizeAdd_offset hsize hlen (by omega)
    have hstop : usizeAdd (off + 4 + beNat (slice bytes off (off + 4))) SIGNATURE_LENGTH =
        some (off + 4 + beNat (slice bytes off (off + 4)) + SIGNATURE_LENGTH) := by
      apply usizeAdd_of_lt
      unfold ISIZE_MAX at hsize
      unfold SIGNATURE_LENGTH
      omega
    rw [orPanic_bind (indexesChecked_of_le hlen)]
    simp only [hlenEnd, hbody, hstop, Option.bind_some, okOr_some]
    show (if bytes.length < _ then _ else _ : MayPanic ProtocolError (List SignedFact × Nat)) = _
    apply guard_sure
    intro hframe
    have hframe : off + 4 + beNat (slice bytes off (off + 4)) + SIGNATURE_LENGTH ≤ bytes.length :=
      Nat.le_of_not_lt hframe
    have hinner : (slice bytes off (off + 4 + beNat (slice bytes off (off + 4)) +
        SIGNATURE_LENGTH)).length ≤ ISIZE_MAX := by
      rw [length_slice hframe]
      omega
    rw [orPanic_bind (sliceChecked_of_le (by omega) hframe), decodeChecked_eq hinner]
    apply sure_bind
    intro sf _
    rw [ih hframe]
    apply sure_bind
    intro _ _
    rfl

theorem decodeAllPrefixChecked_eq (hsize : bytes.length ≤ ISIZE_MAX) :
    decodeAllPrefixChecked bytes = sure (decodeAllPrefix bytes) := by
  unfold decodeAllPrefixChecked decodeAllPrefix
  by_cases hlen : bytes.length < 4
  · rw [if_pos hlen, if_pos hlen]
    rfl
  have hlen' : 4 ≤ bytes.length := Nat.le_of_not_lt hlen
  have hread : indexesChecked bytes 0 4 = some (slice bytes 0 4) := indexesChecked_of_le hlen'
  rw [if_neg hlen, if_neg hlen, orPanic_bind hread]
  exact decodeItemsChecked_eq hsize _ _ hlen'

theorem le_of_decodeAllPrefix {items : List SignedFact} {n : Nat}
    (h : decodeAllPrefix bytes = .ok (items, n)) : n ≤ bytes.length := by
  unfold decodeAllPrefix at h
  split at h
  · cases h
  · next hlen =>
    obtain ⟨-, -, hle, -⟩ := frames_of_decodeItems (Nat.le_of_not_lt hlen) h
    exact hle

theorem decodeAllChecked_eq (hsize : bytes.length ≤ ISIZE_MAX) :
    decodeAllChecked bytes = sure (decodeAll bytes) := by
  unfold decodeAllChecked decodeAll
  rw [decodeAllPrefixChecked_eq hsize]
  exact leftover_sure _ fun _ _ h => le_of_decodeAllPrefix h

end SignedFact

/-! ## The codec -/

/-- **`decode_strict` accepts canonical bytes only.** -/
theorem Fact.canonicalBytes_of_decodeStrict {f : Fact} (h : Fact.decodeStrict bytes = .ok f) :
    f.canonicalBytes = .ok bytes := by
  simp only [Fact.decodeStrict, ite_throw_eq_ok, bind_eq_ok, pure_eq_ok, Prod.exists,
    not_not] at h
  obtain ⟨f', n, hparse, hn, rfl⟩ := h
  obtain ⟨hslice, -, hrep⟩ := layout_of_parseFactPrefix hparse
  rw [hn, slice_zero_length] at hslice
  exact Fact.canonicalBytes_eq_ok.mpr ⟨hrep, hslice⟩

/-- **The id of a fact names the fact**, as far as BLAKE3 tells byte strings apart. -/
theorem Fact.eq_or_collision_of_factId_eq {f g : Fact} (hf : f.Representable)
    (hg : g.Representable) (h : f.factId = g.factId) :
    f = g ∨ ∃ a b, a ≠ b ∧ Crypto.blake3 a = Crypto.blake3 b := by
  unfold Fact.factId at h
  rw [Fact.canonicalBytes_of_representable hf, Fact.canonicalBytes_of_representable hg] at h
  by_cases hlayout : f.layout = g.layout
  · left
    have hread := Fact.decodeStrict_layout hf
    rw [hlayout, Fact.decodeStrict_layout hg] at hread
    exact (Except.ok.inj hread).symm
  · exact .inr ⟨f.layout, g.layout, hlayout, h⟩

namespace SignedFact

theorem decodeAllPrefix_listBytes {items : List SignedFact}
    (hall : ∀ sf ∈ items, sf.fact.Representable) (hcount : items.length < 256 ^ 4)
    (suffix : Bytes) :
    decodeAllPrefix (listBytes items ++ suffix) = .ok (items, (listBytes items).length) := by
  have hlenBytes : slice (listBytes items ++ suffix) 0 4 = beBytes 4 items.length := by
    rw [listBytes, List.append_assoc]
    exact slice_append_self (by simp)
  have hval : beNat (beBytes 4 items.length) = items.length := beNat_beBytes_of_lt hcount
  have hloop := decodeItems_frames items.length items (beBytes 4 items.length) suffix hall
  rw [length_beBytes, ← List.append_assoc] at hloop
  have hlen : (listBytes items).length = 4 + ((items.map frame).flatten).length := by
    rw [listBytes, List.length_append, length_beBytes]
  unfold decodeAllPrefix
  rw [if_neg (by rw [List.length_append, hlen]; omega), hlenBytes, hval, hlen]
  exact hloop

/-- **A fact list round-trips exactly if its length fits the count in front of it.** -/
theorem decodeAll_listBytes_iff {items : List SignedFact}
    (hall : ∀ sf ∈ items, sf.fact.Representable) :
    decodeAll (listBytes items) = .ok items ↔ items.length < 2 ^ 32 := by
  constructor
  · intro hread
    by_contra hcount
    obtain ⟨e, he⟩ := decodeAll_truncated hall (Nat.le_of_not_lt hcount)
    rw [he] at hread
    cases hread
  · intro hcount
    exact decodeAll_listBytes hall hcount

end SignedFact

/-- **The fact codec is strict, total and a round trip**: facts and signed facts in both
directions, fact lists as long as the `u32` in front of them holds their number, and no decoder
panics on any slice. -/
theorem fact_codec_strict :
    (∀ f : Fact, f.Representable →
      ∃ bytes, f.canonicalBytes = .ok bytes ∧ Fact.decodeStrict bytes = .ok f) ∧
    (∀ bytes f, Fact.decodeStrict bytes = .ok f → f.canonicalBytes = .ok bytes) ∧
    (∀ f g : Fact, f.Representable → g.Representable → f.factId = g.factId →
      f = g ∨ ∃ a b, a ≠ b ∧ Crypto.blake3 a = Crypto.blake3 b) ∧
    (∀ sf : SignedFact, sf.fact.Representable →
      ∃ bytes, sf.encode = .ok bytes ∧ SignedFact.decode bytes = .ok sf) ∧
    (∀ bytes sf, SignedFact.decode bytes = .ok sf → sf.encode = .ok bytes) ∧
    (∀ items : List SignedFact, (∀ sf ∈ items, sf.fact.Representable) →
      ∃ bytes, SignedFact.encodeAll items = .ok bytes ∧
        (SignedFact.decodeAll bytes = .ok items ↔ items.length < 2 ^ 32) ∧
        ((∀ suffix, SignedFact.decodeAllPrefix (bytes ++ suffix) = .ok (items, bytes.length)) ↔
          items.length < 2 ^ 32)) ∧
    (∀ bytes items, SignedFact.decodeAll bytes = .ok items →
      SignedFact.encodeAll items = .ok bytes) ∧
    (∀ bytes : Bytes, bytes.length ≤ ISIZE_MAX →
      (Fact.decodeStrictChecked bytes).run = some (Fact.decodeStrict bytes) ∧
      (SignedFact.decodeChecked bytes).run = some (SignedFact.decode bytes) ∧
      (SignedFact.decodeAllPrefixChecked bytes).run = some (SignedFact.decodeAllPrefix bytes) ∧
      (SignedFact.decodeAllChecked bytes).run = some (SignedFact.decodeAll bytes)) := by
  refine ⟨?_, ?_, ?_, ?_, ?_, ?_, ?_, ?_⟩
  · intro f hf
    exact ⟨f.layout, Fact.canonicalBytes_of_representable hf, Fact.decodeStrict_layout hf⟩
  · intro bytes f h
    exact Fact.canonicalBytes_of_decodeStrict h
  · intro f g hf hg h
    exact Fact.eq_or_collision_of_factId_eq hf hg h
  · intro sf hsf
    exact ⟨sf.frame, SignedFact.encode_eq_ok.mpr ⟨hsf, rfl⟩, SignedFact.decode_frame hsf⟩
  · intro bytes sf h
    obtain ⟨hframe, hrep⟩ := SignedFact.frame_of_decode h
    exact SignedFact.encode_eq_ok.mpr ⟨hrep, hframe⟩
  · intro items hall
    refine ⟨SignedFact.listBytes items, SignedFact.encodeAll_eq_ok.mpr ⟨hall, rfl⟩,
      SignedFact.decodeAll_listBytes_iff hall, ?_⟩
    constructor
    · intro hprefix
      -- with nothing behind it, the prefix is the whole list
      have hwhole := hprefix []
      rw [List.append_nil] at hwhole
      apply (SignedFact.decodeAll_listBytes_iff hall).mp
      simp [SignedFact.decodeAll, hwhole, bind, Except.bind, pure, Except.pure]
    · intro hcount suffix
      exact SignedFact.decodeAllPrefix_listBytes hall hcount suffix
  · intro bytes items h
    obtain ⟨hbytes, hall, -⟩ := SignedFact.listBytes_of_decodeAll h
    exact SignedFact.encodeAll_eq_ok.mpr ⟨hall, hbytes⟩
  · intro bytes hsize
    rw [Fact.decodeStrictChecked_eq hsize, SignedFact.decodeChecked_eq hsize,
      SignedFact.decodeAllPrefixChecked_eq hsize, SignedFact.decodeAllChecked_eq hsize]
    exact ⟨run_sure _, run_sure _, run_sure _, run_sure _⟩

end Dweb

namespace Dweb

/-! ## A list too long for its count -/

namespace LongList

def key : BytesN 32 := BytesN.ofNat 32 1

@[reducible] def crypto : Crypto := .known [key] [] []

attribute [local instance] crypto

def join : SignedFact where
  fact :=
    { kind := .join
      fabricId := BytesN.ofNat 32 7
      issuer := ⟨key, by decide⟩
      subject := ⟨key, by decide⟩
      displayName := none
      issuedAtMs := 0
      expiresAtMs := none
      targetFactId := none }
  signature := BytesN.ofNat 64 0

theorem truncated_count :
    ∃ bytes, SignedFact.encodeAll (List.replicate (2 ^ 32) join) = .ok bytes ∧
      SignedFact.decodeAll bytes ≠ .ok (List.replicate (2 ^ 32) join) := by
  have hrep : join.fact.Representable := by
    intro name hname
    cases hname
  have hall : ∀ sf ∈ List.replicate (2 ^ 32) join, sf.fact.Representable := by
    intro sf hsf
    rw [List.eq_of_mem_replicate hsf]
    exact hrep
  refine ⟨_, SignedFact.encodeAll_eq_ok.mpr ⟨hall, rfl⟩, ?_⟩
  rw [Ne, SignedFact.decodeAll_listBytes_iff hall, List.length_replicate]
  exact lt_irrefl _

end LongList

end Dweb
