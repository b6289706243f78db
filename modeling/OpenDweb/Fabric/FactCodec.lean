import OpenDweb.Fabric.Protocol

/-!
# OpenDweb — round trips of the fact codec

The persisted roster and every network dump are lists of signed wire frames. This module
proves the two directions that make the format canonical:

* **`parseFactPrefix_layout`**, **`SignedFact.decode_encode`**,
  **`SignedFact.decodeAll_encodeAll`** — what the encoder writes, the strict decoder
  reads back, as long as the item count fits its `u32`;
* **`SignedFact.decodeAll_truncated`** — from `2 ^ 32` items on, the truncated count
  makes the strict decoder refuse the encoder's own output;
* **`layout_of_parseFactPrefix`**, **`SignedFact.encode_of_decode`**,
  **`SignedFact.encodeAll_of_decodeAll`** — whatever the decoder accepts is the encoding
  of what it returns, so an accepted byte string has exactly one reading.
-/

namespace Dweb

open List

/-! ## UTF-8 -/

theorem fromUtf8_utf8 (s : String) : fromUtf8 (utf8 s) = some s := by
  have h : (⟨(utf8 s).toArray⟩ : ByteArray) = s.toByteArray := by simp [utf8]
  unfold fromUtf8
  rw [h, String.fromUTF8?, dif_pos s.isValidUTF8]
  rfl

variable {bytes pre post : Bytes} {flags : UInt8} {off off' : Nat}

theorem utf8_of_fromUtf8 {s : String} (h : fromUtf8 bytes = some s) : utf8 s = bytes := by
  unfold fromUtf8 String.fromUTF8? at h
  split at h
  · simp only [Option.some.injEq] at h
    subst h
    rfl
  · simp at h

variable [Crypto]

/-! ## The canonical layout -/

namespace Fact

def Representable (f : Fact) : Prop :=
  ∀ name, f.displayName = some name → (utf8 name).length ≤ MAX_NAME_BYTES

variable {f : Fact}

theorem canonicalBytes_eq_ok {bytes : Bytes} :
    f.canonicalBytes = .ok bytes ↔ f.Representable ∧ bytes = f.layout := by
  unfold canonicalBytes Representable
  cases f.displayName with
  | none => simp [eq_comm]
  | some name =>
    by_cases hlen : MAX_NAME_BYTES < (utf8 name).length
    · simp [hlen]
    · simp [hlen, eq_comm, Nat.le_of_not_lt hlen]

theorem canonicalBytes_of_representable (h : f.Representable) : f.canonicalBytes = .ok f.layout :=
  canonicalBytes_eq_ok.mpr ⟨h, rfl⟩

def optionalFields (f : Fact) : Bytes :=
  nameField f.displayName ++ (expiryField f.expiresAtMs ++ targetField f.targetFactId)

def fixedFields (f : Fact) : Bytes :=
  FACT_DOMAIN ++ ([f.kind.asU8] ++ (f.fabricId.toBytes ++ (f.issuer.asBytes.toBytes ++
    (f.subject.asBytes.toBytes ++ (beBytes 8 f.issuedAtMs.toNat ++ [f.flags])))))

theorem layout_eq (f : Fact) : f.layout = f.fixedFields ++ f.optionalFields := by
  simp [layout, fixedFields, optionalFields]

@[simp] theorem length_fixedFields (f : Fact) : f.fixedFields.length = FACT_FIXED_LEN := by
  simp [fixedFields, FACT_DOMAIN, FACT_FIXED_LEN]

theorem length_layout_lt (h : f.Representable) : f.layout.length < 256 ^ 4 := by
  have hname : (nameField f.displayName).length ≤ 2 + MAX_NAME_BYTES := by
    cases hn : f.displayName with
    | none => simp [nameField]
    | some name =>
      have := h name hn
      simp only [nameField, length_append, length_beBytes]
      omega
  have hexp : (expiryField f.expiresAtMs).length ≤ 8 := by
    cases f.expiresAtMs <;> simp [expiryField]
  have htarget : (targetField f.targetFactId).length ≤ 32 := by
    cases f.targetFactId <;> simp [targetField]
  rw [layout_eq, length_append, length_fixedFields, optionalFields, length_append,
    length_append]
  norm_num [MAX_NAME_BYTES, FACT_FIXED_LEN] at *
  omega

/-! ### The flags byte -/

theorem flags_name (f : Fact) : (f.flags &&& FLAG_HAS_NAME ≠ 0) ↔ f.displayName.isSome := by
  unfold flags
  generalize f.displayName.isSome = name, f.expiresAtMs.isSome = exp, f.targetFactId.isSome = tgt
  revert name exp tgt
  decide

theorem flags_expiry (f : Fact) : (f.flags &&& FLAG_HAS_EXPIRY ≠ 0) ↔ f.expiresAtMs.isSome := by
  unfold flags
  generalize f.displayName.isSome = name, f.expiresAtMs.isSome = exp, f.targetFactId.isSome = tgt
  revert name exp tgt
  decide

theorem flags_target (f : Fact) : (f.flags &&& FLAG_HAS_TARGET ≠ 0) ↔ f.targetFactId.isSome := by
  unfold flags
  generalize f.displayName.isSome = name, f.expiresAtMs.isSome = exp, f.targetFactId.isSome = tgt
  revert name exp tgt
  decide

theorem flags_reserved (f : Fact) :
    f.flags &&& ~~~(FLAG_HAS_NAME ||| FLAG_HAS_EXPIRY ||| FLAG_HAS_TARGET) = 0 := by
  unfold flags
  generalize f.displayName.isSome = name, f.expiresAtMs.isSome = exp, f.targetFactId.isSome = tgt
  revert name exp tgt
  decide

end Fact

/-! ## Reading back what was written -/

omit [Crypto] in
theorem parseName_nameField {name : Option String} (hpre : pre.length = off)
    (hflag : flags &&& FLAG_HAS_NAME ≠ 0 ↔ name.isSome)
    (hlen : ∀ n, name = some n → (utf8 n).length ≤ MAX_NAME_BYTES) :
    parseName (pre ++ (Fact.nameField name ++ post)) flags off =
      .ok (name, off + (Fact.nameField name).length) := by
  cases name with
  | none =>
    have h0 : flags &&& FLAG_HAS_NAME = 0 := by simpa using hflag
    simp [parseName, h0, Fact.nameField]
  | some n =>
    have hn := hlen n rfl
    have hset : flags &&& FLAG_HAS_NAME ≠ 0 := hflag.mpr rfl
    have hlenBytes : slice (pre ++ (Fact.nameField (some n) ++ post)) off (off + 2) =
        beBytes 2 (utf8 n).length := by
      rw [Fact.nameField, append_assoc]
      exact slice_append hpre (by simp)
    have hval : beNat (beBytes 2 (utf8 n).length) = (utf8 n).length :=
      beNat_beBytes_of_lt (by norm_num [MAX_NAME_BYTES] at *; omega)
    have hbody : slice (pre ++ (Fact.nameField (some n) ++ post)) (off + 2)
        (off + 2 + (utf8 n).length) = utf8 n := by
      rw [Fact.nameField, append_assoc, ← append_assoc pre]
      exact slice_append (by simp [hpre]) rfl
    have hsize : (pre ++ (Fact.nameField (some n) ++ post)).length =
        off + 2 + (utf8 n).length + post.length := by
      simp [Fact.nameField, hpre]; omega
    unfold parseName
    rw [if_pos hset, hsize, if_neg (by omega)]
    simp only [hlenBytes, hval]
    rw [if_neg (by omega), if_neg (by omega), hbody, fromUtf8_utf8]
    simp [Fact.nameField]; omega

omit [Crypto] in
theorem parseExpiry_expiryField {exp : Option UInt64} (hpre : pre.length = off)
    (hflag : flags &&& FLAG_HAS_EXPIRY ≠ 0 ↔ exp.isSome) :
    parseExpiry (pre ++ (Fact.expiryField exp ++ post)) flags off =
      .ok (exp, off + (Fact.expiryField exp).length) := by
  cases exp with
  | none =>
    have h0 : flags &&& FLAG_HAS_EXPIRY = 0 := by simpa using hflag
    simp [parseExpiry, h0, Fact.expiryField]
  | some e =>
    have hset : flags &&& FLAG_HAS_EXPIRY ≠ 0 := hflag.mpr rfl
    have hbody : slice (pre ++ (Fact.expiryField (some e) ++ post)) off (off + 8) =
        beBytes 8 e.toNat := slice_append hpre (by simp [Fact.expiryField])
    have hval : beNat (beBytes 8 e.toNat) = e.toNat :=
      beNat_beBytes_of_lt (by simpa using e.toNat_lt)
    have hsize : (pre ++ (Fact.expiryField (some e) ++ post)).length = off + 8 + post.length := by
      simp [Fact.expiryField, hpre]; omega
    unfold parseExpiry
    rw [if_pos hset, hsize, if_neg (by omega), hbody, hval]
    simp [Fact.expiryField]

omit [Crypto] in
theorem parseTarget_targetField {target : Option FactId} (hpre : pre.length = off)
    (hflag : flags &&& FLAG_HAS_TARGET ≠ 0 ↔ target.isSome) :
    parseTarget (pre ++ (Fact.targetField target ++ post)) flags off =
      .ok (target, off + (Fact.targetField target).length) := by
  cases target with
  | none =>
    have h0 : flags &&& FLAG_HAS_TARGET = 0 := by simpa using hflag
    simp [parseTarget, h0, Fact.targetField]
  | some t =>
    have hset : flags &&& FLAG_HAS_TARGET ≠ 0 := hflag.mpr rfl
    have hbody : arrayAt (pre ++ (Fact.targetField (some t) ++ post)) off 32 = t :=
      arrayAt_eq (slice_append hpre (by simp [Fact.targetField]))
    have hsize : (pre ++ (Fact.targetField (some t) ++ post)).length =
        off + 32 + post.length := by
      simp [Fact.targetField, hpre]; omega
    unfold parseTarget
    rw [if_pos hset, hsize, if_neg (by omega), hbody]
    simp [Fact.targetField]

/-- The fixed part of the parse, read off a byte string that starts with the 119 fixed
bytes of `f`: every field comes back and the optional fields are read with `f`'s flags. -/
theorem parseFactPrefix_fixedFields (f : Fact) (rest : Bytes) :
    parseFactPrefix (f.fixedFields ++ rest) = (do
      let (displayName, off) ← parseName (f.fixedFields ++ rest) f.flags FACT_FIXED_LEN
      let (expiresAtMs, off) ← parseExpiry (f.fixedFields ++ rest) f.flags off
      let (targetFactId, off) ← parseTarget (f.fixedFields ++ rest) f.flags off
      return (⟨f.kind, f.fabricId, f.issuer, f.subject, displayName, f.issuedAtMs, expiresAtMs,
        targetFactId⟩, off)) := by
  have hlen : ¬(f.fixedFields ++ rest).length < FACT_FIXED_LEN := by simp
  have hdomain : slice (f.fixedFields ++ rest) 0 13 = FACT_DOMAIN := by
    rw [Fact.fixedFields, append_assoc]
    exact slice_append_self rfl
  have hkind : (f.fixedFields ++ rest).getD 13 0 = f.kind.asU8 := by
    rw [Fact.fixedFields, append_assoc, getD_append_right (by simp [FACT_DOMAIN])]
    simp [FACT_DOMAIN]
  -- each field sits right after a prefix of known length
  have hfield (pre post : Bytes) (n : Nat) (v : BytesN n) (a : Nat) (hpre : pre.length = a)
      (heq : f.fixedFields ++ rest = pre ++ (v.toBytes ++ post)) :
      arrayAt (f.fixedFields ++ rest) a n = v := by
    apply arrayAt_eq
    rw [heq]
    exact slice_append hpre (by simp)
  have hfabric : arrayAt (f.fixedFields ++ rest) 14 32 = f.fabricId :=
    hfield (FACT_DOMAIN ++ [f.kind.asU8]) _ 32 _ 14 rfl
      (by simp only [Fact.fixedFields, append_assoc]; rfl)
  have hissuer : arrayAt (f.fixedFields ++ rest) 46 32 = f.issuer.asBytes :=
    hfield (FACT_DOMAIN ++ [f.kind.asU8] ++ f.fabricId.toBytes) _ 32 _ 46
      (by simp [FACT_DOMAIN]) (by simp only [Fact.fixedFields, append_assoc]; rfl)
  have hsubject : arrayAt (f.fixedFields ++ rest) 78 32 = f.subject.asBytes :=
    hfield (FACT_DOMAIN ++ [f.kind.asU8] ++ f.fabricId.toBytes ++ f.issuer.asBytes.toBytes) _ 32 _
      78 (by simp [FACT_DOMAIN]) (by simp only [Fact.fixedFields, append_assoc]; rfl)
  have hissued : slice (f.fixedFields ++ rest) 110 118 = beBytes 8 f.issuedAtMs.toNat := by
    have heq : f.fixedFields ++ rest = (FACT_DOMAIN ++ [f.kind.asU8] ++ f.fabricId.toBytes ++
        f.issuer.asBytes.toBytes ++ f.subject.asBytes.toBytes) ++
        (beBytes 8 f.issuedAtMs.toNat ++ ([f.flags] ++ rest)) := by
      simp only [Fact.fixedFields, append_assoc]
    rw [heq]
    exact slice_append (by simp [FACT_DOMAIN]) (by simp)
  have hflags : (f.fixedFields ++ rest).getD 118 0 = f.flags := by
    have heq : f.fixedFields ++ rest = (FACT_DOMAIN ++ [f.kind.asU8] ++ f.fabricId.toBytes ++
        f.issuer.asBytes.toBytes ++ f.subject.asBytes.toBytes ++
        beBytes 8 f.issuedAtMs.toNat) ++ ([f.flags] ++ rest) := by
      simp only [Fact.fixedFields, append_assoc]
    rw [heq, getD_append_right (by simp [FACT_DOMAIN])]
    simp [FACT_DOMAIN]
  have hval : UInt64.ofNat (beNat (beBytes 8 f.issuedAtMs.toNat)) = f.issuedAtMs := by
    rw [beNat_beBytes_of_lt (by simpa using f.issuedAtMs.toNat_lt), UInt64.ofNat_toNat]
  have hkey (e : EndpointId) : keyFromBytes e.asBytes = .ok e := by simp [keyFromBytes]
  unfold parseFactPrefix
  rw [if_neg hlen, if_neg (not_not.mpr hdomain)]
  simp only [hkind, FactKind.fromU8_asU8, hfabric, hissuer, hsubject, hissued, hflags, hval, hkey,
    f.flags_reserved]
  rfl

/-- **Parsing what `canonicalBytes` wrote**, with anything after it. -/
theorem parseFactPrefix_layout {f : Fact} (hf : f.Representable) (rest : Bytes) :
    parseFactPrefix (f.layout ++ rest) = .ok (f, f.layout.length) := by
  have hname : parseName (f.fixedFields ++ (f.optionalFields ++ rest)) f.flags FACT_FIXED_LEN =
      .ok (f.displayName, FACT_FIXED_LEN + (Fact.nameField f.displayName).length) := by
    rw [Fact.optionalFields, append_assoc]
    exact parseName_nameField f.length_fixedFields f.flags_name hf
  have hexp : parseExpiry (f.fixedFields ++ (f.optionalFields ++ rest)) f.flags
      (FACT_FIXED_LEN + (Fact.nameField f.displayName).length) =
      .ok (f.expiresAtMs, FACT_FIXED_LEN + (Fact.nameField f.displayName).length +
        (Fact.expiryField f.expiresAtMs).length) := by
    have heq : f.fixedFields ++ (f.optionalFields ++ rest) =
        (f.fixedFields ++ Fact.nameField f.displayName) ++
          (Fact.expiryField f.expiresAtMs ++ (Fact.targetField f.targetFactId ++ rest)) := by
      simp only [Fact.optionalFields, append_assoc]
    rw [heq]
    exact parseExpiry_expiryField (by simp) f.flags_expiry
  have htarget : parseTarget (f.fixedFields ++ (f.optionalFields ++ rest)) f.flags
      (FACT_FIXED_LEN + (Fact.nameField f.displayName).length +
        (Fact.expiryField f.expiresAtMs).length) =
      .ok (f.targetFactId, FACT_FIXED_LEN + (Fact.nameField f.displayName).length +
        (Fact.expiryField f.expiresAtMs).length + (Fact.targetField f.targetFactId).length) := by
    have heq : f.fixedFields ++ (f.optionalFields ++ rest) =
        (f.fixedFields ++ Fact.nameField f.displayName ++ Fact.expiryField f.expiresAtMs) ++
          (Fact.targetField f.targetFactId ++ rest) := by
      simp only [Fact.optionalFields, append_assoc]
    rw [heq]
    exact parseTarget_targetField (by simp; omega) f.flags_target
  rw [f.layout_eq, append_assoc, parseFactPrefix_fixedFields, hname]
  simp only [bind, Except.bind, hexp, htarget]
  simp only [pure, Except.pure, length_append, Fact.length_fixedFields, Fact.optionalFields]
  congr 2
  omega

theorem Fact.decodeStrict_layout {f : Fact} (h : f.Representable) :
    Fact.decodeStrict f.layout = .ok f := by
  have hparse := parseFactPrefix_layout h []
  rw [append_nil] at hparse
  simp [Fact.decodeStrict, hparse, bind, Except.bind, pure, Except.pure]

/-! ### Signed facts -/

namespace SignedFact

/-- The wire frame `encode` writes for a representable fact. -/
def frame (sf : SignedFact) : Bytes :=
  beBytes 4 sf.fact.layout.length ++ (sf.fact.layout ++ sf.signature.toBytes)

/-- The bytes `encodeAll` writes for representable facts. -/
def listBytes (items : List SignedFact) : Bytes :=
  beBytes 4 items.length ++ (items.map frame).flatten

theorem length_frame (sf : SignedFact) : sf.frame.length = 4 + sf.fact.layout.length + 64 := by
  simp [frame]; omega

theorem encode_eq_ok {sf : SignedFact} {bytes : Bytes} :
    sf.encode = .ok bytes ↔ sf.fact.Representable ∧ bytes = sf.frame := by
  unfold encode frame
  cases hc : sf.fact.canonicalBytes with
  | error e =>
    have : ¬sf.fact.Representable := fun h => by
      rw [Fact.canonicalBytes_of_representable h] at hc; cases hc
    simp [bind, Except.bind, this]
  | ok factBytes =>
    obtain ⟨hrep, rfl⟩ := Fact.canonicalBytes_eq_ok.mp hc
    simp [bind, Except.bind, pure, Except.pure, hrep, eq_comm]

variable {items : List SignedFact}

theorem encodeAll_eq_ok {bytes : Bytes} :
    encodeAll items = .ok bytes ↔
      (∀ sf ∈ items, sf.fact.Representable) ∧ bytes = listBytes items := by
  have hframes : ∀ l : List SignedFact, ∀ frames, l.mapM encode = .ok frames ↔
      (∀ sf ∈ l, sf.fact.Representable) ∧ frames = l.map frame := by
    intro l
    induction l with
    | nil => simp [pure, Except.pure, eq_comm]
    | cons sf l ih =>
      intro frames
      rw [mapM_cons]
      cases he : sf.encode with
      | error e =>
        have : ¬sf.fact.Representable := fun h => by
          rw [encode_eq_ok.mpr ⟨h, rfl⟩] at he; cases he
        simp [bind, Except.bind, this]
      | ok b =>
        obtain ⟨hrep, rfl⟩ := encode_eq_ok.mp he
        cases hl : l.mapM encode with
        | error e =>
          have : ¬∀ sf ∈ l, sf.fact.Representable := fun h => by
            rw [(ih _).mpr ⟨h, rfl⟩] at hl; cases hl
          simp only [bind, Except.bind, forall_mem_cons, hrep, true_and, this, false_and,
            reduceCtorEq]
        | ok fs =>
          obtain ⟨hall, rfl⟩ := (ih _).mp hl
          simp only [bind, Except.bind, pure, Except.pure, Except.ok.injEq, forall_mem_cons,
            hrep, true_and, map_cons, eq_comm]
          exact ⟨fun h => ⟨hall, h⟩, fun h => h.2⟩
  unfold encodeAll
  cases hm : items.mapM encode with
  | error e =>
    have : ¬∀ sf ∈ items, sf.fact.Representable := fun h => by
      rw [(hframes _ _).mpr ⟨h, rfl⟩] at hm; cases hm
    simp only [bind, Except.bind, this, false_and, reduceCtorEq]
  | ok frames =>
    obtain ⟨hall, rfl⟩ := (hframes _ _).mp hm
    simp only [bind, Except.bind, pure, Except.pure, Except.ok.injEq, length_map, listBytes,
      eq_comm]
    exact ⟨fun h => ⟨hall, h⟩, fun h => h.2⟩

/-- **One frame round-trips.** -/
theorem decode_frame {sf : SignedFact} (h : sf.fact.Representable) : decode sf.frame = .ok sf := by
  have hlen : sf.frame.length = 4 + sf.fact.layout.length + 64 := sf.length_frame
  have hlenBytes : slice sf.frame 0 4 = beBytes 4 sf.fact.layout.length :=
    slice_append_self (by simp)
  have hval : beNat (beBytes 4 sf.fact.layout.length) = sf.fact.layout.length :=
    beNat_beBytes_of_lt (Fact.length_layout_lt h)
  have hfact : slice sf.frame 4 (4 + sf.fact.layout.length) = sf.fact.layout :=
    slice_append (by simp) rfl
  have hsig : arrayAt sf.frame (4 + sf.fact.layout.length) 64 = sf.signature := by
    apply arrayAt_eq
    have heq : sf.frame = (beBytes 4 sf.fact.layout.length ++ sf.fact.layout) ++
        (sf.signature.toBytes ++ []) := by simp [frame]
    rw [heq]
    exact slice_append (by simp) (by simp)
  unfold decode
  rw [if_neg (by simp [hlen, SIGNATURE_LENGTH])]
  simp only [hlenBytes, hval, SIGNATURE_LENGTH]
  rw [if_neg (by simp [hlen])]
  simp [hfact, hsig, Fact.decodeStrict_layout h, bind, Except.bind, pure, Except.pure]

theorem decodeItems_frames (count : Nat) (items : List SignedFact) :
    ∀ (pre post : Bytes), (∀ sf ∈ items, sf.fact.Representable) →
      decodeItems (pre ++ ((items.map frame).flatten ++ post)) count items.length pre.length =
        .ok (items, pre.length + (items.map frame).flatten.length) := by
  induction items with
  | nil => intro pre post _; rfl
  | cons sf items ih =>
    intro pre post hall
    have hsf : sf.fact.Representable := hall sf mem_cons_self
    have hitems : ∀ sf ∈ items, sf.fact.Representable :=
      fun x hx => hall x (mem_cons_of_mem _ hx)
    -- the bytes, split at the head frame
    have heq : pre ++ (((sf :: items).map frame).flatten ++ post) =
        pre ++ (sf.frame ++ ((items.map frame).flatten ++ post)) := by simp
    have heq' : pre ++ (sf.frame ++ ((items.map frame).flatten ++ post)) =
        (pre ++ sf.frame) ++ ((items.map frame).flatten ++ post) := by simp
    have hlen := sf.length_frame
    have hlenBytes : slice (pre ++ (sf.frame ++ ((items.map frame).flatten ++ post))) pre.length
        (pre.length + 4) = beBytes 4 sf.fact.layout.length := by
      rw [frame, append_assoc]
      exact slice_append rfl (by simp)
    have hval : beNat (beBytes 4 sf.fact.layout.length) = sf.fact.layout.length :=
      beNat_beBytes_of_lt (Fact.length_layout_lt hsf)
    have hstop : pre.length + 4 + sf.fact.layout.length + 64 = (pre ++ sf.frame).length := by
      rw [length_append, hlen]; omega
    have hslice : slice (pre ++ (sf.frame ++ ((items.map frame).flatten ++ post))) pre.length
        (pre ++ sf.frame).length = sf.frame := slice_append rfl (by simp)
    have hrest := ih (pre ++ sf.frame) post hitems
    rw [heq]
    show decodeItems _ count (items.length + 1) pre.length = _
    unfold decodeItems
    rw [if_neg (by simp [hlen]; omega)]
    simp only [hlenBytes, hval, SIGNATURE_LENGTH, hstop]
    rw [if_neg (by simp), hslice, decode_frame hsf]
    simp only [bind, Except.bind]
    rw [heq', hrest]
    simp only [pure, Except.pure, map_cons, flatten_cons, length_append]
    congr 2
    omega

/-- **A list of fewer than `2 ^ 32` facts round-trips.** -/
theorem decodeAll_listBytes (hall : ∀ sf ∈ items, sf.fact.Representable)
    (hcount : items.length < 256 ^ 4) : decodeAll (listBytes items) = .ok items := by
  have hlenBytes : slice (listBytes items) 0 4 = beBytes 4 items.length :=
    slice_append_self (by simp)
  have hval : beNat (beBytes 4 items.length) = items.length := beNat_beBytes_of_lt hcount
  have hloop := decodeItems_frames items.length items (beBytes 4 items.length) [] hall
  rw [append_nil, length_beBytes] at hloop
  have hpre : decodeAllPrefix (listBytes items) = .ok (items, (listBytes items).length) := by
    unfold decodeAllPrefix
    rw [if_neg (by simp [listBytes]), hlenBytes, hval]
    simpa [listBytes] using hloop
  simp [decodeAll, hpre, bind, Except.bind, pure, Except.pure]

/-- **Past `2 ^ 32 - 1` facts the count is truncated and the strict decoder refuses.** -/
theorem decodeAll_truncated (hall : ∀ sf ∈ items, sf.fact.Representable)
    (hcount : 256 ^ 4 ≤ items.length) : ∃ e, decodeAll (listBytes items) = .error e := by
  have hlenBytes : slice (listBytes items) 0 4 = beBytes 4 items.length :=
    slice_append_self (by simp)
  have hval : beNat (beBytes 4 items.length) = items.length % 256 ^ 4 := beNat_beBytes _ _
  obtain ⟨n, hn⟩ : ∃ n, n = items.length % 256 ^ 4 := ⟨_, rfl⟩
  have hlt : n < items.length := by
    rw [hn]; exact lt_of_lt_of_le (Nat.mod_lt _ (by norm_num)) hcount
  -- the loop reads the first `n` frames and stops in front of the others
  have hsplit : (items.map frame).flatten =
      ((items.take n).map frame).flatten ++ ((items.drop n).map frame).flatten := by
    rw [← flatten_append, ← map_append, take_append_drop]
  have hloop := decodeItems_frames n (items.take n) (beBytes 4 items.length)
    ((items.drop n).map frame).flatten (fun sf h => hall sf (mem_of_mem_take h))
  rw [← hsplit, length_beBytes, length_take, Nat.min_eq_left hlt.le] at hloop
  have hleft : 0 < ((items.drop n).map frame).flatten.length := by
    obtain ⟨sf, rest, hd⟩ : ∃ sf rest, items.drop n = sf :: rest :=
      exists_cons_of_length_pos (by rw [length_drop]; omega)
    rw [hd, map_cons, flatten_cons, length_append, length_frame]
    omega
  have hpre : decodeAllPrefix (listBytes items) =
      .ok (items.take n, 4 + ((items.take n).map frame).flatten.length) := by
    unfold decodeAllPrefix
    rw [if_neg (by simp [listBytes]), hlenBytes, hval, ← hn]
    exact hloop
  have htotal : (listBytes items).length = 4 + ((items.take n).map frame).flatten.length +
      ((items.drop n).map frame).flatten.length := by
    rw [listBytes, length_append, length_beBytes, hsplit, length_append]; omega
  unfold decodeAll
  rw [hpre]
  simp only [bind, Except.bind]
  rw [if_pos (by omega)]
  exact ⟨_, rfl⟩

end SignedFact

/-! ## Accepted bytes are encodings

The parser is strict: each step it accepts pins down the bytes it read. -/

omit [Crypto] in
theorem nameField_of_parseName {name : Option String} (hoff : off ≤ bytes.length)
    (h : parseName bytes flags off = .ok (name, off')) :
    slice bytes off off' = Fact.nameField name ∧ off ≤ off' ∧ off' ≤ bytes.length ∧
      (flags &&& FLAG_HAS_NAME ≠ 0 ↔ name.isSome) ∧
      ∀ n, name = some n → (utf8 n).length ≤ MAX_NAME_BYTES := by
  unfold parseName at h
  by_cases hset : flags &&& FLAG_HAS_NAME ≠ 0
  · rw [if_pos hset] at h
    by_cases hlen : bytes.length < off + 2
    · rw [if_pos hlen] at h; cases h
    rw [if_neg hlen] at h
    simp only at h
    by_cases hmax : MAX_NAME_BYTES < beNat (slice bytes off (off + 2))
    · rw [if_pos hmax] at h; cases h
    rw [if_neg hmax] at h
    by_cases hbody : bytes.length < off + 2 + beNat (slice bytes off (off + 2))
    · rw [if_pos hbody] at h; cases h
    rw [if_neg hbody] at h
    cases hu : fromUtf8 (slice bytes (off + 2) (off + 2 + beNat (slice bytes off (off + 2)))) with
    | none => rw [hu] at h; cases h
    | some n =>
      rw [hu] at h
      simp only [Except.ok.injEq, Prod.mk.injEq] at h
      obtain ⟨rfl, rfl⟩ := h
      have hn := utf8_of_fromUtf8 hu
      have hnlen : (utf8 n).length = beNat (slice bytes off (off + 2)) := by
        rw [hn, length_slice (by omega)]; omega
      have hpre : beBytes 2 (utf8 n).length = slice bytes off (off + 2) := by
        rw [hnlen]
        have := beBytes_beNat (slice bytes off (off + 2))
        rwa [length_slice (by omega), Nat.add_sub_cancel_left] at this
      refine ⟨?_, by omega, by omega, by simp [hset], ?_⟩
      · rw [Fact.nameField, hpre, hn, slice_append_slice (by omega) (by omega)]
      · rintro m hm
        obtain rfl : n = m := by simpa using hm
        omega
  · rw [if_neg hset] at h
    simp only [Except.ok.injEq, Prod.mk.injEq] at h
    obtain ⟨rfl, rfl⟩ := h
    exact ⟨by simp [slice, Fact.nameField], le_rfl, hoff, by simpa using hset, by simp⟩

omit [Crypto] in
theorem expiryField_of_parseExpiry {exp : Option UInt64} (hoff : off ≤ bytes.length)
    (h : parseExpiry bytes flags off = .ok (exp, off')) :
    slice bytes off off' = Fact.expiryField exp ∧ off ≤ off' ∧ off' ≤ bytes.length ∧
      (flags &&& FLAG_HAS_EXPIRY ≠ 0 ↔ exp.isSome) := by
  unfold parseExpiry at h
  by_cases hset : flags &&& FLAG_HAS_EXPIRY ≠ 0
  · rw [if_pos hset] at h
    by_cases hlen : bytes.length < off + 8
    · rw [if_pos hlen] at h; cases h
    rw [if_neg hlen] at h
    simp only [Except.ok.injEq, Prod.mk.injEq] at h
    obtain ⟨rfl, rfl⟩ := h
    have hsize : (slice bytes off (off + 8)).length = 8 := by rw [length_slice (by omega)]; omega
    have hlt := beNat_lt (slice bytes off (off + 8))
    have hback := beBytes_beNat (slice bytes off (off + 8))
    rw [hsize] at hlt hback
    refine ⟨?_, by omega, by omega, by simp [hset]⟩
    rw [Fact.expiryField, UInt64.toNat_ofNat_of_lt' (by simpa using hlt), hback]
  · rw [if_neg hset] at h
    simp only [Except.ok.injEq, Prod.mk.injEq] at h
    obtain ⟨rfl, rfl⟩ := h
    exact ⟨by simp [slice, Fact.expiryField], le_rfl, hoff, by simpa using hset⟩

omit [Crypto] in
theorem targetField_of_parseTarget {target : Option FactId} (hoff : off ≤ bytes.length)
    (h : parseTarget bytes flags off = .ok (target, off')) :
    slice bytes off off' = Fact.targetField target ∧ off ≤ off' ∧ off' ≤ bytes.length ∧
      (flags &&& FLAG_HAS_TARGET ≠ 0 ↔ target.isSome) := by
  unfold parseTarget at h
  by_cases hset : flags &&& FLAG_HAS_TARGET ≠ 0
  · rw [if_pos hset] at h
    by_cases hlen : bytes.length < off + 32
    · rw [if_pos hlen] at h; cases h
    rw [if_neg hlen] at h
    simp only [Except.ok.injEq, Prod.mk.injEq] at h
    obtain ⟨rfl, rfl⟩ := h
    refine ⟨?_, by omega, by omega, by simp [hset]⟩
    rw [Fact.targetField, toBytes_arrayAt (by omega)]
  · rw [if_neg hset] at h
    simp only [Except.ok.injEq, Prod.mk.injEq] at h
    obtain ⟨rfl, rfl⟩ := h
    exact ⟨by simp [slice, Fact.targetField], le_rfl, hoff, by simpa using hset⟩

omit [Crypto] in
theorem flags_determined {name exp target : Bool}
    (hres : flags &&& ~~~(FLAG_HAS_NAME ||| FLAG_HAS_EXPIRY ||| FLAG_HAS_TARGET) = 0)
    (hname : flags &&& FLAG_HAS_NAME ≠ 0 ↔ name = true)
    (hexp : flags &&& FLAG_HAS_EXPIRY ≠ 0 ↔ exp = true)
    (htarget : flags &&& FLAG_HAS_TARGET ≠ 0 ↔ target = true) :
    flags = (if name then FLAG_HAS_NAME else 0) ||| (if exp then FLAG_HAS_EXPIRY else 0) |||
      (if target then FLAG_HAS_TARGET else 0) := by
  -- a finite check over the 256 flag bytes
  have hall : ∀ n : Fin 256, ∀ name exp target : Bool,
      UInt8.ofFin n &&& ~~~(FLAG_HAS_NAME ||| FLAG_HAS_EXPIRY ||| FLAG_HAS_TARGET) = 0 →
      (UInt8.ofFin n &&& FLAG_HAS_NAME ≠ 0 ↔ name = true) →
      (UInt8.ofFin n &&& FLAG_HAS_EXPIRY ≠ 0 ↔ exp = true) →
      (UInt8.ofFin n &&& FLAG_HAS_TARGET ≠ 0 ↔ target = true) →
      UInt8.ofFin n = (if name then FLAG_HAS_NAME else 0) ||| (if exp then FLAG_HAS_EXPIRY else 0)
        ||| (if target then FLAG_HAS_TARGET else 0) := by decide +kernel
  exact hall flags.toFin name exp target hres hname hexp htarget

theorem asBytes_of_keyFromBytes {bytes : BytesN 32} {e : EndpointId}
    (h : keyFromBytes bytes = .ok e) : e.asBytes = bytes :=
  EndpointId.fromBytes_eq_some (okOr_eq_ok.mp h)

/-- **An accepted prefix is the layout of the fact it parses to.** -/
theorem layout_of_parseFactPrefix {f : Fact} {n : Nat} (h : parseFactPrefix bytes = .ok (f, n)) :
    slice bytes 0 n = f.layout ∧ n ≤ bytes.length ∧ f.Representable := by
  simp only [parseFactPrefix, ite_throw_eq_ok, bind_eq_ok, okOr_eq_ok, pure_eq_ok, Prod.exists,
    Prod.mk.injEq, not_not] at h
  obtain ⟨hlen, hdomain, kind, hk, issuer, hi, subject, hs, hres, name, off₁, hn, exp, off₂, he,
    target, off₃, ht, rfl, rfl⟩ := h
  have hlen : 119 ≤ bytes.length := Nat.le_of_not_lt hlen
  -- what each step says about the bytes it read
  obtain ⟨hname, hle₁, hb₁, hflag₁, hrep⟩ := nameField_of_parseName hlen hn
  obtain ⟨hexp, hle₂, hb₂, hflag₂⟩ := expiryField_of_parseExpiry hb₁ he
  obtain ⟨htarget, hle₃, hb₃, hflag₃⟩ := targetField_of_parseTarget hb₂ ht
  have hkind : slice bytes 13 14 = [kind.asU8] := by
    rw [slice_succ (by omega), FactKind.fromU8_eq_some hk]
  have hissued : slice bytes 110 118 =
      beBytes 8 (UInt64.ofNat (beNat (slice bytes 110 118))).toNat := by
    have hsize : (slice bytes 110 118).length = 8 := by rw [length_slice (by omega)]
    have hlt := beNat_lt (slice bytes 110 118)
    have hback := beBytes_beNat (slice bytes 110 118)
    rw [hsize] at hlt hback
    rw [UInt64.toNat_ofNat_of_lt' (by simpa using hlt), hback]
  have hflags := flags_determined hres hflag₁ hflag₂ hflag₃
  have hflagByte : slice bytes 118 119 = [bytes.getD 118 0] := slice_succ (by omega)
  -- reassemble the fields from the front
  have hfixed : slice bytes 0 FACT_FIXED_LEN = FACT_DOMAIN ++ ([kind.asU8] ++
      ((arrayAt bytes 14 32).toBytes ++ (issuer.asBytes.toBytes ++ (subject.asBytes.toBytes ++
        (beBytes 8 (UInt64.ofNat (beNat (slice bytes 110 118))).toNat ++
          [bytes.getD 118 0]))))) := by
    rw [asBytes_of_keyFromBytes hi, asBytes_of_keyFromBytes hs, toBytes_arrayAt (by omega),
      toBytes_arrayAt (by omega), toBytes_arrayAt (by omega), ← hissued, ← hflagByte, ← hkind,
      ← hdomain]
    simp only [FACT_FIXED_LEN]
    rw [slice_append_slice (by omega) (by omega), slice_append_slice (by omega) (by omega),
      slice_append_slice (by omega) (by omega), slice_append_slice (by omega) (by omega),
      slice_append_slice (by omega) (by omega), slice_append_slice (by omega) (by omega)]
  refine ⟨?_, hb₃, hrep⟩
  rw [Fact.layout_eq, Fact.fixedFields, Fact.optionalFields, Fact.flags, ← hflags, ← hfixed,
    ← hname, ← hexp, ← htarget, slice_append_slice hle₂ hle₃,
    slice_append_slice hle₁ (by omega)]
  exact (slice_append_slice (Nat.zero_le 119) (by omega)).symm

namespace SignedFact

variable {bytes : Bytes} {items : List SignedFact}

/-- **An accepted wire frame is the frame of what it decodes to.** -/
theorem frame_of_decode {sf : SignedFact} (h : decode bytes = .ok sf) :
    bytes = sf.frame ∧ sf.fact.Representable := by
  simp only [decode, Fact.decodeStrict, ite_throw_eq_ok, bind_eq_ok, pure_eq_ok, Prod.exists,
    not_not] at h
  obtain ⟨hmin, hlen, fact, ⟨fact', n, hp, hn, rfl⟩, rfl⟩ := h
  simp only [SIGNATURE_LENGTH] at hmin hlen
  have hbody : (slice bytes 4 (4 + beNat (slice bytes 0 4))).length = beNat (slice bytes 0 4) := by
    rw [length_slice (by omega)]; omega
  obtain ⟨hslice, -, hrep⟩ := layout_of_parseFactPrefix hp
  rw [hn, slice_zero_length] at hslice
  have hlenBytes : beBytes 4 fact'.layout.length = slice bytes 0 4 := by
    rw [← hslice, hbody]
    have := beBytes_beNat (slice bytes 0 4)
    rwa [length_slice (by omega)] at this
  refine ⟨?_, hrep⟩
  show bytes = beBytes 4 fact'.layout.length ++ (fact'.layout ++ _)
  rw [hlenBytes, toBytes_arrayAt (by omega), ← hslice, slice_append_slice (by omega) (by omega),
    slice_append_slice (by omega) (by omega), ← hlen, slice_zero_length]

theorem frames_of_decodeItems {count n off off' : Nat} (hoff : off ≤ bytes.length)
    (h : decodeItems bytes count n off = .ok (items, off')) :
    slice bytes off off' = (items.map frame).flatten ∧ off ≤ off' ∧ off' ≤ bytes.length ∧
      items.length = n ∧ ∀ sf ∈ items, sf.fact.Representable := by
  induction n generalizing off items with
  | zero =>
    simp only [decodeItems, Except.ok.injEq, Prod.mk.injEq] at h
    obtain ⟨rfl, rfl⟩ := h
    exact ⟨by simp [slice], le_rfl, hoff, rfl, by simp⟩
  | succ n ih =>
    simp only [decodeItems, ite_throw_eq_ok, bind_eq_ok, pure_eq_ok, Prod.exists,
      Prod.mk.injEq] at h
    obtain ⟨hlen, hframe, sf, hd, rest, stop, hr, rfl, rfl⟩ := h
    simp only [SIGNATURE_LENGTH] at hframe hd hr
    obtain ⟨hhead, hrep⟩ := frame_of_decode hd
    obtain ⟨htail, hle, hb, hn, hall⟩ := ih (by omega) hr
    refine ⟨?_, by omega, hb, by simp [hn], forall_mem_cons.mpr ⟨hrep, hall⟩⟩
    rw [map_cons, flatten_cons, ← hhead, ← htail,
      slice_append_slice (by omega) (by omega)]

/-- **An accepted fact list is the encoding of what it decodes to**, and it holds fewer
than `2 ^ 32` facts. -/
theorem listBytes_of_decodeAll (h : decodeAll bytes = .ok items) :
    bytes = listBytes items ∧ (∀ sf ∈ items, sf.fact.Representable) ∧
      items.length < 256 ^ 4 := by
  simp only [decodeAll, ite_throw_eq_ok, bind_eq_ok, pure_eq_ok, Prod.exists, not_not] at h
  obtain ⟨facts, consumed, hp, hcons, rfl⟩ := h
  unfold decodeAllPrefix at hp
  split at hp
  · cases hp
  · rename_i hlen
    obtain ⟨hframes, -, -, hcount, hrep⟩ := frames_of_decodeItems (Nat.le_of_not_lt hlen) hp
    have hsize : (slice bytes 0 4).length = 4 := by rw [length_slice (by omega)]
    have hlt := beNat_lt (slice bytes 0 4)
    have hback := beBytes_beNat (slice bytes 0 4)
    rw [hsize] at hlt hback
    refine ⟨?_, hrep, hcount ▸ hlt⟩
    rw [listBytes, hcount, hback, ← hframes, slice_append_slice (by omega) (by omega), hcons,
      slice_zero_length]

/-- Frames are self-delimiting: of two lists with the same count bytes and the same frames,
the shorter one is the longer one. -/
theorem eq_of_listBytes_eq {items' : List SignedFact} (hall : ∀ sf ∈ items, sf.fact.Representable)
    (hall' : ∀ sf ∈ items', sf.fact.Representable) (hle : items.length ≤ items'.length)
    (h : listBytes items = listBytes items') : items = items' := by
  obtain ⟨hcount, hframes⟩ := List.append_inj h (by simp)
  -- read `items.length` frames off both
  have hloop := decodeItems_frames 0 items (beBytes 4 items.length) [] hall
  have hsplit : (items'.map frame).flatten = ((items'.take items.length).map frame).flatten ++
      ((items'.drop items.length).map frame).flatten := by
    rw [← flatten_append, ← map_append, take_append_drop]
  have hloop' := decodeItems_frames 0 (items'.take items.length) (beBytes 4 items.length)
    ((items'.drop items.length).map frame).flatten
    (fun sf hsf => hall' sf (mem_of_mem_take hsf))
  rw [append_nil, hframes] at hloop
  rw [← hsplit, length_take, Nat.min_eq_left hle, hloop, Except.ok.injEq,
    Prod.mk.injEq] at hloop'
  obtain ⟨htake, hlen⟩ := hloop'
  have hrest : items'.drop items.length = [] := by
    by_contra hne
    obtain ⟨sf, rest, hd⟩ := exists_cons_of_ne_nil hne
    rw [hsplit, hd, length_append, map_cons, flatten_cons, length_append,
      length_frame] at hlen
    omega
  calc items = items'.take items.length := htake
    _ = items'.take items.length ++ items'.drop items.length := by rw [hrest, append_nil]
    _ = items' := take_append_drop _ _

/-- **The fact list encoding is injective**, truncated count or not. -/
theorem encodeAll_injective {items' : List SignedFact} (h : encodeAll items = .ok bytes)
    (h' : encodeAll items' = .ok bytes) : items = items' := by
  obtain ⟨hall, rfl⟩ := encodeAll_eq_ok.mp h
  obtain ⟨hall', heq⟩ := encodeAll_eq_ok.mp h'
  obtain hle | hle := Nat.le_total items.length items'.length
  · exact eq_of_listBytes_eq hall hall' hle heq
  · exact (eq_of_listBytes_eq hall' hall hle heq.symm).symm

end SignedFact

end Dweb
