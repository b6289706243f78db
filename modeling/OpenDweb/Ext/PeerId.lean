import OpenDweb.Cli.ShortCodeBits
import OpenDweb.Lib.Bytes
import OpenDweb.Lib.Except

/-!
# OpenDweb — two spellings of an endpoint key

`webui/src/core/fabric.mjs` prints a key in z-base-32, as sessions name their peer, and reads it
back to the hexadecimal digits that ledgers keep. The plugins `ports`, `files` and `sync` each have
a copy of the reader, behind a check of which of the two a text is.

* **`hexToZ32`**, **`z32ToHex`** — eight bits to five and back, with what is left over between.
* **`normalizePeerId`** — the copies of the plugins.
* **`toZ32`** — what a key is printed as: its bits, and four zeros last.
* **`hexToZ32_hexForm`**, **`z32ToHex_toZ32`**, **`normalizePeerId_spell`** — every key, both ways.
-/

namespace Dweb

open List

/-! ## Texts -/

/-- `ybndrfg8ejkmcpqxot1uwisza345h769`. -/
def z32Alphabet : List Char := "ybndrfg8ejkmcpqxot1uwisza345h769".toList

/-- `A.indexOf(ch)`, `none` for −1. -/
def z32Index (ch : Char) : Option Nat := z32Alphabet.findIdx? (· = ch)

def z32Char (v : Nat) : Char := z32Alphabet.getD v 'y'

def hexAlphabet : List Char := "0123456789abcdef".toList

/-- `buffer.toString("hex")`. -/
def hexText (bytes : List Nat) : List Char :=
  bytes.flatMap fun b => [hexAlphabet.getD (b / 16) '0', hexAlphabet.getD (b % 16) '0']

def hexDigitValue (ch : Char) : Option Nat := hexAlphabet.findIdx? (· = ch.toLower)

/-- `Buffer.from(hex, "hex")`, which stops at the first pair that is not one. -/
def bufferFromHex : List Char → List Nat
  | hi :: lo :: rest =>
    match hexDigitValue hi, hexDigitValue lo with
    | some h, some l => (16 * h + l) :: bufferFromHex rest
    | _, _ => []
  | _ => []

/-! ## Eight bits to five -/

/-- The inner loop of `hexToZ32`: what is written, and the bits that are left. -/
def drainDigits : Nat → Nat → List Char × Nat × Nat
  | value, bits + 5 =>
    let (out, left) := drainDigits (value % 2 ^ bits) bits
    (z32Char (value >>> bits &&& 31) :: out, left)
  | value, bits => ([], value, bits)

/-- The loop over the bytes; the bits left at its end go to the top of the last character. -/
def hexToZ32Loop : List Nat → Nat → Nat → List Char
  | [], value, bits => if 0 < bits then [z32Char (value <<< (5 - bits) &&& 31)] else []
  | b :: bytes, value, bits =>
    let (out, value, bits) := drainDigits (value <<< 8 ||| b) (bits + 8)
    out ++ hexToZ32Loop bytes value bits

def hexToZ32 (hex : List Char) : List Char := hexToZ32Loop (bufferFromHex hex) 0 0

/-! ## Five bits to eight -/

/-- The inner loop of `z32ToHex`. -/
def drainBytes : Nat → Nat → List Nat × Nat × Nat
  | value, bits + 8 =>
    let (out, left) := drainBytes (value % 2 ^ bits) bits
    ((value >>> bits &&& 0xff) :: out, left)
  | value, bits => ([], value, bits)

/-- The loop over the characters, by their indices; what does not fill a byte is dropped. -/
def z32Bytes : List Nat → Nat → Nat → List Nat
  | [], _, _ => []
  | idx :: rest, value, bits =>
    let (out, value, bits) := drainBytes (value * 32 + idx) (bits + 5)
    out ++ z32Bytes rest value bits

/-- `z32ToHex`; the error is `invalid z32 char`, with the character. -/
def z32ToHex (z32 : List Char) : Except Char (List Char) := do
  let indices ← z32.mapM fun ch => okOr (z32Index ch) ch
  return hexText (z32Bytes indices 0 0)

def isHex64 (peer : List Char) : Bool := peer.length = 64 ∧ ∀ ch ∈ peer, ch ∈ hexAlphabet

def isZ32Text (peer : List Char) : Bool := peer.length = 52 ∧ ∀ ch ∈ peer, ch ∈ z32Alphabet

/-- `normalizePeerId`, the text of which is the same in each plugin. -/
def normalizePeerId (peer : List Char) : List Char :=
  if isHex64 peer then peer
  else if isZ32Text peer then
    -- every character is of the alphabet
    hexText (z32Bytes (peer.map fun ch => (z32Index ch).getD 0) 0 0)
  else peer

namespace Ports

/-- `normalizePeerId` of `opendweb-ext-ports/src/ledger.mjs`. -/
def normalizePeerId : List Char → List Char := Dweb.normalizePeerId

end Ports

namespace Files

/-- `normalizePeerId` of `opendweb-ext-files/src/runtime.mjs`. -/
def normalizePeerId : List Char → List Char := Dweb.normalizePeerId

end Files

namespace Sync

/-- `normalizePeerId` of `opendweb-ext-sync/src/endpoint.mjs`. -/
def normalizePeerId : List Char → List Char := Dweb.normalizePeerId

end Sync

/-! ## Keys, as they are printed -/

def keyBytes (key : BytesN 32) : List Nat := key.toBytes.map UInt8.toNat

def hexForm (key : BytesN 32) : List Char := hexText (keyBytes key)

def toZ32 (key : BytesN 32) : List Char :=
  let bits := byteBits (keyBytes key) ++ List.replicate 4 false
  (List.range 52).map fun i => z32Char (readBits bits (5 * i) 5)

/-! ## Alphabets -/

theorem z32Index_z32Char : ∀ v < 32, z32Index (z32Char v) = some v := by
  decide

theorem z32Char_mem (v : Nat) : z32Char v ∈ z32Alphabet := by
  by_cases h : v < z32Alphabet.length
  · rw [z32Char, getD_eq_getElem _ _ h]
    exact getElem_mem h
  · rw [z32Char, getD_eq_default _ _ (Nat.le_of_not_lt h)]
    decide

variable {ch : Char} {v : Nat} {bytes : List Nat}

theorem z32Index_of_mem (h : ch ∈ z32Alphabet) : ∃ v < 32, z32Index ch = some v := by
  have hall : (z32Alphabet.all fun ch => (z32Index ch).any fun v => v < 32) = true := by decide
  obtain ⟨v, hindex, hv⟩ := (Option.any_eq_true _ _).mp (all_eq_true.mp hall ch h)
  exact ⟨v, of_decide_eq_true hv, hindex⟩

theorem z32Index_eq_some (h : z32Index ch = some v) : v < 32 ∧ ch = z32Char v := by
  obtain ⟨hlt, hchar, -⟩ := findIdx?_eq_some_iff_getElem.mp h
  refine ⟨hlt, ?_⟩
  rw [z32Char, getD_eq_getElem _ _ hlt]
  have heq : z32Alphabet[v] = ch := by simpa using hchar
  exact heq.symm

theorem hexDigitValue_getD : ∀ v < 16, hexDigitValue (hexAlphabet.getD v '0') = some v := by
  decide

theorem bufferFromHex_hexText (h : ∀ b ∈ bytes, b < 256) :
    bufferFromHex (hexText bytes) = bytes := by
  induction bytes with
  | nil => rfl
  | cons b bytes ih =>
    obtain ⟨hb, hrest⟩ := forall_mem_cons.mp h
    show bufferFromHex (hexAlphabet.getD (b / 16) '0' :: hexAlphabet.getD (b % 16) '0'
      :: hexText bytes) = _
    rw [bufferFromHex, hexDigitValue_getD _ (by omega), hexDigitValue_getD _ (by omega)]
    dsimp only
    rw [ih hrest, Nat.div_add_mod]

theorem length_hexText (bytes : List Nat) : (hexText bytes).length = 2 * bytes.length := by
  induction bytes with
  | nil => rfl
  | cons b bytes ih =>
    rw [hexText, flatMap_cons, length_append]
    show 2 + (hexText bytes).length = 2 * (bytes.length + 1)
    omega

theorem mem_hexText (h : ch ∈ hexText bytes) : ch ∈ hexAlphabet := by
  have hdigit : ∀ v, hexAlphabet.getD v '0' ∈ hexAlphabet := by
    intro v
    by_cases hv : v < hexAlphabet.length
    · rw [getD_eq_getElem _ _ hv]
      exact getElem_mem hv
    · rw [getD_eq_default _ _ (Nat.le_of_not_lt hv)]
      decide
  obtain ⟨b, -, hch⟩ := mem_flatMap.mp h
  rcases mem_cons.mp hch with rfl | hch
  · exact hdigit _
  · rw [mem_singleton.mp hch]
    exact hdigit _

/-! ## Regrouping -/

def z32Bits (text : List Char) : List Bool := text.flatMap fun ch => bitsOf 5 ((z32Index ch).getD 0)

theorem flatMap_indices (text : List Char) :
    (text.map fun ch => (z32Index ch).getD 0).flatMap (bitsOf 5) = z32Bits text :=
  flatMap_map ..

theorem z32Bits_append (a b : List Char) : z32Bits (a ++ b) = z32Bits a ++ z32Bits b :=
  flatMap_append

theorem z32Bits_z32Char (text : List Char) (h : v < 32) :
    z32Bits (z32Char v :: text) = bitsOf 5 v ++ z32Bits text := by
  rw [z32Bits, flatMap_cons, z32Index_z32Char v h]
  rfl

theorem bitsOf_mod (n v : Nat) : bitsOf n (v % 2 ^ n) = bitsOf n v := by
  refine bitsOf_congr fun i hi => ?_
  rw [Nat.testBit_mod_two_pow, decide_eq_true hi, Bool.true_and]

theorem bitsOf_pushed {n k d : Nat} (h : d < 2 ^ k) :
    bitsOf (n + k) (v * 2 ^ k + d) = bitsOf n v ++ bitsOf k d := by
  have hhigh : (v * 2 ^ k + d) >>> k = v := by
    rw [Nat.shiftRight_eq_div_pow, Nat.add_comm, Nat.add_mul_div_right _ _ (Nat.two_pow_pos k),
      Nat.div_eq_of_lt h, Nat.zero_add]
  rw [bitsOf_add, hhigh, ← bitsOf_mod k (v * 2 ^ k + d), Nat.add_comm, Nat.add_mul_mod_self_right,
    bitsOf_mod]

theorem bitsOf_zero (n : Nat) : bitsOf n 0 = List.replicate n false := by
  induction n with
  | zero => rfl
  | succ n ih => rw [bitsOf, ih, Nat.zero_testBit, replicate_succ]

theorem z32Bits_drainDigits (value bits : Nat) :
    z32Bits (drainDigits value bits).1
        ++ bitsOf (drainDigits value bits).2.2 (drainDigits value bits).2.1 = bitsOf bits value
      ∧ (drainDigits value bits).2.2 < 5 := by
  fun_induction drainDigits value bits with
  | case1 value bits out left heq ih =>
    rw [heq] at ih
    refine ⟨?_, ih.2⟩
    have hlow : value >>> bits &&& 31 < 32 := Nat.lt_of_le_of_lt Nat.and_le_right (by decide)
    have hmask : bitsOf 5 (value >>> bits &&& 31) = bitsOf 5 (value >>> bits) :=
      bitsOf_mask 5 (value >>> bits)
    rw [z32Bits_z32Char _ hlow, append_assoc, ih.1, bitsOf_mod, hmask]
    show _ = bitsOf (bits + 5) value
    rw [Nat.add_comm bits 5, bitsOf_add]
  | case2 value bits hsmall =>
    refine ⟨rfl, ?_⟩
    show bits < 5
    by_contra hlarge
    exact hsmall (bits - 5) (by omega)

/-- **What is written has the bits of the bytes**, and fewer than five zeros after them. -/
theorem z32Bits_hexToZ32Loop (h : ∀ b ∈ bytes, b < 256) (value bits : Nat) (hbits : bits < 5) :
    ∃ pad < 5, z32Bits (hexToZ32Loop bytes value bits)
      = bitsOf bits value ++ byteBits bytes ++ List.replicate pad false := by
  induction bytes generalizing value bits with
  | nil =>
    rw [hexToZ32Loop]
    by_cases hpos : 0 < bits
    · refine ⟨5 - bits, by omega, ?_⟩
      have hlow : value <<< (5 - bits) &&& 31 < 32 :=
        Nat.lt_of_le_of_lt Nat.and_le_right (by decide)
      have hmask : bitsOf 5 (value <<< (5 - bits) &&& 31) = bitsOf 5 (value <<< (5 - bits)) :=
        bitsOf_mask 5 (value <<< (5 - bits))
      have hpad := bitsOf_pushed (n := bits) (k := 5 - bits) (v := value) (d := 0)
        (Nat.two_pow_pos _)
      rw [show bits + (5 - bits) = 5 by omega, Nat.add_zero, ← Nat.shiftLeft_eq,
        bitsOf_zero] at hpad
      rw [if_pos hpos, z32Bits_z32Char _ hlow, hmask, hpad]
      simp [byteBits, z32Bits]
    · refine ⟨0, by decide, ?_⟩
      rw [if_neg hpos, show bits = 0 by omega]
      rfl
  | cons b bytes ih =>
    obtain ⟨hb, hrest⟩ := forall_mem_cons.mp h
    rw [hexToZ32Loop]
    obtain ⟨hdrained, hleft⟩ := z32Bits_drainDigits (value <<< 8 ||| b) (bits + 8)
    obtain ⟨pad, hpad, hloop⟩ := ih hrest (drainDigits (value <<< 8 ||| b) (bits + 8)).2.1
      (drainDigits (value <<< 8 ||| b) (bits + 8)).2.2 hleft
    refine ⟨pad, hpad, ?_⟩
    dsimp only
    rw [z32Bits_append, hloop, ← append_assoc, ← append_assoc, hdrained, bitsOf_push hb,
      byteBits_cons, ← append_assoc]

theorem byteBits_drainBytes (value bits : Nat) :
    byteBits (drainBytes value bits).1
        ++ bitsOf (drainBytes value bits).2.2 (drainBytes value bits).2.1 = bitsOf bits value
      ∧ (drainBytes value bits).2.2 < 8 ∧ ∀ b ∈ (drainBytes value bits).1, b < 256 := by
  fun_induction drainBytes value bits with
  | case1 value bits out left heq ih =>
    rw [heq] at ih
    have hlow : value >>> bits &&& 0xff < 256 := Nat.lt_of_le_of_lt Nat.and_le_right (by decide)
    refine ⟨?_, ih.2.1, forall_mem_cons.mpr ⟨hlow, ih.2.2⟩⟩
    have hmask : bitsOf 8 (value >>> bits &&& 0xff) = bitsOf 8 (value >>> bits) :=
      bitsOf_mask 8 (value >>> bits)
    rw [byteBits_cons, append_assoc, ih.1, bitsOf_mod, hmask]
    show _ = bitsOf (bits + 8) value
    rw [Nat.add_comm bits 8, bitsOf_add]
  | case2 value bits hsmall =>
    refine ⟨rfl, ?_, nofun⟩
    show bits < 8
    by_contra hlarge
    exact hsmall (bits - 8) (by omega)

/-- **The bytes that are read have the bits of the text**, but for fewer than eight at its end. -/
theorem byteBits_z32Bytes {indices : List Nat} (h : ∀ v ∈ indices, v < 32) (value bits : Nat)
    (hbits : bits < 8) : (∃ left, left.length < 8 ∧ byteBits (z32Bytes indices value bits) ++ left
      = bitsOf bits value ++ indices.flatMap (bitsOf 5))
      ∧ ∀ b ∈ z32Bytes indices value bits, b < 256 := by
  induction indices generalizing value bits with
  | nil =>
    refine ⟨⟨bitsOf bits value, ?_, ?_⟩, nofun⟩
    · rw [length_bitsOf]
      exact hbits
    · rw [z32Bytes, flatMap_nil, append_nil]
      rfl
  | cons idx rest ih =>
    obtain ⟨hidx, hrest⟩ := forall_mem_cons.mp h
    rw [z32Bytes]
    obtain ⟨hdrained, hleft, hout⟩ := byteBits_drainBytes (value * 32 + idx) (bits + 5)
    obtain ⟨⟨left, hlen, hloop⟩, hbytes⟩ := ih hrest (drainBytes (value * 32 + idx) (bits + 5)).2.1
      (drainBytes (value * 32 + idx) (bits + 5)).2.2 hleft
    refine ⟨⟨left, hlen, ?_⟩, forall_mem_append.mpr ⟨hout, hbytes⟩⟩
    dsimp only
    rw [byteBits_append, append_assoc, hloop, ← append_assoc, hdrained,
      show value * 32 = value * 2 ^ 5 from rfl, bitsOf_pushed hidx, flatMap_cons,
      append_assoc]

/-! ## Keys -/

section

variable (key : BytesN 32)

theorem length_keyBytes : (keyBytes key).length = 32 := by
  rw [keyBytes, length_map, key.length_toBytes]

theorem keyBytes_lt : ∀ b ∈ keyBytes key, b < 256 := by
  intro b hb
  obtain ⟨byte, -, rfl⟩ := mem_map.mp hb
  exact byte.toNat_lt

theorem keyBytes_injective {key key' : BytesN 32} (h : keyBytes key = keyBytes key') :
    key = key' :=
  BytesN.toBytes_injective (map_injective_iff.mpr (fun _ _ => UInt8.toNat_inj.mp) h)

theorem length_hexForm : (hexForm key).length = 64 := by
  rw [hexForm, length_hexText, length_keyBytes]

theorem isHex64_hexForm : isHex64 (hexForm key) = true := by
  rw [isHex64, decide_eq_true_eq]
  exact ⟨length_hexForm key, fun _ => mem_hexText⟩

theorem hexForm_injective {key key' : BytesN 32} (h : hexForm key = hexForm key') : key = key' := by
  refine keyBytes_injective ?_
  rw [← bufferFromHex_hexText (keyBytes_lt key), ← bufferFromHex_hexText (keyBytes_lt key')]
  exact congrArg bufferFromHex h

theorem flatMap_range_pieces {α : Type*} (l : List α) (k n : Nat) :
    (List.range n).flatMap (fun i => (l.drop (k * i)).take k) = l.take (k * n) := by
  induction n with
  | zero => rfl
  | succ n ih =>
    rw [range_succ, flatMap_append, ih, flatMap_singleton, Nat.mul_succ,
      take_add]

theorem z32Bits_toZ32 :
    z32Bits (toZ32 key) = byteBits (keyBytes key) ++ List.replicate 4 false := by
  have hlen : (byteBits (keyBytes key) ++ List.replicate 4 false).length = 5 * 52 := by
    rw [length_append, length_byteBits, length_keyBytes, length_replicate]
  rw [toZ32, z32Bits, flatMap_map]
  generalize byteBits (keyBytes key) ++ List.replicate 4 false = bits at hlen ⊢
  have hpieces := flatMap_range_pieces bits 5 52
  rw [take_of_length_le (Nat.le_of_eq hlen)] at hpieces
  refine Eq.trans ?_ hpieces
  refine flatMap_congr fun i hi => ?_
  have hi : i < 52 := mem_range.mp hi
  rw [z32Index_z32Char _ readBits_lt, Option.getD_some, bitsOf_readBits (by omega)]

theorem length_toZ32 : (toZ32 key).length = 52 := by
  rw [toZ32, length_map, length_range]

theorem toZ32_mem : ∀ ch ∈ toZ32 key, ch ∈ z32Alphabet := by
  intro ch hch
  obtain ⟨i, -, rfl⟩ := mem_map.mp hch
  exact z32Char_mem _

theorem isZ32Text_toZ32 : isZ32Text (toZ32 key) = true := by
  rw [isZ32Text, decide_eq_true_eq]
  exact ⟨length_toZ32 key, toZ32_mem key⟩

theorem isHex64_toZ32 : isHex64 (toZ32 key) = false := by
  rw [isHex64, decide_eq_false_iff_not, length_toZ32]
  exact fun h => absurd h.1 (by decide)

/-- **Reading the printed form gives the bytes of the key.** -/
theorem z32Bytes_toZ32 :
    z32Bytes ((toZ32 key).map fun ch => (z32Index ch).getD 0) 0 0 = keyBytes key := by
  have hindices : ∀ v ∈ (toZ32 key).map fun ch => (z32Index ch).getD 0, v < 32 := by
    intro v hv
    obtain ⟨ch, hch, rfl⟩ := mem_map.mp hv
    obtain ⟨v, hlt, hindex⟩ := z32Index_of_mem (toZ32_mem key ch hch)
    rw [hindex]
    exact hlt
  obtain ⟨⟨left, hleft, hbits⟩, hbytes⟩ := byteBits_z32Bytes hindices 0 0 (by decide)
  rw [flatMap_indices, z32Bits_toZ32, bitsOf, nil_append] at hbits
  -- 260 bits are 32 bytes, and the four zeros that are dropped
  have hlengths := congrArg List.length hbits
  rw [length_append, length_append, length_byteBits, length_byteBits, length_keyBytes,
    length_replicate] at hlengths
  have hsame := (List.append_inj hbits (by
    rw [length_byteBits, length_byteBits, length_keyBytes]
    omega)).1
  exact byteBits_inj hbytes (keyBytes_lt key) hsame

theorem z32Bits_inj {a b : List Char} (ha : ∀ ch ∈ a, ch ∈ z32Alphabet)
    (hb : ∀ ch ∈ b, ch ∈ z32Alphabet) (h : z32Bits a = z32Bits b) : a = b := by
  have hcons : ∀ (text : List Char) {ch : Char}, ch ∈ z32Alphabet →
      ∃ v < 32, ch = z32Char v ∧ z32Bits (ch :: text) = bitsOf 5 v ++ z32Bits text := by
    intro text ch hch
    obtain ⟨v, hlt, hindex⟩ := z32Index_of_mem hch
    obtain ⟨-, rfl⟩ := z32Index_eq_some hindex
    exact ⟨v, hlt, rfl, z32Bits_z32Char text hlt⟩
  induction a generalizing b with
  | nil =>
    cases b with
    | nil => rfl
    | cons ch b =>
      obtain ⟨v, -, -, hbits⟩ := hcons b (hb ch mem_cons_self)
      rw [hbits] at h
      cases h
  | cons ch a ih =>
    obtain ⟨v, hv, hch, hbits⟩ := hcons a (ha ch mem_cons_self)
    cases b with
    | nil =>
      rw [hbits] at h
      cases h
    | cons ch' b =>
      obtain ⟨v', hv', hch', hbits'⟩ := hcons b (hb ch' mem_cons_self)
      rw [hbits, hbits'] at h
      obtain ⟨hhead, htail⟩ := List.append_inj h (by rw [length_bitsOf, length_bitsOf])
      rw [hch, hch', bitsOf_inj hv hv' hhead,
        ih (fun c hc => ha c (mem_cons_of_mem _ hc))
          (fun c hc => hb c (mem_cons_of_mem _ hc)) htail]

theorem hexToZ32Loop_mem {bytes : List Nat} {value bits : Nat} :
    ∀ ch ∈ hexToZ32Loop bytes value bits, ch ∈ z32Alphabet := by
  have hdrain : ∀ value bits, ∀ ch ∈ (drainDigits value bits).1, ch ∈ z32Alphabet := by
    intro value bits
    fun_induction drainDigits value bits with
    | case1 value bits out left heq ih =>
      rw [heq] at ih
      exact forall_mem_cons.mpr ⟨z32Char_mem _, ih⟩
    | case2 value bits _ => exact nofun
  induction bytes generalizing value bits with
  | nil =>
    rw [hexToZ32Loop]
    split
    · exact forall_mem_singleton.mpr (z32Char_mem _)
    · exact nofun
  | cons b bytes ih =>
    rw [hexToZ32Loop]
    exact forall_mem_append.mpr ⟨hdrain (value <<< 8 ||| b) (bits + 8), ih⟩

theorem length_z32Bits (text : List Char) : (z32Bits text).length = 5 * text.length := by
  induction text with
  | nil => rfl
  | cons ch text ih =>
    rw [z32Bits, flatMap_cons, length_append, length_bitsOf]
    show 5 + (z32Bits text).length = 5 * (text.length + 1)
    omega

/-- **The hexadecimal form is written as the key is printed.** -/
theorem hexToZ32_hexForm : hexToZ32 (hexForm key) = toZ32 key := by
  rw [hexToZ32, hexForm, bufferFromHex_hexText (keyBytes_lt key)]
  obtain ⟨pad, hpad, hbits⟩ := z32Bits_hexToZ32Loop (keyBytes_lt key) 0 0 (by decide)
  have hlength := congrArg List.length hbits
  rw [length_z32Bits, length_append, length_append, length_byteBits, length_keyBytes,
    length_replicate, length_bitsOf] at hlength
  have hfour : pad = 4 := by omega
  refine z32Bits_inj hexToZ32Loop_mem (toZ32_mem key) ?_
  rw [hbits, z32Bits_toZ32, hfour]
  rfl

theorem z32ToHex_toZ32 : z32ToHex (toZ32 key) = .ok (hexForm key) := by
  have hindices : ∀ text : List Char, (∀ ch ∈ text, ch ∈ z32Alphabet) →
      (text.mapM fun ch => okOr (z32Index ch) ch)
        = Except.ok (text.map fun ch => (z32Index ch).getD 0) := by
    intro text htext
    induction text with
    | nil => rfl
    | cons ch text ih =>
      obtain ⟨hch, hrest⟩ := forall_mem_cons.mp htext
      obtain ⟨v, -, hindex⟩ := z32Index_of_mem hch
      rw [mapM_cons, ih hrest, hindex, map_cons, hindex]
      rfl
  rw [z32ToHex, hindices _ (toZ32_mem key)]
  show Except.ok (hexText _) = _
  rw [z32Bytes_toZ32, hexForm]

end

/-! ## Both spellings -/

inductive Spelling where
  | hex
  | z32
  deriving DecidableEq

def Spelling.spell : Spelling → BytesN 32 → List Char
  | .hex => hexForm
  | .z32 => toZ32

/-- **Either spelling of a key is normalised to its hexadecimal form.** -/
theorem normalizePeerId_spell (e : Spelling) (key : BytesN 32) :
    normalizePeerId (e.spell key) = hexForm key := by
  cases e with
  | hex => rw [normalizePeerId, Spelling.spell, if_pos (isHex64_hexForm key)]
  | z32 =>
    rw [normalizePeerId, Spelling.spell, isHex64_toZ32, if_neg Bool.false_ne_true,
      if_pos (isZ32Text_toZ32 key), z32Bytes_toZ32, hexForm]

theorem spell_injective {e : Spelling} {key key' : BytesN 32}
    (h : e.spell key = e.spell key') : key = key' := by
  refine hexForm_injective ?_
  rw [← normalizePeerId_spell e key, h, normalizePeerId_spell]

theorem spell_ne {e e' : Spelling} (h : e ≠ e') (key key' : BytesN 32) :
    e.spell key ≠ e'.spell key' := by
  intro heq
  have hlen := congrArg List.length heq
  cases e <;> cases e' <;> simp [Spelling.spell, length_hexForm, length_toZ32] at h hlen

end Dweb
