import OpenDweb.Lib.Hex
import OpenDweb.Continuity.Session

/-!
# OpenDweb — frames on the wire

A frame is a header of 48 bytes and a payload. Encoder and decoder each have their own checks.

* **`Frame.encode`**, **`Frame.decode`** — the two, check by check in the source's order.
* **`Frame.Encodable`** — what the encoder accepts; **`WireFormed`** — what the decoder accepts.
* **`frame_codec`** — they are the inverse of each other, and accept what these say.
-/

namespace Dweb

open List Option

/-! ## The header -/

/-- `MAX_FRAME`. -/
def maxFrame : Nat := 1024 * 1024

/-- `HEADER_LEN`. -/
def headerLen : Nat := 48

/-- `MAGIC`, the text `DWS1`. -/
def frameMagic : Bytes := [0x44, 0x57, 0x53, 0x31]

/-- `WIRE_VERSION`. -/
def wireVersion : UInt8 := 1

namespace FrameType

/-- `self as u8`. -/
def toU8 : FrameType → UInt8
  | sessionInit => 0x00
  | resumeInit => 0x01
  | resumeOk => 0x02
  | resumeReject => 0x03
  | ping => 0x04
  | pong => 0x05
  | sessionFin => 0x06
  | sessionReset => 0x07
  | sessionInitOk => 0x0A
  | sessionInitReject => 0x0B
  | open_ => 0x10
  | openOk => 0x11
  | openReject => 0x12
  | data => 0x20
  | ack => 0x21
  | fin => 0x22
  | reset => 0x23

def fromU8 (v : UInt8) : Option FrameType :=
  match v.toNat with
  | 0x00 => some sessionInit
  | 0x01 => some resumeInit
  | 0x02 => some resumeOk
  | 0x03 => some resumeReject
  | 0x04 => some ping
  | 0x05 => some pong
  | 0x06 => some sessionFin
  | 0x07 => some sessionReset
  | 0x0A => some sessionInitOk
  | 0x0B => some sessionInitReject
  | 0x10 => some open_
  | 0x11 => some openOk
  | 0x12 => some openReject
  | 0x20 => some data
  | 0x21 => some ack
  | 0x22 => some fin
  | 0x23 => some reset
  | _ => none

/-- Frames of the session as a whole, whose stream id must be zero. -/
def isControl : FrameType → Bool
  | sessionInit | sessionInitOk | sessionInitReject | resumeInit | resumeOk | resumeReject | ping
  | pong | sessionFin | sessionReset => true
  | open_ | openOk | openReject | data | ack | fin | reset => false

@[simp] theorem fromU8_toU8 (t : FrameType) : fromU8 t.toU8 = some t := by
  cases t <;> rfl

theorem toU8_of_fromU8 {v : UInt8} {t : FrameType} (h : fromU8 v = some t) : t.toU8 = v := by
  apply UInt8.toNat_inj.mp
  unfold fromU8 at h
  split at h
  case h_18 => cases h
  all_goals
    next heq =>
      obtain rfl := some.inj h
      exact heq.symm

end FrameType

namespace Direction

/-- `self as u8`. -/
def toU8 : Direction → UInt8
  | clientToProvider => 0
  | providerToClient => 1

def fromU8 (v : UInt8) : Option Direction :=
  if v = 0 then some clientToProvider
  else if v = 1 then some providerToClient
  else none

@[simp] theorem fromU8_toU8 (d : Direction) : fromU8 d.toU8 = some d := by
  cases d <;> rfl

theorem toU8_of_fromU8 {v : UInt8} {d : Direction} (h : fromU8 v = some d) : d.toU8 = v := by
  unfold fromU8 at h
  split at h
  · next hzero =>
    obtain rfl := some.inj h
    exact hzero.symm
  · split at h
    · next hone =>
      obtain rfl := some.inj h
      exact hone.symm
    · cases h

end Direction

namespace FrameFlags

def ackRequest : Nat := 0x0008
def fin : Nat := 0x0020
def hasSack : Nat := 0x0040

/-- `KNOWN_MASK`. -/
def knownMask : Nat := start ||| end_ ||| reset ||| ackRequest ||| replay ||| fin ||| hasSack

/-- `flags & !KNOWN_MASK` on `u16`. -/
def unknown (flags : Nat) : Nat := flags &&& (0xFFFF ^^^ knownMask)

end FrameFlags

/-! ## Encoding -/

/-- `FrameError`. -/
inductive FrameError where
  | tooShort (len : Nat)
  | badMagic
  | badVersion (version : UInt8)
  | badHeaderLen (len : Nat)
  | badReserved
  | unknownFrameType (raw : UInt8)
  | unknownFlags (bits : Nat)
  | payloadTooLarge (len max : Nat)
  | lengthMismatch (declared available : Nat)
  | controlWithStreamId (streamId : Nat)
  | businessWithZeroStreamId
  | badDirection (raw : UInt8)
  deriving DecidableEq

def FrameError.toString : FrameError → String
  | tooShort len => s!"frame too short for header: {len}B"
  | badMagic => "bad magic"
  | badVersion version => s!"unsupported wire version: {version}"
  | badHeaderLen len => s!"header_len must be 48, got {len}"
  | badReserved => "reserved must be zero"
  | unknownFrameType raw => s!"unknown frame type: 0x{hexByte raw}"
  | unknownFlags bits => s!"unknown flag bits: 0x{hexStr (beBytes 2 bits)}"
  | payloadTooLarge len max => s!"payload exceeds MAX_FRAME: {len} > {max}"
  | lengthMismatch declared available =>
    s!"declared length {declared} != available {available}"
  | controlWithStreamId streamId => s!"control frame with nonzero stream_id: {streamId}"
  | businessWithZeroStreamId => "business frame with zero stream_id"
  | badDirection raw => s!"invalid direction byte: {raw}"

namespace Frame

def header (f : Frame) : Bytes :=
  frameMagic ++ ([wireVersion] ++ ([f.frameType.toU8] ++ (beBytes 2 f.flags
    ++ (f.sessionId.toBytes ++ (beBytes 8 f.streamId ++ ([f.direction.toU8] ++ ([0]
      ++ (beBytes 2 headerLen ++ (beBytes 8 f.byteOffset ++ beBytes 4 f.payload.length)))))))))

/-- What `encode` puts into its buffer. -/
def encode (f : Frame) : Except FrameError Bytes :=
  if maxFrame < f.payload.length then .error (.payloadTooLarge f.payload.length maxFrame)
  else if f.frameType.isControl ∧ f.streamId ≠ 0 then .error (.controlWithStreamId f.streamId)
  else if ¬f.frameType.isControl ∧ f.streamId = 0 then .error .businessWithZeroStreamId
  else if FrameFlags.unknown f.flags ≠ 0 then .error (.unknownFlags (FrameFlags.unknown f.flags))
  else .ok (f.header ++ f.payload)

/-- One frame from the beginning of `src`, and how much of `src` it took. -/
def decode (src : Bytes) : Except FrameError (Frame × Nat) :=
  if src.length < headerLen then .error (.tooShort src.length)
  else if slice src 0 4 ≠ frameMagic then .error .badMagic
  else if src.getD 4 0 ≠ wireVersion then .error (.badVersion (src.getD 4 0))
  else
    match FrameType.fromU8 (src.getD 5 0) with
    | none => .error (.unknownFrameType (src.getD 5 0))
    | some frameType =>
      let flags := beNat (slice src 6 8)
      if FrameFlags.unknown flags ≠ 0 then .error (.unknownFlags (FrameFlags.unknown flags))
      else
        let sessionId := arrayAt src 8 16
        let streamId := beNat (slice src 24 32)
        match Direction.fromU8 (src.getD 32 0) with
        | none => .error (.badDirection (src.getD 32 0))
        | some direction =>
          if src.getD 33 0 ≠ 0 then .error .badReserved
          else if beNat (slice src 34 36) ≠ headerLen then
            .error (.badHeaderLen (beNat (slice src 34 36)))
          else
            let byteOffset := beNat (slice src 36 44)
            let payloadLen := beNat (slice src 44 48)
            if maxFrame < payloadLen then .error (.payloadTooLarge payloadLen maxFrame)
            else if frameType.isControl ∧ streamId ≠ 0 then
              .error (.controlWithStreamId streamId)
            else if ¬frameType.isControl ∧ streamId = 0 then .error .businessWithZeroStreamId
            else
              let rest := src.drop headerLen
              if rest.length < payloadLen then .error (.lengthMismatch payloadLen rest.length)
              else
                .ok ({ frameType, flags, sessionId, streamId, direction, byteOffset,
                       payload := rest.take payloadLen }, headerLen + payloadLen)

structure Typed (f : Frame) : Prop where
  flags : f.flags < 2 ^ 16
  streamId : f.streamId < 2 ^ 64
  byteOffset : f.byteOffset < 2 ^ 64

structure Encodable (f : Frame) : Prop where
  payload : f.payload.length ≤ maxFrame
  streamId : f.frameType.isControl = true ↔ f.streamId = 0
  flags : FrameFlags.unknown f.flags = 0

theorem encode_eq_ok {f : Frame} {bs : Bytes} :
    f.encode = .ok bs ↔ f.Encodable ∧ f.header ++ f.payload = bs := by
  constructor
  · intro h
    unfold encode at h
    split at h
    · cases h
    · next hpayload =>
      split at h
      · cases h
      · next hcontrol =>
        split at h
        · cases h
        · next hbusiness =>
          split at h
          · cases h
          · next hflags =>
            refine ⟨⟨Nat.not_lt.mp hpayload, ⟨fun hc => ?_, fun hz => ?_⟩, not_not.mp hflags⟩,
              Except.ok.inj h⟩
            · exact not_not.mp fun hne => hcontrol ⟨hc, hne⟩
            · exact not_not.mp fun hne => hbusiness ⟨hne, hz⟩
  · rintro ⟨⟨hpayload, hstream, hflags⟩, rfl⟩
    have hcontrol : ¬(f.frameType.isControl = true ∧ f.streamId ≠ 0) :=
      fun h => h.2 (hstream.mp h.1)
    have hbusiness : ¬(¬f.frameType.isControl = true ∧ f.streamId = 0) :=
      fun h => h.1 (hstream.mpr h.2)
    rw [encode, if_neg (Nat.not_lt.mpr hpayload), if_neg hcontrol, if_neg hbusiness,
      if_neg (not_not.mpr hflags)]

end Frame

/-- What the decoder accepts: the grammar of one frame at the beginning of `src`. -/
structure WireFormed (src : Bytes) : Prop where
  header : 48 ≤ src.length
  magic : slice src 0 4 = [0x44, 0x57, 0x53, 0x31]
  version : src.getD 4 0 = 1
  frameType : ∃ t, FrameType.fromU8 (src.getD 5 0) = some t
    ∧ (t.isControl = true ↔ beNat (slice src 24 32) = 0)
  flags : FrameFlags.unknown (beNat (slice src 6 8)) = 0
  direction : src.getD 32 0 = 0 ∨ src.getD 32 0 = 1
  reserved : src.getD 33 0 = 0
  lengthField : beNat (slice src 34 36) = 48
  payload : beNat (slice src 44 48) ≤ 1024 * 1024
  present : 48 + beNat (slice src 44 48) ≤ src.length

/-- The frame that stands at the beginning of `src`, its type and direction read. -/
def frameAt (src : Bytes) (frameType : FrameType) (direction : Direction) : Frame where
  frameType := frameType
  flags := beNat (slice src 6 8)
  sessionId := arrayAt src 8 16
  streamId := beNat (slice src 24 32)
  direction := direction
  byteOffset := beNat (slice src 36 44)
  payload := slice src 48 (48 + beNat (slice src 44 48))

theorem payload_eq (src : Bytes) (n : Nat) :
    slice src 48 (48 + n) = (src.drop headerLen).take n := by
  unfold slice
  rw [Nat.add_sub_cancel_left]
  rfl

theorem Direction.fromU8_eq_some {v : UInt8} :
    (∃ d, Direction.fromU8 v = some d) ↔ v = 0 ∨ v = 1 := by
  unfold Direction.fromU8
  by_cases hzero : v = 0
  · simp [hzero]
  · by_cases hone : v = 1 <;> simp [hzero, hone]

variable {src : Bytes}

/-- **What decoding does.** -/
theorem decode_eq_ok {f : Frame} {n : Nat} :
    Frame.decode src = .ok (f, n)
      ↔ WireFormed src ∧ n = 48 + beNat (slice src 44 48)
        ∧ ∃ t d, FrameType.fromU8 (src.getD 5 0) = some t
          ∧ Direction.fromU8 (src.getD 32 0) = some d ∧ f = frameAt src t d := by
  constructor
  · intro h
    unfold Frame.decode at h
    split at h
    · cases h
    next hlen =>
    split at h
    · cases h
    next hmagic =>
    split at h
    · cases h
    next hversion =>
    split at h
    · cases h
    next t htype =>
    dsimp only at h
    split at h
    · cases h
    next hflags =>
    split at h
    · cases h
    next d hdir =>
    split at h
    · cases h
    next hreserved =>
    split at h
    · cases h
    next hheader =>
    split at h
    · cases h
    next hpayload =>
    split at h
    · cases h
    next hcontrol =>
    split at h
    · cases h
    next hbusiness =>
    split at h
    · cases h
    next hpresent =>
    obtain ⟨hf, hn⟩ := Prod.mk.inj (Except.ok.inj h)
    have hlen : 48 ≤ src.length := Nat.not_lt.mp hlen
    have hrest : (src.drop headerLen).length = src.length - 48 := length_drop
    refine ⟨⟨hlen, not_not.mp hmagic, not_not.mp hversion, ⟨t, htype, fun hc => ?_, fun hz => ?_⟩,
      not_not.mp hflags, Direction.fromU8_eq_some.mp ⟨d, hdir⟩, not_not.mp hreserved,
      not_not.mp hheader, Nat.not_lt.mp hpayload, by omega⟩, hn.symm, t, d, htype, hdir, ?_⟩
    · exact not_not.mp fun hne => hcontrol ⟨hc, hne⟩
    · exact not_not.mp fun hne => hbusiness ⟨hne, hz⟩
    · rw [← hf, frameAt, payload_eq]
  · rintro ⟨h, rfl, t, d, htype, hdir, rfl⟩
    obtain ⟨t', htype', hstream⟩ := h.frameType
    obtain rfl := some.inj (htype.symm.trans htype')
    have hcontrol : ¬(t.isControl = true ∧ beNat (slice src 24 32) ≠ 0) :=
      fun hc => hc.2 (hstream.mp hc.1)
    have hbusiness : ¬(¬t.isControl = true ∧ beNat (slice src 24 32) = 0) :=
      fun hc => hc.1 (hstream.mpr hc.2)
    have hpresent := h.present
    have hrest : (src.drop headerLen).length = src.length - 48 := length_drop
    have hlen : ¬src.length < headerLen := Nat.not_lt.mpr h.header
    have hmagic : ¬slice src 0 4 ≠ frameMagic := not_not.mpr h.magic
    have hversion : ¬src.getD 4 0 ≠ wireVersion := not_not.mpr h.version
    have hheader : ¬beNat (slice src 34 36) ≠ headerLen := not_not.mpr h.lengthField
    have hpayload : ¬maxFrame < beNat (slice src 44 48) := Nat.not_lt.mpr h.payload
    unfold Frame.decode
    rw [if_neg hlen, if_neg hmagic, if_neg hversion, htype]
    dsimp only
    rw [if_neg (not_not.mpr h.flags), hdir]
    dsimp only
    rw [if_neg (not_not.mpr h.reserved), if_neg hheader, if_neg hpayload, if_neg hcontrol,
      if_neg hbusiness, if_neg (by omega), frameAt, payload_eq]
    rfl

/-! ## Back and forth -/

theorem beBytes_beNat_slice {a b w : Nat} (hw : b - a = w) (hb : b ≤ src.length) :
    beBytes w (beNat (slice src a b)) = slice src a b := by
  have hlen : (slice src a b).length = w := (length_slice hb).trans hw
  have hback := beBytes_beNat (slice src a b)
  rwa [hlen] at hback

theorem beNat_slice_lt {a b w : Nat} (hw : b - a = w) (hb : b ≤ src.length) :
    beNat (slice src a b) < 256 ^ w := by
  have hlt := beNat_lt (slice src a b)
  rwa [(length_slice hb).trans hw] at hlt

theorem WireFormed.header_frameAt (h : WireFormed src) {t : FrameType} {d : Direction}
    (htype : FrameType.fromU8 (src.getD 5 0) = some t)
    (hdir : Direction.fromU8 (src.getD 32 0) = some d) :
    (frameAt src t d).header = slice src 0 48 := by
  have hlen := h.header
  have hpresent := h.present
  have hpayload : (frameAt src t d).payload.length = beNat (slice src 44 48) := by
    rw [frameAt, length_slice hpresent]
    omega
  have hheader : beBytes 2 headerLen = slice src 34 36 := by
    rw [← beBytes_beNat_slice (w := 2) rfl (by omega), h.lengthField]
    rfl
  have hmagic : frameMagic = slice src 0 4 := h.magic.symm
  have hversion : [wireVersion] = slice src 4 5 := by
    rw [slice_succ (by omega), h.version]
    rfl
  have htypeByte : [t.toU8] = slice src 5 6 := by
    rw [FrameType.toU8_of_fromU8 htype, slice_succ (by omega)]
  have hflags : beBytes 2 (beNat (slice src 6 8)) = slice src 6 8 :=
    beBytes_beNat_slice rfl (by omega)
  have hsession : (arrayAt src 8 16).toBytes = slice src 8 24 := toBytes_arrayAt (by omega)
  have hstream : beBytes 8 (beNat (slice src 24 32)) = slice src 24 32 :=
    beBytes_beNat_slice rfl (by omega)
  have hdirByte : [d.toU8] = slice src 32 33 := by
    rw [Direction.toU8_of_fromU8 hdir, slice_succ (by omega)]
  have hreserved : ([0] : Bytes) = slice src 33 34 := by rw [slice_succ (by omega), h.reserved]
  have hoffset : beBytes 8 (beNat (slice src 36 44)) = slice src 36 44 :=
    beBytes_beNat_slice rfl (by omega)
  have hlength : beBytes 4 (beNat (slice src 44 48)) = slice src 44 48 :=
    beBytes_beNat_slice rfl (by omega)
  unfold Frame.header
  rw [hpayload, hheader]
  dsimp only [frameAt]
  rw [hmagic, hversion, htypeByte, hflags, hsession, hstream, hdirByte, hreserved, hoffset, hlength,
    slice_append_slice (by omega) (by omega), slice_append_slice (by omega) (by omega),
    slice_append_slice (by omega) (by omega), slice_append_slice (by omega) (by omega),
    slice_append_slice (by omega) (by omega), slice_append_slice (by omega) (by omega),
    slice_append_slice (by omega) (by omega), slice_append_slice (by omega) (by omega),
    slice_append_slice (by omega) (by omega), slice_append_slice (by omega) (by omega)]

theorem WireFormed.typed (h : WireFormed src) (t : FrameType) (d : Direction) :
    (frameAt src t d).Typed := by
  have hlen := h.header
  refine ⟨?_, ?_, ?_⟩
  · exact beNat_slice_lt (w := 2) rfl (by omega)
  · exact beNat_slice_lt (w := 8) rfl (by omega)
  · exact beNat_slice_lt (w := 8) rfl (by omega)

namespace Frame

theorem length_header (f : Frame) : f.header.length = 48 := by
  simp [header, frameMagic]

variable {f : Frame}

/-- **Decoding, then encoding** gives what was taken. -/
theorem encode_of_decode {src : Bytes} {n : Nat} (h : decode src = .ok (f, n)) :
    f.encode = .ok (src.take n) ∧ f.Typed := by
  obtain ⟨hformed, rfl, t, d, htype, hdir, rfl⟩ := decode_eq_ok.mp h
  have hheader := hformed.header_frameAt htype hdir
  have hlen := hformed.header
  have hpresent := hformed.present
  have hpayload : (frameAt src t d).payload.length = beNat (slice src 44 48) := by
    rw [frameAt, length_slice hpresent]
    omega
  obtain ⟨t', htype', hstream⟩ := hformed.frameType
  obtain rfl := some.inj (htype.symm.trans htype')
  refine ⟨encode_eq_ok.mpr ⟨⟨?_, hstream, hformed.flags⟩, ?_⟩, hformed.typed t d⟩
  · rw [hpayload]
    exact hformed.payload
  · rw [hheader, frameAt, slice_append_slice (Nat.zero_le _) (by omega)]
    rfl

/-- The fields of a header, where the decoder looks for them. -/
structure FieldsAt (f : Frame) (src : Bytes) : Prop where
  magic : slice src 0 4 = frameMagic
  version : slice src 4 5 = [wireVersion]
  frameType : slice src 5 6 = [f.frameType.toU8]
  flags : slice src 6 8 = beBytes 2 f.flags
  sessionId : slice src 8 24 = f.sessionId.toBytes
  streamId : slice src 24 32 = beBytes 8 f.streamId
  direction : slice src 32 33 = [f.direction.toU8]
  reserved : slice src 33 34 = [0]
  lengthField : slice src 34 36 = beBytes 2 headerLen
  byteOffset : slice src 36 44 = beBytes 8 f.byteOffset
  payloadLen : slice src 44 48 = beBytes 4 f.payload.length

theorem fieldsAt_header (f : Frame) (rest : Bytes) : FieldsAt f (f.header ++ rest) := by
  have hlen : 48 ≤ (f.header ++ rest).length := by
    rw [length_append, length_header]
    omega
  have hsplit : slice (f.header ++ rest) 0 48 = f.header := slice_append_self f.length_header
  generalize f.header ++ rest = src at hlen hsplit
  rw [← slice_append_slice (b := 4) (by omega) (by omega),
    ← slice_append_slice (a := 4) (b := 5) (by omega) (by omega),
    ← slice_append_slice (a := 5) (b := 6) (by omega) (by omega),
    ← slice_append_slice (a := 6) (b := 8) (by omega) (by omega),
    ← slice_append_slice (a := 8) (b := 24) (by omega) (by omega),
    ← slice_append_slice (a := 24) (b := 32) (by omega) (by omega),
    ← slice_append_slice (a := 32) (b := 33) (by omega) (by omega),
    ← slice_append_slice (a := 33) (b := 34) (by omega) (by omega),
    ← slice_append_slice (a := 34) (b := 36) (by omega) (by omega),
    ← slice_append_slice (a := 36) (b := 44) (by omega) (by omega)] at hsplit
  have hwidth : ∀ {a b : Nat} {field : Bytes}, b ≤ 48 → field.length = b - a →
      (slice src a b).length = field.length := fun hb hfield =>
    (length_slice (Nat.le_trans hb hlen)).trans hfield.symm
  obtain ⟨hmagic, hsplit⟩ := List.append_inj hsplit (hwidth (by omega) rfl)
  obtain ⟨hversion, hsplit⟩ := List.append_inj hsplit (hwidth (by omega) rfl)
  obtain ⟨htype, hsplit⟩ := List.append_inj hsplit (hwidth (by omega) rfl)
  obtain ⟨hflags, hsplit⟩ := List.append_inj hsplit (hwidth (by omega) (length_beBytes 2 _))
  obtain ⟨hsession, hsplit⟩ :=
    List.append_inj hsplit (hwidth (by omega) f.sessionId.length_toBytes)
  obtain ⟨hstream, hsplit⟩ := List.append_inj hsplit (hwidth (by omega) (length_beBytes 8 _))
  obtain ⟨hdir, hsplit⟩ := List.append_inj hsplit (hwidth (by omega) rfl)
  obtain ⟨hreserved, hsplit⟩ := List.append_inj hsplit (hwidth (by omega) rfl)
  obtain ⟨hheader, hsplit⟩ := List.append_inj hsplit (hwidth (by omega) (length_beBytes 2 _))
  obtain ⟨hoffset, hlength⟩ := List.append_inj hsplit (hwidth (by omega) (length_beBytes 8 _))
  exact ⟨hmagic, hversion, htype, hflags, hsession, hstream, hdir, hreserved, hheader, hoffset,
    hlength⟩

theorem getD_of_slice {src : Bytes} {i : Nat} {v : UInt8} (h : slice src i (i + 1) = [v]) :
    src.getD i 0 = v := by
  by_cases hi : i < src.length
  · rw [slice_succ hi] at h
    exact (List.cons.inj h).1
  · rw [slice, drop_eq_nil_of_le (Nat.not_lt.mp hi), take_nil] at h
    cases h

theorem wireFormed_header (hf : f.Typed) (h : f.Encodable) (suffix : Bytes) :
    WireFormed (f.header ++ (f.payload ++ suffix))
      ∧ frameAt (f.header ++ (f.payload ++ suffix)) f.frameType f.direction = f
      ∧ beNat (slice (f.header ++ (f.payload ++ suffix)) 44 48) = f.payload.length := by
  have hfields := fieldsAt_header f (f.payload ++ suffix)
  have hlen : (f.header ++ (f.payload ++ suffix)).length
      = 48 + (f.payload.length + suffix.length) := by
    simp [length_header]
  have hrest : (f.header ++ (f.payload ++ suffix)).drop headerLen = f.payload ++ suffix :=
    drop_left' f.length_header
  have hmax := h.payload
  generalize f.header ++ (f.payload ++ suffix) = src at hfields hlen hrest ⊢
  have htype : src.getD 5 0 = f.frameType.toU8 := getD_of_slice hfields.frameType
  have hdir : src.getD 32 0 = f.direction.toU8 := getD_of_slice hfields.direction
  have hflags : beNat (slice src 6 8) = f.flags := by
    rw [hfields.flags, beNat_beBytes_of_lt hf.flags]
  have hstream : beNat (slice src 24 32) = f.streamId := by
    rw [hfields.streamId, beNat_beBytes_of_lt hf.streamId]
  have hoffset : beNat (slice src 36 44) = f.byteOffset := by
    rw [hfields.byteOffset, beNat_beBytes_of_lt hf.byteOffset]
  have hfits : f.payload.length < 256 ^ 4 := Nat.lt_of_le_of_lt hmax (by decide)
  have hpayload : beNat (slice src 44 48) = f.payload.length := by
    rw [hfields.payloadLen, beNat_beBytes_of_lt hfits]
  refine ⟨⟨by omega, hfields.magic, getD_of_slice hfields.version,
    ⟨f.frameType, by rw [htype, FrameType.fromU8_toU8], hstream ▸ h.streamId⟩, hflags ▸ h.flags,
    ?_, getD_of_slice hfields.reserved, ?_, hpayload ▸ hmax, by omega⟩, ?_, hpayload⟩
  · exact Direction.fromU8_eq_some.mp ⟨f.direction, by rw [hdir, Direction.fromU8_toU8]⟩
  · rw [hfields.lengthField, beNat_beBytes_of_lt (by decide)]
    rfl
  · rw [frameAt, hflags, hstream, hoffset, arrayAt_eq hfields.sessionId, payload_eq, hpayload,
      hrest, take_left]

/-- **Encoding, then decoding** gives the frame, whatever follows it. -/
theorem decode_of_encode {bs : Bytes} (hf : f.Typed) (h : f.encode = .ok bs) (suffix : Bytes) :
    decode (bs ++ suffix) = .ok (f, bs.length) := by
  obtain ⟨hencodable, rfl⟩ := encode_eq_ok.mp h
  obtain ⟨hformed, hframe, hpayload⟩ := wireFormed_header hf hencodable suffix
  rw [append_assoc]
  refine decode_eq_ok.mpr ⟨hformed, ?_, f.frameType, f.direction, ?_, ?_, hframe.symm⟩
  · rw [hpayload, length_append, length_header]
  · rw [getD_of_slice (fieldsAt_header f _).frameType, FrameType.fromU8_toU8]
  · rw [getD_of_slice (fieldsAt_header f _).direction, Direction.fromU8_toU8]

end Frame

/-- **The wire codec.** An encoded frame, with anything behind it, is decoded to the frame and
its length; the prefix a decoded frame was read from is its encoding; and the decoder accepts
exactly the byte strings that are well formed. -/
theorem frame_codec :
    (∀ (f : Frame) (bs suffix : Bytes), f.Typed → f.encode = .ok bs →
      Frame.decode (bs ++ suffix) = .ok (f, bs.length))
    ∧ (∀ (src : Bytes) (f : Frame) (n : Nat), Frame.decode src = .ok (f, n) →
      n ≤ src.length ∧ f.encode = .ok (src.take n))
    ∧ ∀ src : Bytes, (∃ f n, Frame.decode src = .ok (f, n)) ↔ WireFormed src := by
  refine ⟨fun f bs suffix hf h => Frame.decode_of_encode hf h suffix, fun src f n h => ⟨?_, ?_⟩,
    fun src => ⟨?_, fun h => ?_⟩⟩
  · obtain ⟨hformed, rfl, -⟩ := decode_eq_ok.mp h
    exact hformed.present
  · exact (Frame.encode_of_decode h).1
  · rintro ⟨f, n, h⟩
    exact (decode_eq_ok.mp h).1
  · obtain ⟨t, htype, -⟩ := h.frameType
    obtain ⟨d, hdir⟩ := Direction.fromU8_eq_some.mpr h.direction
    exact ⟨_, _, decode_eq_ok.mpr ⟨h, rfl, t, d, htype, hdir, rfl⟩⟩

namespace SampleFrame

def dataFrame : Frame where
  frameType := .data
  flags := FrameFlags.start
  sessionId := .ofNat 16 7
  streamId := 1
  direction := .clientToProvider
  byteOffset := 0
  payload := [97]

theorem dataFrame_read_back :
    Frame.decode (dataFrame.header ++ dataFrame.payload ++ [1, 2]) = .ok (dataFrame, 49)
      ∧ WireFormed (dataFrame.header ++ dataFrame.payload ++ [1, 2]) := by
  have hencode : dataFrame.encode = .ok (dataFrame.header ++ dataFrame.payload) :=
    Frame.encode_eq_ok.mpr ⟨⟨by decide, by decide, by decide⟩, rfl⟩
  have hdecode := frame_codec.1 dataFrame _ [1, 2] ⟨by decide, by decide, by decide⟩ hencode
  exact ⟨hdecode, (frame_codec.2.2 _).mp ⟨_, _, hdecode⟩⟩

end SampleFrame

end Dweb
