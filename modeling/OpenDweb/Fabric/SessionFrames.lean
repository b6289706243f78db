import OpenDweb.Fabric.Invites

/-!
# OpenDweb — session frames

Embedding of the frames of `dweb-fabric/src/session.rs`: a length, a type and a payload, and the
refusals that a `REDEEM_ERR` frame carries.

* **`codes_readFrame`** — `read_frame` accepts exactly what `write_frame` writes within its limit.
* **`readFrame_writeFrame`** — what it can make of a frame past that limit.
* **`decodeRecords_encodeRecord`**, **`reduce_encodeRecord`** — a refusal arrives as it was sent.
-/

namespace Dweb

open List

def MAX_FRAME : Nat := 1024 * 1024
def MAX_REDEEM_FRAME : Nat := 32 * 1024
def MAX_HELLO_FACTS : Nat := 10000

namespace FrameType

def HELLO : UInt8 := 0x01
def REDEEM_INTENT : UInt8 := 0x10
def REDEEM_CHALLENGE : UInt8 := 0x11
def REDEEM_PROOF : UInt8 := 0x12
def REDEEM_OK : UInt8 := 0x13
def REDEEM_ERR : UInt8 := 0x14
def REDEEM_OK2 : UInt8 := 0x15

end FrameType

def hexAlternate (b : UInt8) : String := "0x" ++ String.ofList (Nat.toDigits 16 b.toNat)

/-- `SessionError`, the variants that frames raise. -/
inductive SessionError where
  | frameTooLarge (limit : Nat)
  | io
  | protocol (e : ProtocolError)
  | redeemRejected (reason : String)
deriving DecidableEq

/-- The text; that of the transport's own error, which follows `io error`, is left out. -/
def SessionError.display : SessionError → String
  | frameTooLarge limit => s!"frame exceeds limit {limit}B"
  | io => "io error"
  | protocol e => "protocol: " ++ e.display
  | redeemRejected reason => "redeem rejected: " ++ reason

/-! ## Frames -/

/-- `write_frame`: the length of type and payload as an `u32`, the type, the payload. -/
def writeFrame (frameType : UInt8) (payload : Bytes) : Bytes :=
  beBytes 4 (1 + payload.length) ++ ([frameType] ++ payload)

/-- `read_frame`, from a stream that ends. The limit is checked before the payload is read. -/
def readFrame (limit : Nat) : Scan SessionError (UInt8 × Bytes) := do
  let len ← Scan.be 4 .io
  let frameType ← Scan.u8 .io
  Scan.check (len = 0 ∨ limit < 4 + len) (.frameTooLarge limit)
  let payload ← Scan.take (len - 1) .io
  return (frameType, payload)

def FrameFits (limit : Nat) (payload : Bytes) : Prop :=
  5 + payload.length ≤ limit ∧ 1 + payload.length < 256 ^ 4

theorem codes_readFrame (limit : Nat) :
    Scan.Codes (readFrame limit) (fun frame => writeFrame frame.1 frame.2)
      fun frame => FrameFits limit frame.2 := by
  rintro bs ⟨frameType, payload⟩ rest
  simp only [readFrame, Scan.run_bind_eq_ok, Scan.codes_be _ _ _ _ _, Scan.codes_u8 _ _ _ _,
    Scan.run_check_eq_ok, Scan.codes_take _ _ _ _ _, Scan.run_pure_eq_ok, Prod.mk.injEq, true_and,
    id, FrameFits, writeFrame, append_assoc]
  constructor
  · rintro ⟨len, _, ⟨hlt, rfl⟩, _, _, rfl, _, _, ⟨hlimit, rfl⟩, payload, _, ⟨hlen, rfl⟩,
      ⟨rfl, rfl⟩, rfl⟩
    have hpos : 1 + payload.length = len := by omega
    rw [hpos]
    exact ⟨⟨by omega, hlt⟩, rfl⟩
  · rintro ⟨⟨hlimit, hlt⟩, rfl⟩
    exact ⟨_, _, ⟨hlt, rfl⟩, _, _, rfl, (), _, ⟨by omega, rfl⟩, _, _, ⟨by omega, rfl⟩, ⟨rfl, rfl⟩,
      rfl⟩

theorem readFrame_writeFrame {limit : Nat} {frameType frameType' : UInt8}
    {payload payload' rest rest' : Bytes}
    (h : (readFrame limit).run (writeFrame frameType payload ++ rest)
      = .ok ((frameType', payload'), rest')) :
    frameType' = frameType ∧ payload ++ rest = payload' ++ rest' ∧ FrameFits limit payload' := by
  obtain ⟨hfits, heq⟩ := (codes_readFrame limit _ _ _).mp h
  simp only [writeFrame, append_assoc] at heq
  obtain ⟨-, htail⟩ := (append_inj_of_length (by simp)).mp heq
  obtain ⟨htype, hpayload⟩ := singleton_append_inj.mp htail
  exact ⟨htype.symm, hpayload, hfits⟩

theorem run_readFrame {limit : Nat} (frameType : UInt8) {payload : Bytes}
    (h : FrameFits limit payload) :
    (readFrame limit).run (writeFrame frameType payload) = .ok ((frameType, payload), []) :=
  (codes_readFrame limit _ (frameType, payload) []).mpr ⟨h, (append_nil _).symm⟩

/-! ## Refusals -/

namespace RedeemErr

def CONSUMED : UInt8 := 0x00
def NOT_ROOT : UInt8 := 0x01
def BAD_POP : UInt8 := 0x02
def OTHER : UInt8 := 0x03

end RedeemErr

inductive RedeemErrorKind where
  | consumed
  | notRoot
  | badPoP
  | other (reason : String)
deriving DecidableEq

namespace RedeemErrorKind

def kindByte : RedeemErrorKind → UInt8
  | consumed => RedeemErr.CONSUMED
  | notRoot => RedeemErr.NOT_ROOT
  | badPoP => RedeemErr.BAD_POP
  | other _ => RedeemErr.OTHER

/-- `normalize_payload`: printable ASCII, at most 255 bytes of it. -/
def normalizePayload (reason : String) : Bytes :=
  ((utf8Bytes reason).filter fun b => 0x20 ≤ b && b ≤ 0x7E).take 255

def payload : RedeemErrorKind → Bytes
  | other reason => normalizePayload reason
  | _ => []

/-- `encode_record`. -/
def encodeRecord (kind : RedeemErrorKind) : Bytes :=
  kind.kindByte :: UInt8.ofNat kind.payload.length :: kind.payload

end RedeemErrorKind

structure RedeemRecord where
  kind : UInt8
  payload : Bytes
deriving DecidableEq

/-- `is_ascii_graphic` or a space. -/
def isPrintable (c : Char) : Bool := ('!' ≤ c && c ≤ '~') || c == ' '

/-- `presented`. -/
def RedeemRecord.presented (record : RedeemRecord) : String :=
  String.ofList ((fromUtf8Lossy record.payload).filter isPrintable)

/-- `RecordShortRead`. -/
structure RecordShortRead where
  pos : Nat
deriving DecidableEq

def RecordShortRead.display (e : RecordShortRead) : String :=
  s!"redeem error record short read at offset {e.pos}"

/-- The loop of `decode_records` at the offset `off`. -/
def decodeRecordsFrom (off : Nat) : Bytes → Except RecordShortRead (List RedeemRecord)
  | [] => .ok []
  | [_] => .error ⟨off⟩
  | kind :: len :: rest =>
    if rest.length < len.toNat then .error ⟨off⟩
    else do
      let records ← decodeRecordsFrom (off + 2 + len.toNat) (rest.drop len.toNat)
      return ⟨kind, rest.take len.toNat⟩ :: records
termination_by bytes => bytes.length
decreasing_by
  simp only [length_drop, length_cons]
  omega

def decodeRecords (payload : Bytes) : Except RecordShortRead (List RedeemRecord) :=
  decodeRecordsFrom 0 payload

/-- `RedeemRejection`. -/
inductive RedeemRejection where
  | consumed
  | invalid (reason : String)
deriving DecidableEq

/-- `reduce`: one record stands for itself, and more are a failure. -/
def reduce : List RedeemRecord → RedeemRejection
  | [r] =>
    let rejectionReason (fallback : String) : String :=
      if r.presented.isEmpty then fallback else r.presented
    if r.kind = RedeemErr.CONSUMED then .consumed
    else if r.kind = RedeemErr.NOT_ROOT then .invalid (rejectionReason "not root")
    else if r.kind = RedeemErr.BAD_POP then .invalid (rejectionReason "bad proof-of-possession")
    else if r.kind = RedeemErr.OTHER then .invalid (rejectionReason "other")
    else .invalid ("unknown-kind 0x" ++ hexByte r.kind)
  | records => .invalid s!"multiple redeem error records ({records.length}) fail-closed"

theorem RedeemErrorKind.length_payload (kind : RedeemErrorKind) : kind.payload.length ≤ 255 := by
  cases kind with
  | other reason => exact length_take_le 255 _
  | _ => exact Nat.zero_le 255

/-- **A refusal is read back.** -/
theorem decodeRecords_encodeRecord (kind : RedeemErrorKind) :
    decodeRecords kind.encodeRecord = .ok [⟨kind.kindByte, kind.payload⟩] := by
  have hlen : (UInt8.ofNat kind.payload.length).toNat = kind.payload.length := by
    have hle := kind.length_payload
    rw [UInt8.toNat_ofNat']
    omega
  rw [decodeRecords, RedeemErrorKind.encodeRecord, decodeRecordsFrom, hlen,
    if_neg (Nat.lt_irrefl _), drop_length, decodeRecordsFrom, take_length]
  rfl

/-- **A refusal is taken for what it is**: consumed invites, and only they, are told apart. -/
theorem reduce_encodeRecord (kind : RedeemErrorKind) :
    reduce [⟨kind.kindByte, kind.payload⟩] = .consumed ↔ kind = .consumed := by
  cases kind with
  | consumed => exact iff_of_true rfl rfl
  | notRoot => exact iff_of_false nofun nofun
  | badPoP => exact iff_of_false nofun nofun
  | other reason => exact iff_of_false nofun nofun

end Dweb
