import OpenDweb.Continuity.SessionAccount

/-!
# OpenDweb — what a RESUME carries

A RESUME_INIT and a RESUME_OK end in one summary of 36 bytes for every stream the endpoint has
ever had: streams are never removed, and a frame holds at most `maxFrame` bytes.

* **`encodeResumeInit`**, **`decodeResumeInit`**, **`encodeResumeOkFull`**,
  **`decodeResumeOkFull`** — the two payloads.
* **`Resumable`** — the sessions whose summaries fit, and are read back.
* **`resume_payload_iff`** — in every run, a RESUME is written and read back exactly in those.
-/

namespace Dweb

open Std (ExtTreeMap)
open SessionShared (StreamSummary)
open List Option Std.ExtTreeMap

/-! ## Summaries -/

/-- `PROTOCOL_VERSION`. -/
def protocolVersion : UInt8 := 1

/-- `u64::MAX`, which stands for no final offset. -/
def noFinal : Nat := 2 ^ 64 - 1

/-- `get_u64`. -/
def getU64 (src : Bytes) (i : Nat) : Option Nat :=
  if src.length < i + 8 then none else some (beNat (slice src i (i + 8)))

def encodeSummary (s : StreamSummary) : Bytes :=
  beBytes 8 s.streamId ++ ([0] ++ ([0] ++ ([0, 0] ++ (beBytes 8 s.recvAck ++ (beBytes 8 s.sendNext
    ++ beBytes 8 (s.finalSent.getD noFinal))))))

/-- The loop over the summaries: as many as the count says, from `i` on. The length checks of
both payloads leave every read in bounds. -/
def decodeSummaries (p : Bytes) : Nat → Nat → Option (List StreamSummary)
  | 0, _ => some []
  | count + 1, i =>
    if p.length < i + 36 then none
    else
      (getU64 p i).bind fun streamId =>
        if streamId = 0 ∨ p.getD (i + 10) 0 ≠ 0 ∨ p.getD (i + 11) 0 ≠ 0 then none
        else
          (getU64 p (i + 12)).bind fun recvAck =>
            (getU64 p (i + 20)).bind fun sendNext =>
              (getU64 p (i + 28)).bind fun finalRaw =>
                (decodeSummaries p count (i + 36)).map fun rest =>
                  { streamId, recvAck, sendNext,
                    finalSent := if finalRaw ≠ noFinal then some finalRaw else none } :: rest

/-! ## RESUME_INIT -/

/-- The length of the token and the count of the summaries are written as `u16`. -/
def encodeResumeInit (localConnectionEpoch lastSeenRemoteEpoch : Nat) (nonce : Nonce)
    (token : Token) (summaries : List StreamSummary) : Bytes :=
  [protocolVersion] ++ ([0] ++ (beBytes 2 summaries.length ++ (beBytes 8 localConnectionEpoch
    ++ (beBytes 8 lastSeenRemoteEpoch ++ (nonce.toBytes ++ (beBytes 2 token.toBytes.length
      ++ (token.toBytes ++ summaries.flatMap encodeSummary)))))))

structure ResumeInitParsed where
  localConnectionEpoch : Nat
  lastSeenRemoteEpoch : Nat
  localGeneration : Nat
  lastSeenGeneration : Nat
  nonce : Nonce
  token : Token
  summaries : List StreamSummary
  deriving DecidableEq

def decodeResumeInit (p : Bytes) : Option ResumeInitParsed :=
  if p.length < 38 ∨ p.getD 0 0 ≠ protocolVersion then none
  else if p.getD 1 0 ≠ 0 then none
  else
    let count := beNat (slice p 2 4)
    (getU64 p 4).bind fun localConnectionEpoch =>
      (getU64 p 12).bind fun lastSeenRemoteEpoch =>
        let nonce := arrayAt p 20 16
        let tokenLen := beNat (slice p 36 38)
        -- the count is a `u16`: the checked sum and product do not overflow
        let summariesAt := 54 + count * 36
        if tokenLen ≠ 16 ∨ p.length ≠ summariesAt ∨ localConnectionEpoch = 0 then none
        else
          let token := arrayAt p 38 16
          if token = BytesN.ofNat 16 0 then none
          else
            (decodeSummaries p count 54).map fun summaries =>
              { localConnectionEpoch, lastSeenRemoteEpoch,
                localGeneration := localConnectionEpoch
                lastSeenGeneration := lastSeenRemoteEpoch
                nonce, token, summaries }

/-! ## RESUME_OK -/

def encodeResumeOkFull (sessionId : BytesN 16) (acceptedEpoch peerEpoch newGeneration : Nat)
    (newToken : Token) (replaySummaries : List StreamSummary) (statusFlags : Nat) : Bytes :=
  sessionId.toBytes ++ (beBytes 8 acceptedEpoch ++ (beBytes 8 peerEpoch
    ++ (beBytes 8 newGeneration ++ (newToken.toBytes ++ (beBytes 2 replaySummaries.length
      ++ (beBytes 2 statusFlags ++ replaySummaries.flatMap encodeSummary))))))

structure ResumeOkParsed where
  acceptedSessionId : BytesN 16
  acceptedEpoch : Nat
  peerEpoch : Nat
  newGeneration : Nat
  newResumeToken : Token
  replayStreamCount : Nat
  statusFlags : Nat
  replaySummaries : List StreamSummary
  deriving DecidableEq

def decodeResumeOkFull (p : Bytes) : Option ResumeOkParsed :=
  if p.length < 60 then none
  else
    let acceptedSessionId := arrayAt p 0 16
    if acceptedSessionId = BytesN.ofNat 16 0 then none
    else
      (getU64 p 16).bind fun acceptedEpoch =>
        (getU64 p 24).bind fun peerEpoch =>
          (getU64 p 32).bind fun newGeneration =>
            if acceptedEpoch = 0 ∨ peerEpoch = 0 ∨ newGeneration = 0 then none
            else
              let newResumeToken := arrayAt p 40 16
              if newResumeToken = BytesN.ofNat 16 0 then none
              else
                let replayStreamCount := beNat (slice p 56 58)
                let statusFlags := beNat (slice p 58 60)
                if p.length ≠ 60 + replayStreamCount * 36 then none
                else
                  (decodeSummaries p replayStreamCount 60).map fun replaySummaries =>
                    { acceptedSessionId, acceptedEpoch, peerEpoch, newGeneration, newResumeToken,
                      replayStreamCount, statusFlags, replaySummaries }

/-! ## Reading back -/

structure SummaryTyped (s : StreamSummary) : Prop where
  streamId : s.streamId < 2 ^ 64
  recvAck : s.recvAck < 2 ^ 64
  sendNext : s.sendNext < 2 ^ 64
  finalSent : ∀ final ∈ s.finalSent, final < 2 ^ 64

def readBack (s : StreamSummary) : StreamSummary :=
  { s with finalSent := s.finalSent.filter fun final => final ≠ noFinal }

theorem length_encodeSummary (s : StreamSummary) : (encodeSummary s).length = 36 := by
  simp [encodeSummary]

theorem length_summaries (l : List StreamSummary) :
    (l.flatMap encodeSummary).length = 36 * l.length := by
  induction l with
  | nil => rfl
  | cons s rest ih =>
    rw [flatMap_cons, length_append, length_encodeSummary, ih, length_cons]
    omega

theorem getU64_append {pre post : Bytes} {i v : Nat} (hi : pre.length = i) (hv : v < 2 ^ 64) :
    getU64 (pre ++ (beBytes 8 v ++ post)) i = some v := by
  unfold getU64
  rw [if_neg, slice_append hi (by rw [length_beBytes]), beNat_beBytes_of_lt hv]
  simp only [length_append, length_beBytes]
  omega

/-- Where the fields of the summary behind `pre` stand. -/
structure SummaryAt (p : Bytes) (i : Nat) (s : StreamSummary) : Prop where
  present : i + 36 ≤ p.length
  streamId : getU64 p i = some s.streamId
  reserved : p.getD (i + 10) 0 = 0 ∧ p.getD (i + 11) 0 = 0
  recvAck : getU64 p (i + 12) = some s.recvAck
  sendNext : getU64 p (i + 20) = some s.sendNext
  finalSent : getU64 p (i + 28) = some (s.finalSent.getD noFinal)

theorem summaryAt {s : StreamSummary} (h : SummaryTyped s) (pre post : Bytes) :
    SummaryAt (pre ++ (encodeSummary s ++ post)) pre.length s := by
  have hfinal : s.finalSent.getD noFinal < 2 ^ 64 := by
    cases hs : s.finalSent with
    | none => decide
    | some final => exact h.finalSent final hs
  refine ⟨?_, ?_, ?_, ?_, ?_, ?_⟩
  · simp only [length_append, length_encodeSummary]
    omega
  · unfold encodeSummary
    simp only [append_assoc]
    exact getU64_append rfl h.streamId
  · have hbyte : ∀ k, k = 10 ∨ k = 11 →
        (pre ++ (encodeSummary s ++ post)).getD (pre.length + k) 0 = 0 := by
      intro k hk
      rw [getD_append_right (Nat.le_add_right _ _), Nat.add_sub_cancel_left]
      unfold encodeSummary
      simp only [append_assoc]
      rcases hk with rfl | rfl
      · rw [getD_append_right (by simp)]
        simp
      · rw [getD_append_right (by simp)]
        simp
    exact ⟨hbyte 10 (.inl rfl), hbyte 11 (.inr rfl)⟩
  · have hsplit : pre ++ (encodeSummary s ++ post)
        = (pre ++ (beBytes 8 s.streamId ++ [0, 0, 0, 0]))
          ++ (beBytes 8 s.recvAck ++ (beBytes 8 s.sendNext
            ++ (beBytes 8 (s.finalSent.getD noFinal) ++ post))) := by
      simp [encodeSummary]
    rw [hsplit]
    exact getU64_append (by simp) h.recvAck
  · have hsplit : pre ++ (encodeSummary s ++ post)
        = (pre ++ (beBytes 8 s.streamId ++ ([0, 0, 0, 0] ++ beBytes 8 s.recvAck)))
          ++ (beBytes 8 s.sendNext ++ (beBytes 8 (s.finalSent.getD noFinal) ++ post)) := by
      simp [encodeSummary]
    rw [hsplit]
    exact getU64_append (by simp) h.sendNext
  · have hsplit : pre ++ (encodeSummary s ++ post)
        = (pre ++ (beBytes 8 s.streamId ++ ([0, 0, 0, 0] ++ (beBytes 8 s.recvAck
            ++ beBytes 8 s.sendNext))))
          ++ (beBytes 8 (s.finalSent.getD noFinal) ++ post) := by
      simp [encodeSummary]
    rw [hsplit]
    exact getU64_append (by simp) hfinal

theorem finalSent_readBack (s : StreamSummary) :
    (if s.finalSent.getD noFinal ≠ noFinal then some (s.finalSent.getD noFinal) else none)
      = (readBack s).finalSent := by
  unfold readBack
  cases s.finalSent with
  | none => rfl
  | some final => by_cases h : final = noFinal <;> simp [h, Option.filter]

variable {l : List StreamSummary}

/-- **Summaries are read back**, whatever stands before them. -/
theorem decodeSummaries_append (pre : Bytes) (h : ∀ s ∈ l, SummaryTyped s ∧ s.streamId ≠ 0) :
    decodeSummaries (pre ++ l.flatMap encodeSummary) l.length pre.length
      = some (l.map readBack) := by
  induction l generalizing pre with
  | nil => rfl
  | cons s rest ih =>
    obtain ⟨htyped, hid⟩ := h s mem_cons_self
    have hrest := ih (pre ++ encodeSummary s) fun t ht => h t (mem_cons_of_mem s ht)
    rw [append_assoc, length_append, length_encodeSummary] at hrest
    have hat := summaryAt htyped pre (rest.flatMap encodeSummary)
    have hpresent := hat.present
    rw [flatMap_cons, length_cons, decodeSummaries, if_neg (Nat.not_lt.mpr hpresent),
      hat.streamId, bind_some, hat.reserved.1, hat.reserved.2, if_neg (by simp [hid]),
      hat.recvAck, bind_some, hat.sendNext, bind_some, hat.finalSent,
      bind_some, hrest, finalSent_readBack]
    rfl

theorem decodeSummaries_eq_none (pre : Bytes) (h : ∀ s ∈ l, SummaryTyped s)
    (hzero : ∃ s ∈ l, s.streamId = 0) :
    decodeSummaries (pre ++ l.flatMap encodeSummary) l.length pre.length = none := by
  induction l generalizing pre with
  | nil =>
    obtain ⟨s, hs, -⟩ := hzero
    cases hs
  | cons s rest ih =>
    have hat := summaryAt (h s mem_cons_self) pre (rest.flatMap encodeSummary)
    have hpresent := hat.present
    rw [flatMap_cons, length_cons, decodeSummaries, if_neg (Nat.not_lt.mpr hpresent),
      hat.streamId, bind_some]
    split
    · rfl
    · next hgood =>
      obtain ⟨t, ht, hid⟩ := hzero
      rcases mem_cons.mp ht with rfl | ht
      · exact absurd (.inl hid) hgood
      · have hrest := ih (pre ++ encodeSummary s) (fun t ht => h t (mem_cons_of_mem s ht))
          ⟨t, ht, hid⟩
        rw [append_assoc, length_append, length_encodeSummary] at hrest
        rw [hat.recvAck, bind_some, hat.sendNext, bind_some, hat.finalSent,
          bind_some, hrest]
        rfl

/-! ### The two payloads -/

section Payloads

variable {l : List StreamSummary} {nonce : Nonce} {token : Token} {sessionId : BytesN 16}

def initHeader (localEpoch remoteEpoch : Nat) (nonce : Nonce) (token : Token) (count : Nat) :
    Bytes :=
  [protocolVersion] ++ ([0] ++ (beBytes 2 count ++ (beBytes 8 localEpoch ++ (beBytes 8 remoteEpoch
    ++ (nonce.toBytes ++ (beBytes 2 token.toBytes.length ++ token.toBytes))))))

theorem encodeResumeInit_eq (localEpoch remoteEpoch : Nat) :
    encodeResumeInit localEpoch remoteEpoch nonce token l
      = initHeader localEpoch remoteEpoch nonce token l.length ++ l.flatMap encodeSummary := by
  simp [encodeResumeInit, initHeader]

theorem length_encodeResumeInit (localEpoch remoteEpoch : Nat) :
    (encodeResumeInit localEpoch remoteEpoch nonce token l).length = 54 + 36 * l.length := by
  rw [encodeResumeInit_eq, length_append, length_summaries]
  simp [initHeader]

/-- **What decoding a RESUME_INIT comes to**: its checks on the epoch and the token, and the loop
over the summaries. -/
theorem decodeResumeInit_encode {localEpoch remoteEpoch : Nat} (hcount : l.length < 2 ^ 16)
    (hlocal : localEpoch < 2 ^ 64) (hremote : remoteEpoch < 2 ^ 64) :
    decodeResumeInit (encodeResumeInit localEpoch remoteEpoch nonce token l)
      = if localEpoch = 0 ∨ token = BytesN.ofNat 16 0 then none
        else
          (decodeSummaries (encodeResumeInit localEpoch remoteEpoch nonce token l) l.length 54).map
            fun summaries =>
              { localConnectionEpoch := localEpoch, lastSeenRemoteEpoch := remoteEpoch,
                localGeneration := localEpoch, lastSeenGeneration := remoteEpoch,
                nonce, token, summaries } := by
  have hlen : (encodeResumeInit localEpoch remoteEpoch nonce token l).length
      = 54 + 36 * l.length := length_encodeResumeInit localEpoch remoteEpoch
  have hversion : (encodeResumeInit localEpoch remoteEpoch nonce token l).getD 0 0
      = protocolVersion := rfl
  have hflags : (encodeResumeInit localEpoch remoteEpoch nonce token l).getD 1 0 = 0 := rfl
  have hcountAt : slice (encodeResumeInit localEpoch remoteEpoch nonce token l) 2 4
      = beBytes 2 l.length := by
    unfold encodeResumeInit
    rw [← append_assoc]
    exact slice_append rfl (by simp)
  have hlocalAt : getU64 (encodeResumeInit localEpoch remoteEpoch nonce token l) 4
      = some localEpoch := by
    unfold encodeResumeInit
    rw [← append_assoc, ← append_assoc]
    exact getU64_append (by simp) hlocal
  have hremoteAt : getU64 (encodeResumeInit localEpoch remoteEpoch nonce token l) 12
      = some remoteEpoch := by
    unfold encodeResumeInit
    rw [← append_assoc, ← append_assoc, ← append_assoc]
    exact getU64_append (by simp) hremote
  have hnonceAt : arrayAt (encodeResumeInit localEpoch remoteEpoch nonce token l) 20 16
      = nonce := by
    refine arrayAt_eq ?_
    unfold encodeResumeInit
    rw [← append_assoc, ← append_assoc, ← append_assoc, ← append_assoc]
    exact slice_append (by simp) (by simp)
  have htokenLenAt : slice (encodeResumeInit localEpoch remoteEpoch nonce token l) 36 38
      = beBytes 2 token.toBytes.length := by
    unfold encodeResumeInit
    rw [← append_assoc, ← append_assoc, ← append_assoc, ← append_assoc,
      ← append_assoc]
    exact slice_append (by simp) (by simp)
  have htokenAt : arrayAt (encodeResumeInit localEpoch remoteEpoch nonce token l) 38 16
      = token := by
    refine arrayAt_eq ?_
    unfold encodeResumeInit
    rw [← append_assoc, ← append_assoc, ← append_assoc, ← append_assoc,
      ← append_assoc, ← append_assoc]
    exact slice_append (by simp) (by simp)
  have hcountNat : beNat (beBytes 2 l.length) = l.length := beNat_beBytes_of_lt hcount
  have htokenNat : beNat (beBytes 2 token.toBytes.length) = 16 := by
    rw [token.length_toBytes]
    rfl
  generalize encodeResumeInit localEpoch remoteEpoch nonce token l = p at *
  unfold decodeResumeInit
  rw [if_neg (by rw [hversion]; simp [hlen]; omega), if_neg (not_not.mpr hflags), hlocalAt,
    hremoteAt]
  dsimp only [bind_some]
  rw [hcountAt, htokenLenAt, hcountNat, htokenNat, htokenAt, hnonceAt, hlen]
  by_cases hzero : localEpoch = 0
  · rw [if_pos (by simp [hzero]), if_pos (.inl hzero)]
  · rw [if_neg (by simp [hzero]; omega)]
    by_cases htoken : token = BytesN.ofNat 16 0
    · rw [if_pos htoken, if_pos (.inr htoken)]
    · rw [if_neg htoken, if_neg (by simp [hzero, htoken])]

def okHeader (sessionId : BytesN 16) (acceptedEpoch peerEpoch newGeneration : Nat) (token : Token)
    (count statusFlags : Nat) : Bytes :=
  sessionId.toBytes ++ (beBytes 8 acceptedEpoch ++ (beBytes 8 peerEpoch
    ++ (beBytes 8 newGeneration ++ (token.toBytes ++ (beBytes 2 count
      ++ beBytes 2 statusFlags)))))

theorem encodeResumeOkFull_eq (acceptedEpoch peerEpoch newGeneration statusFlags : Nat) :
    encodeResumeOkFull sessionId acceptedEpoch peerEpoch newGeneration token l statusFlags
      = okHeader sessionId acceptedEpoch peerEpoch newGeneration token l.length statusFlags
        ++ l.flatMap encodeSummary := by
  simp [encodeResumeOkFull, okHeader]

theorem length_okHeader (acceptedEpoch peerEpoch newGeneration count statusFlags : Nat) :
    (okHeader sessionId acceptedEpoch peerEpoch newGeneration token count statusFlags).length
      = 60 := by
  simp [okHeader]

theorem length_encodeResumeOkFull (acceptedEpoch peerEpoch newGeneration statusFlags : Nat) :
    (encodeResumeOkFull sessionId acceptedEpoch peerEpoch newGeneration token l statusFlags).length
      = 60 + 36 * l.length := by
  have hsummaries := length_summaries l
  unfold encodeResumeOkFull
  simp only [length_append, BytesN.length_toBytes, length_beBytes, hsummaries]
  omega

/-- **What decoding a RESUME_OK comes to**, for nonzero ids and numbers. -/
theorem decodeResumeOkFull_encode {acceptedEpoch peerEpoch newGeneration statusFlags : Nat}
    (hcount : l.length < 2 ^ 16) (hsession : sessionId ≠ BytesN.ofNat 16 0)
    (haccepted : acceptedEpoch ≠ 0 ∧ acceptedEpoch < 2 ^ 64)
    (hpeer : peerEpoch ≠ 0 ∧ peerEpoch < 2 ^ 64)
    (hgeneration : newGeneration ≠ 0 ∧ newGeneration < 2 ^ 64)
    (htoken : token ≠ BytesN.ofNat 16 0) (hstatus : statusFlags < 2 ^ 16) :
    decodeResumeOkFull
        (encodeResumeOkFull sessionId acceptedEpoch peerEpoch newGeneration token l statusFlags)
      = (decodeSummaries
          (encodeResumeOkFull sessionId acceptedEpoch peerEpoch newGeneration token l statusFlags)
          l.length 60).map fun replaySummaries =>
            { acceptedSessionId := sessionId, acceptedEpoch, peerEpoch, newGeneration,
              newResumeToken := token, replayStreamCount := l.length, statusFlags,
              replaySummaries } := by
  have hlen : (encodeResumeOkFull sessionId acceptedEpoch peerEpoch newGeneration token l
      statusFlags).length = 60 + 36 * l.length := length_encodeResumeOkFull _ _ _ _
  have hsessionAt : arrayAt (encodeResumeOkFull sessionId acceptedEpoch peerEpoch newGeneration
      token l statusFlags) 0 16 = sessionId :=
    arrayAt_eq (slice_append_self sessionId.length_toBytes)
  have hacceptedAt : getU64 (encodeResumeOkFull sessionId acceptedEpoch peerEpoch newGeneration
      token l statusFlags) 16 = some acceptedEpoch := by
    unfold encodeResumeOkFull
    exact getU64_append (by simp) haccepted.2
  have hpeerAt : getU64 (encodeResumeOkFull sessionId acceptedEpoch peerEpoch newGeneration
      token l statusFlags) 24 = some peerEpoch := by
    unfold encodeResumeOkFull
    rw [← append_assoc]
    exact getU64_append (by simp) hpeer.2
  have hgenerationAt : getU64 (encodeResumeOkFull sessionId acceptedEpoch peerEpoch newGeneration
      token l statusFlags) 32 = some newGeneration := by
    unfold encodeResumeOkFull
    rw [← append_assoc, ← append_assoc]
    exact getU64_append (by simp) hgeneration.2
  have htokenAt : arrayAt (encodeResumeOkFull sessionId acceptedEpoch peerEpoch newGeneration
      token l statusFlags) 40 16 = token := by
    refine arrayAt_eq ?_
    unfold encodeResumeOkFull
    rw [← append_assoc, ← append_assoc, ← append_assoc]
    exact slice_append (by simp) (by simp)
  have hcountAt : slice (encodeResumeOkFull sessionId acceptedEpoch peerEpoch newGeneration
      token l statusFlags) 56 58 = beBytes 2 l.length := by
    unfold encodeResumeOkFull
    rw [← append_assoc, ← append_assoc, ← append_assoc, ← append_assoc]
    exact slice_append (by simp) (by simp)
  have hstatusAt : slice (encodeResumeOkFull sessionId acceptedEpoch peerEpoch newGeneration
      token l statusFlags) 58 60 = beBytes 2 statusFlags := by
    unfold encodeResumeOkFull
    rw [← append_assoc, ← append_assoc, ← append_assoc, ← append_assoc,
      ← append_assoc]
    exact slice_append (by simp) (by simp)
  have hcountNat : beNat (beBytes 2 l.length) = l.length := beNat_beBytes_of_lt hcount
  have hstatusNat : beNat (beBytes 2 statusFlags) = statusFlags := beNat_beBytes_of_lt hstatus
  generalize encodeResumeOkFull sessionId acceptedEpoch peerEpoch newGeneration token l statusFlags
    = p at *
  unfold decodeResumeOkFull
  rw [if_neg (by omega), hsessionAt, if_neg hsession, hacceptedAt, hpeerAt, hgenerationAt]
  dsimp only [bind_some]
  rw [if_neg (by simp [haccepted.1, hpeer.1, hgeneration.1]), htokenAt, if_neg htoken, hcountAt,
    hstatusAt, hcountNat, hstatusNat, if_neg (by omega)]

end Payloads

/-- **The summaries that are read back** as they were written. -/
theorem decodeSummaries_eq_iff (pre : Bytes) (h : ∀ s ∈ l, SummaryTyped s) :
    decodeSummaries (pre ++ l.flatMap encodeSummary) l.length pre.length = some l
      ↔ ∀ s ∈ l, s.streamId ≠ 0 ∧ s.finalSent ≠ some noFinal := by
  by_cases hzero : ∃ s ∈ l, s.streamId = 0
  · rw [decodeSummaries_eq_none pre h hzero]
    obtain ⟨s, hs, hid⟩ := hzero
    exact iff_of_false (by simp) fun hall => (hall s hs).1 hid
  · have hids : ∀ s ∈ l, s.streamId ≠ 0 := fun s hs hid => hzero ⟨s, hs, hid⟩
    rw [decodeSummaries_append pre fun s hs => ⟨h s hs, hids s hs⟩, some_inj]
    constructor
    · intro hback s hs
      refine ⟨hids s hs, fun hfinal => ?_⟩
      -- the summary reads as one without a final offset
      have hsame : readBack s = s := by
        have hmap : l.map readBack = l.map id := hback.trans (List.map_id l).symm
        exact map_inj_left.mp hmap s hs
      have hnone : (readBack s).finalSent = none := by simp [readBack, hfinal, Option.filter]
      rw [hsame, hfinal] at hnone
      cases hnone
    · intro hall
      refine (map_congr_left fun s hs => ?_).trans (List.map_id l)
      have hfinal := (hall s hs).2
      obtain ⟨streamId, recvAck, sendNext, finalSent⟩ := s
      cases finalSent with
      | none => rfl
      | some final =>
        have hne : final ≠ noFinal := fun heq => hfinal (congrArg some heq)
        simp [readBack, Option.filter, hne]

/-! ## In a run -/

namespace SessionShared

def resumeInitFrame (s : SessionShared) (payload : Bytes) : Frame where
  frameType := .resumeInit
  flags := 0
  sessionId := s.sessionId
  streamId := 0
  direction := .clientToProvider
  byteOffset := 0
  payload := payload

def resumeOkFrame (s : SessionShared) (payload : Bytes) : Frame where
  frameType := .resumeOk
  flags := 0
  sessionId := s.sessionId
  streamId := 0
  direction := .providerToClient
  byteOffset := 0
  payload := payload

/-- The sessions whose summaries can be written and read back: a frame has room for 29125 of
them, a stream's id is never zero, and the largest final offset stands for none. -/
structure Resumable (s : SessionShared) : Prop where
  count : s.streams.size ≤ 29125
  ids : ∀ sid ∈ s.streams, sid ≠ 0
  finals : ∀ (sid : Nat) (c : StreamCtx), s.streams[sid]? = some c → c.finalSent ≠ some noFinal

end SessionShared

theorem StreamChange.sendTyped {a : StreamCtx → Nat → Prop} {c c' : StreamCtx}
    (h : StreamChange a c c')
    (hc : c.journal.nextSendOffset < 2 ^ 64 ∧ ∀ final ∈ c.finalSent, final < 2 ^ 64) :
    c'.journal.nextSendOffset < 2 ^ 64 ∧ ∀ final ∈ c'.finalSent, final < 2 ^ 64 := by
  have hterminate : ∀ (c : StreamCtx) (t : StreamTerm),
      (c.journal.nextSendOffset < 2 ^ 64 ∧ ∀ final ∈ c.finalSent, final < 2 ^ 64) →
        (c.terminate t).journal.nextSendOffset < 2 ^ 64
          ∧ ∀ final ∈ (c.terminate t).finalSent, final < 2 ^ 64 := by
    intro c t hc
    rw [terminate_journal, StreamJournal.advanceAck_nextSendOffset]
    refine ⟨hc.1, ?_⟩
    unfold StreamCtx.terminate StreamCtx.clearJournal
    rw [setTerm_finalSent]
    exact hc.2
  cases h with
  | kept => exact hc
  | noted =>
    obtain ⟨n, hn⟩ := noteAck_eq c
    rw [hn]
    exact hc
  | refused n => exact hterminate _ _ hc
  | reset => exact hterminate _ _ hc
  | acked x hx => exact ⟨(StreamJournal.advanceAck_nextSendOffset c.journal x).symm ▸ hc.1, hc.2⟩
  | finished final | cancelled =>
    rw [setTerm_journal, setTerm_finalSent]
    exact hc
  | recorded p off j hterm hrecord =>
    obtain ⟨-, -, -, hnext, -⟩ := StreamJournal.record_eq_ok hrecord
    refine ⟨?_, hc.2⟩
    show j.nextSendOffset < 2 ^ 64
    omega
  | finalSent hterm => exact ⟨hc.1, fun final hfinal => some.inj hfinal ▸ hc.1⟩
  | retracted => exact ⟨hc.1, nofun⟩
  | aborted =>
    refine ⟨?_, nofun⟩
    show ((c.setTerm .localAbort).journal.advanceAck _).nextSendOffset < 2 ^ 64
    rw [StreamJournal.advanceAck_nextSendOffset, setTerm_journal]
    exact hc.1

theorem streamIds_lt {r : SessionRun} (h : sessionMachine.Reachable r) :
    (∀ sid ∈ r.session.streams, sid < 2 ^ 64) ∧ (∀ sid ∈ r.allocated, sid < 2 ^ 64)
      ∧ r.nextStreamId < 2 ^ 64 := by
  refine h.invariant (I := fun r : SessionRun => (∀ sid ∈ r.session.streams, sid < 2 ^ 64)
    ∧ (∀ sid ∈ r.allocated, sid < 2 ^ 64) ∧ r.nextStreamId < 2 ^ 64) ?_ ?_
  · rintro _ ⟨sessionId, token, isClient, limits, rfl⟩
    refine ⟨fun sid hmem => absurd hmem not_mem_empty,
      (fun sid hmem => nomatch hmem), ?_⟩
    show (if isClient = true then 1 else 2) < 2 ^ 64
    split <;> decide
  · intro r e r' ⟨hstreams, hallocated, hnext⟩ _ hstep
    have has := step_as (admits_any e r.session) hstep
    have hids : ∀ sid ∈ r'.session.streams, sid < 2 ^ 64 := by
      intro sid hmem
      rcases has.fresh sid hmem with hold | hopens
      · exact hstreams sid hold
      · cases e with
        | frame owner f =>
          obtain ⟨-, hwire, rfl⟩ := hopens
          exact hwire.1.2.1
        | reserveStreamSlot sid' => exact hallocated sid hopens.2
        | sendOpen sid' key payload => exact hallocated sid hopens.2
        | _ => cases hopens
    cases has with
    | allocated =>
      refine ⟨hids, fun sid hmem => ?_, Nat.mod_lt _ (by decide)⟩
      rcases mem_cons.mp hmem with rfl | hold
      · exact hnext
      · exact hallocated sid hold
    | _ => exact ⟨hids, hallocated, hnext⟩

theorem summaryTyped_of_reachable {r : SessionRun} (h : sessionMachine.Reachable r) :
    ∀ s ∈ r.session.summaries, SummaryTyped s := by
  intro s hs
  obtain ⟨⟨sid, c⟩, hmem, rfl⟩ := List.mem_map.mp hs
  have hc : r.session.streams[sid]? = some c := mem_toList_iff_getElem?_eq_some.mp hmem
  have haccounts := accounts h
  have hsend := streams_invariant (I := fun c : StreamCtx => c.journal.nextSendOffset < 2 ^ 64
      ∧ ∀ final ∈ c.finalSent, final < 2 ^ 64)
    (fun _ _ => ⟨Nat.two_pow_pos 64, fun final hfinal => nomatch hfinal⟩)
    (fun r e _ => admits_any e r.session) (fun _ _ _ hI hchange => hchange.sendTyped hI)
    (fun _ _ _ _ _ hI _ _ => hI) (fun _ _ hI => hI) h sid c hc
  have htracks := haccounts.tracks sid c hc
  refine ⟨(streamIds_lt h).1 sid (mem_iff_isSome_getElem?.mpr (hc ▸ rfl)), ?_, hsend.1,
    hsend.2⟩
  refine Nat.lt_of_le_of_lt (haccounts.committed_le hc) ?_
  rw [htracks.expectedOffset]
  exact htracks.fits

theorem handshakeFrame_encodes {f : Frame} (hcontrol : f.frameType.isControl = true)
    (hid : f.streamId = 0) (hflags : f.flags = 0) :
    (∃ bs, f.encode = .ok bs) ↔ f.payload.length ≤ maxFrame := by
  constructor
  · rintro ⟨bs, h⟩
    exact (Frame.encode_eq_ok.mp h).1.payload
  · intro hle
    refine ⟨_, Frame.encode_eq_ok.mpr ⟨⟨hle, ?_, ?_⟩, rfl⟩⟩
    · rw [hcontrol, hid]
      exact iff_of_true rfl rfl
    · rw [hflags]
      decide

theorem resumable_iff {s : SessionShared} (hl : l.Perm s.summaries) :
    s.Resumable ↔ l.length ≤ 29125
      ∧ ∀ summary ∈ l, summary.streamId ≠ 0 ∧ summary.finalSent ≠ some noFinal := by
  have hlen : l.length = s.streams.size := by
    rw [hl.length_eq, SessionShared.summaries, length_map, ExtTreeMap.length_toList]
  rw [hlen]
  constructor
  · intro h
    refine ⟨h.count, fun summary hmem => ?_⟩
    obtain ⟨⟨sid, c⟩, hc, rfl⟩ := List.mem_map.mp (hl.mem_iff.mp hmem)
    have hc : s.streams[sid]? = some c := mem_toList_iff_getElem?_eq_some.mp hc
    exact ⟨h.ids sid (mem_iff_isSome_getElem?.mpr (hc ▸ rfl)), h.finals sid c hc⟩
  · rintro ⟨hcount, hall⟩
    have hsummary : ∀ (sid : Nat) (c : StreamCtx), s.streams[sid]? = some c →
        sid ≠ 0 ∧ c.finalSent ≠ some noFinal := fun sid c hc =>
      hall _ (hl.mem_iff.mpr (List.mem_map.mpr
        ⟨(sid, c), mem_toList_iff_getElem?_eq_some.mpr hc, rfl⟩))
    refine ⟨hcount, fun sid hmem => ?_, fun sid c hc => (hsummary sid c hc).2⟩
    rw [mem_iff_isSome_getElem?] at hmem
    obtain ⟨c, hc⟩ := isSome_iff_exists.mp hmem
    exact (hsummary sid c hc).1

/-- **A RESUME is written and read back** exactly in the sessions that are `Resumable`, whatever
the order in which the streams are walked: a RESUME_INIT under a nonzero epoch and token, and a
RESUME_OK with nonzero fields. -/
theorem resume_payload_iff {r : SessionRun} (h : sessionMachine.Reachable r)
    {l : List StreamSummary} (hl : l.Perm r.session.summaries) :
    (∀ (localEpoch remoteEpoch : Nat) (nonce : Nonce) (token : Token), localEpoch < 2 ^ 64 →
      remoteEpoch < 2 ^ 64 →
        let payload := encodeResumeInit localEpoch remoteEpoch nonce token l
        ((∃ bs, (r.session.resumeInitFrame payload).encode = .ok bs)
            ∧ decodeResumeInit payload = some
              { localConnectionEpoch := localEpoch, lastSeenRemoteEpoch := remoteEpoch,
                localGeneration := localEpoch, lastSeenGeneration := remoteEpoch,
                nonce, token, summaries := l })
          ↔ localEpoch ≠ 0 ∧ token ≠ BytesN.ofNat 16 0 ∧ r.session.Resumable)
    ∧ ∀ (sessionId : BytesN 16) (acceptedEpoch peerEpoch newGeneration statusFlags : Nat)
        (token : Token), sessionId ≠ BytesN.ofNat 16 0 → token ≠ BytesN.ofNat 16 0 →
      acceptedEpoch ≠ 0 ∧ acceptedEpoch < 2 ^ 64 → peerEpoch ≠ 0 ∧ peerEpoch < 2 ^ 64 →
      newGeneration ≠ 0 ∧ newGeneration < 2 ^ 64 → statusFlags < 2 ^ 16 →
        let payload :=
          encodeResumeOkFull sessionId acceptedEpoch peerEpoch newGeneration token l statusFlags
        ((∃ bs, (r.session.resumeOkFrame payload).encode = .ok bs)
            ∧ decodeResumeOkFull payload = some
              { acceptedSessionId := sessionId, acceptedEpoch, peerEpoch, newGeneration,
                newResumeToken := token, replayStreamCount := l.length, statusFlags,
                replaySummaries := l })
          ↔ r.session.Resumable := by
  have htyped : ∀ s ∈ l, SummaryTyped s := fun s hs =>
    summaryTyped_of_reachable h s (hl.mem_iff.mp hs)
  rw [resumable_iff hl]
  constructor
  · intro localEpoch remoteEpoch nonce token hlocal hremote
    dsimp only
    rw [handshakeFrame_encodes rfl rfl rfl]
    have hlen : (encodeResumeInit localEpoch remoteEpoch nonce token l).length
        = 54 + 36 * l.length := length_encodeResumeInit localEpoch remoteEpoch
    by_cases hcount : l.length ≤ 29125
    · have hfits : (r.session.resumeInitFrame
          (encodeResumeInit localEpoch remoteEpoch nonce token l)).payload.length ≤ maxFrame := by
        show (encodeResumeInit localEpoch remoteEpoch nonce token l).length ≤ 1048576
        omega
      have hheader : (initHeader localEpoch remoteEpoch nonce token l.length).length = 54 := by
        simp [initHeader]
      have hread := decodeSummaries_eq_iff (l := l)
        (initHeader localEpoch remoteEpoch nonce token l.length) htyped
      rw [hheader, ← encodeResumeInit_eq] at hread
      rw [decodeResumeInit_encode (by omega) hlocal hremote, and_iff_right hfits,
        and_iff_right hcount, ← hread]
      by_cases hzero : localEpoch = 0 ∨ token = BytesN.ofNat 16 0
      · rw [if_pos hzero]
        refine iff_of_false (by simp) fun hall => ?_
        exact hzero.elim hall.1 hall.2.1
      · rw [if_neg hzero, map_eq_some_iff]
        obtain ⟨hepoch, htoken⟩ := not_or.mp hzero
        rw [and_iff_right hepoch, and_iff_right htoken]
        constructor
        · rintro ⟨l', hl', heq⟩
          rw [hl', (ResumeInitParsed.mk.inj heq).2.2.2.2.2.2]
        · exact fun hl' => ⟨l, hl', rfl⟩
    · refine iff_of_false (fun hall => ?_) fun hall => hcount hall.2.2.1
      have hfits : (encodeResumeInit localEpoch remoteEpoch nonce token l).length ≤ 1048576 :=
        hall.1
      omega
  · intro sessionId acceptedEpoch peerEpoch newGeneration statusFlags token hsession htoken
      haccepted hpeer hgeneration hstatus
    dsimp only
    rw [handshakeFrame_encodes rfl rfl rfl]
    have hlen : (encodeResumeOkFull sessionId acceptedEpoch peerEpoch newGeneration token l
        statusFlags).length = 60 + 36 * l.length := length_encodeResumeOkFull _ _ _ _
    by_cases hcount : l.length ≤ 29125
    · have hfits : (r.session.resumeOkFrame (encodeResumeOkFull sessionId acceptedEpoch peerEpoch
          newGeneration token l statusFlags)).payload.length ≤ maxFrame := by
        show (encodeResumeOkFull sessionId acceptedEpoch peerEpoch newGeneration token l
          statusFlags).length ≤ 1048576
        omega
      have hread := decodeSummaries_eq_iff (l := l)
        (okHeader sessionId acceptedEpoch peerEpoch newGeneration token l.length statusFlags) htyped
      rw [length_okHeader, ← encodeResumeOkFull_eq] at hread
      rw [decodeResumeOkFull_encode (by omega) hsession haccepted hpeer hgeneration htoken hstatus,
        and_iff_right hfits, and_iff_right hcount, ← hread, map_eq_some_iff]
      constructor
      · rintro ⟨l', hl', heq⟩
        rw [hl', (ResumeOkParsed.mk.inj heq).2.2.2.2.2.2.2]
      · exact fun hl' => ⟨l, hl', rfl⟩
    · refine iff_of_false (fun hall => ?_) fun hall => hcount hall.1
      have hfits : (encodeResumeOkFull sessionId acceptedEpoch peerEpoch newGeneration token l
          statusFlags).length ≤ 1048576 := hall.1
      omega

namespace SampleResume

def client : SessionShared := .new (.ofNat 16 7) (.ofNat 16 9) true .default

def oneStream : SessionRun :=
  { SessionRun.init { client with streams := client.streams.insert 1 (.new 1 .default) } with
    nextStreamId := 3
    allocated := [1] }

theorem client_init : sessionMachine.init (.init client) := ⟨_, _, _, _, rfl⟩

theorem oneStream_reachable : sessionMachine.Reachable oneStream := by
  have hrun : sessionMachine.run (.init client) [.allocStream, .reserveStreamSlot 1]
      = some oneStream := rfl
  exact Machine.reachable_of_run client_init hrun

theorem oneStream_resumed :
    decodeResumeInit (encodeResumeInit 2 1 (.ofNat 16 5) (.ofNat 16 9) oneStream.session.summaries)
      = some { localConnectionEpoch := 2, lastSeenRemoteEpoch := 1, localGeneration := 2,
               lastSeenGeneration := 1, nonce := .ofNat 16 5, token := .ofNat 16 9,
               summaries := oneStream.session.summaries } := by
  have hresumable : oneStream.session.Resumable := by
    refine ⟨by decide, fun sid hmem => ?_, fun sid c hc => ?_⟩
    · rcases ExtTreeMap.mem_insert.mp hmem with heq | hempty
      · exact compare_eq_iff_eq.mp heq ▸ Nat.one_ne_zero
      · exact absurd hempty not_mem_empty
    · rcases getElem?_insert_cases hc with ⟨-, hc⟩ | ⟨-, hc⟩
      · exact hc ▸ (nofun)
      · simp [client, SessionShared.new] at hc
  have hiff := (resume_payload_iff oneStream_reachable (List.Perm.refl _)).1 2 1 (.ofNat 16 5)
    (.ofNat 16 9) (by decide) (by decide)
  exact (hiff.mpr ⟨by decide, by decide, hresumable⟩).2

def resetOf (sid : Nat) : Frame where
  frameType := .reset
  flags := FrameFlags.reset
  sessionId := .ofNat 16 7
  streamId := sid
  direction := .providerToClient
  byteOffset := 0
  payload := []

/-- A client that has opened `n` streams, each of which the provider has reset. -/
structure Reset (n : Nat) (r : SessionRun) : Prop where
  sessionId : r.session.sessionId = .ofNat 16 7
  isClient : r.session.isClient = true
  exhausted : r.session.peerStateExhausted = false
  closing : r.session.closing = false
  aliases : r.session.aliases = ∅
  owed : r.session.abortedRegistry = ∅
  size : r.session.streams.size = n
  ids : ∀ sid ∈ r.session.streams, sid < 2 * n + 1
  ended : ∀ (sid : Nat) (c : StreamCtx), r.session.streams[sid]? = some c →
    isErrorTerm c.term = true
  next : r.nextStreamId = 2 * n + 1

theorem Reset.reserves {n : Nat} {r : SessionRun} (h : Reset n r) :
    r.session.reserveStreamSlot (2 * n + 1)
      = .ok { r.session with
          streams := r.session.streams.insert (2 * n + 1)
            (StreamCtx.new (2 * n + 1) r.session.limits) } := by
  have hnew : ¬2 * n + 1 ∈ r.session.streams := fun hmem => Nat.lt_irrefl _ (h.ids _ hmem)
  have hactive : mapSum r.session.streams (fun ctx => if ctx.quotaReapable then 0 else 1) = 0 := by
    refine Nat.le_zero.mp ?_
    rw [← mapSum_empty (κ := Nat) (fun _ : StreamCtx => 0)]
    refine mapSum_le_mapSum fun sid => ?_
    cases hc : r.session.streams[sid]? with
    | none =>
      rw [contribution_of_none hc]
      exact Nat.zero_le _
    | some c =>
      have hreapable : c.quotaReapable = true := by
        unfold StreamCtx.quotaReapable
        rw [h.ended sid c hc, Bool.true_or]
      rw [contribution_of_some hc, if_pos hreapable]
      exact Nat.zero_le _
  unfold SessionShared.reserveStreamSlot
  rw [if_neg (by simp [h.closing]), if_neg hnew, hactive]
  dsimp only
  rw [if_neg (by decide), h.owed, if_neg (by decide)]

theorem resetOf_onWire {sid : Nat} (hpos : sid ≠ 0) (hsid : sid < 2 ^ 64) :
    (resetOf sid).OnWire := by
  have hflags : FrameFlags.reset < 2 ^ 16 := by decide
  have hknown : FrameFlags.unknown FrameFlags.reset = 0 := by decide
  refine ⟨⟨hflags, hsid, Nat.two_pow_pos 64⟩, Nat.zero_le _, ?_, hknown⟩
  exact iff_of_false (nofun) hpos

theorem beginFrame_resetOf {s : SessionShared} {sid : Nat} {c : StreamCtx}
    (hsession : s.sessionId = .ofNat 16 7) (hclient : s.isClient = true)
    (hexhausted : s.peerStateExhausted = false) (haliases : s.aliases = ∅)
    (hc : s.streams[sid]? = some c) :
    s.beginFrame 0 (resetOf sid)
      = ({ s with streams :=
            s.streams.insert sid ({ c with peerReset := true }.terminate .peerReset) },
          .done .drop) := by
  have hdirection : s.directionOk (resetOf sid) = true := by
    show decide (Direction.providerToClient = s.recvDirection) = true
    unfold SessionShared.recvDirection
    rw [hclient]
    rfl
  have hparity : s.parityOk (resetOf sid) = true := rfl
  have hresolve : s.resolveStream sid = sid := by
    unfold SessionShared.resolveStream
    rw [haliases]
    rfl
  have hhandled : s.handleReset (resetOf sid)
      = ({ s with streams :=
            s.streams.insert sid ({ c with peerReset := true }.terminate .peerReset) },
          .drop) := by
    unfold SessionShared.handleReset
    rw [show (resetOf sid).streamId = sid from rfl, hresolve]
    dsimp only
    rw [hc]
  have hsession : ¬(resetOf sid).sessionId ≠ s.sessionId := not_not.mpr hsession.symm
  unfold SessionShared.beginFrame
  rw [if_neg hsession, if_neg (by simp [hexhausted]),
    if_neg (not_not.mpr hdirection), if_neg (not_not.mpr hparity)]
  exact congrArg (fun p : SessionShared × FrameOutcome => (p.1, FrameStep.done p.2)) hhandled

theorem Reset.succ {n : Nat} {r : SessionRun} (hreach : sessionMachine.Reachable r)
    (h : Reset n r) (hn : 2 * n + 3 < 2 ^ 64) :
    ∃ r', sessionMachine.Reachable r' ∧ Reset (n + 1) r' := by
  let sid := 2 * n + 1
  let ended : StreamCtx :=
    { StreamCtx.new sid r.session.limits with peerReset := true }.terminate .peerReset
  let opened : SessionShared := { r.session with
    streams := r.session.streams.insert sid (StreamCtx.new sid r.session.limits) }
  let asked : SessionRun := { r with
    nextStreamId := (r.nextStreamId + 2) % 2 ^ 64
    allocated := r.nextStreamId :: r.allocated }
  have halloc : sessionMachine.step r .allocStream = some asked := rfl
  have hreserve : sessionMachine.step asked (.reserveStreamSlot sid)
      = some (asked.withSession opened) := by
    show (if sid ∈ r.nextStreamId :: r.allocated then _ else _) = _
    rw [h.next, if_pos mem_cons_self, show asked.session = r.session from rfl, h.reserves]
  have hreset : sessionMachine.step (asked.withSession opened) (.frame 0 (resetOf sid))
      = some (asked.withSession
          { opened with streams := opened.streams.insert sid ended }) := by
    have hbegin : opened.beginFrame 0 (resetOf sid)
        = ({ opened with streams := opened.streams.insert sid ended }, .done .drop) :=
      beginFrame_resetOf h.sessionId h.isClient h.exhausted h.aliases
        getElem?_insert_self
    show sessionStep (asked.withSession opened) (.frame 0 (resetOf sid)) = _
    unfold sessionStep
    dsimp only
    rw [if_pos (resetOf_onWire (Nat.succ_ne_zero _) (Nat.lt_trans (by omega) hn)),
      show (asked.withSession opened).session = opened from rfl, hbegin]
    rfl
  have hfresh : ¬sid ∈ r.session.streams := fun hmem => Nat.lt_irrefl _ (h.ids _ hmem)
  refine ⟨_, .step (.step (.step hreach trivial halloc) trivial hreserve) trivial hreset,
    h.sessionId, h.isClient, h.exhausted, h.closing, h.aliases, h.owed, ?_, fun sid' hmem => ?_,
    fun sid' c hc => ?_, ?_⟩
  · show ((r.session.streams.insert sid _).insert sid ended).size = n + 1
    rw [insert_insert_self, size_insert,
      if_neg fun hmem => hfresh (mem_iff_contains.mpr hmem), h.size]
  · change sid' ∈ (r.session.streams.insert sid _).insert sid ended at hmem
    rw [insert_insert_self] at hmem
    rcases ExtTreeMap.mem_insert.mp hmem with heq | hold
    · have := compare_eq_iff_eq.mp heq
      omega
    · have := h.ids sid' hold
      omega
  · change ((r.session.streams.insert sid _).insert sid ended)[sid']? = some c at hc
    rw [insert_insert_self] at hc
    rcases getElem?_insert_cases hc with ⟨-, rfl⟩ | ⟨-, hc⟩
    · rfl
    · exact h.ended sid' c hc
  · show (r.nextStreamId + 2) % 2 ^ 64 = 2 * (n + 1) + 1
    rw [h.next, Nat.mod_eq_of_lt (by omega)]
    omega

theorem exists_reset (n : Nat) (hn : 2 * n + 1 < 2 ^ 64) :
    ∃ r, sessionMachine.Reachable r ∧ Reset n r := by
  induction n with
  | zero =>
    exact ⟨_, .init client_init, rfl, rfl, rfl, rfl, rfl, rfl, rfl,
      fun sid hmem => absurd hmem not_mem_empty,
      fun sid c hc => by simp [SessionRun.init, client, SessionShared.new] at hc, rfl⟩
  | succ n ih =>
    obtain ⟨r, hreach, hreset⟩ := ih (by omega)
    exact hreset.succ hreach (by omega)

/-- **A session that cannot resume**: after 29126 streams, all of them reset by the provider,
neither payload fits into a frame. -/
theorem streams_outgrow_resume :
    ∃ r, sessionMachine.Reachable r
      ∧ (∀ (localEpoch remoteEpoch : Nat) (nonce : Nonce) (token : Token),
        ¬∃ bs, (r.session.resumeInitFrame (encodeResumeInit localEpoch remoteEpoch nonce token
          r.session.summaries)).encode = .ok bs)
      ∧ ∀ (sessionId : BytesN 16) (acceptedEpoch peerEpoch newGeneration statusFlags : Nat)
          (token : Token),
        ¬∃ bs, (r.session.resumeOkFrame (encodeResumeOkFull sessionId acceptedEpoch peerEpoch
          newGeneration token r.session.summaries statusFlags)).encode = .ok bs := by
  obtain ⟨r, hreach, hreset⟩ := exists_reset 29126 (by decide)
  have hcount : r.session.summaries.length = 29126 := by
    rw [SessionShared.summaries, length_map, ExtTreeMap.length_toList, hreset.size]
  refine ⟨r, hreach, fun localEpoch remoteEpoch nonce token hfits => ?_,
    fun sessionId acceptedEpoch peerEpoch newGeneration statusFlags token hfits => ?_⟩
  · rw [handshakeFrame_encodes rfl rfl rfl] at hfits
    have hle : (encodeResumeInit localEpoch remoteEpoch nonce token r.session.summaries).length
        ≤ 1048576 := hfits
    rw [length_encodeResumeInit, hcount] at hle
    omega
  · rw [handshakeFrame_encodes rfl rfl rfl] at hfits
    have hle : (encodeResumeOkFull sessionId acceptedEpoch peerEpoch newGeneration token
        r.session.summaries statusFlags).length ≤ 1048576 := hfits
    rw [length_encodeResumeOkFull, hcount] at hle
    omega

end SampleResume

end Dweb
