import IotcRa8p1.Ice.StunWritten
import IotcRa8p1.Ice.Nomination

/-!
# TURN channel data (`ice_api.c`)

What goes to the peer over a relay stands behind the number of the channel that the TURN server has bound to the peer
and behind its own length, and zeros fill it up to the next 32-bit word: it is one tagged record.
-/

namespace IotcRa8p1.Ice

open ByteMem BitField Tlv Stun

/-- What the messages to the peer take from `IceCandidatePair_t`; `localIsRelay` is the type of the local candidate. -/
structure IceCandidatePair where
  localIsRelay : Bool
  localPriority : UInt32
  remoteAddress : StunAttributeAddress
  state : CandidatePairState
  responseReceivedFlag : Bool
  transactionId : TransactionId
  turnChannelNumber : UInt16

/-- `ICE_TURN_CHANNEL_DATA_MESSAGE_HEADER_LENGTH` -/
abbrev channelDataHeaderLength : ℕ := 4

/-- The payload on its channel. -/
def channelData (number : UInt16) (payload : List UInt8) : List UInt8 := (Item.mk number payload).wire

/-- `Ice_CreateTurnChannelDataMessage`; the payload stands in the buffer, behind the room for the header. -/
def createTurnChannelDataMessage (pair : IceCandidatePair) (payload : List UInt8) (totalBufferLength : ℕ) :
    Except IceResult (List UInt8) :=
  if 65535 < payload.length then .error .badParam
  else if totalBufferLength < channelDataHeaderLength + payload.length + padLength payload.length then
    .error .outOfMemory
  else if pair.state = .invalid ∨ pair.state = .frozen then .error .turnChannelDataHeaderNotRequired
  else .ok (channelData pair.turnChannelNumber payload)

/-- The message of a pair, over the relay if it has one.  `none`: the header does not fit, the length of what is left
of the buffer wraps, and the message is written behind it. -/
def overRelay (pair : IceCandidatePair) (buffer : List UInt8) (create : List UInt8 → Except IceResult (List UInt8)) :
    Option (Except IceResult (List UInt8)) :=
  if ¬pair.localIsRelay then some (create buffer)
  else if buffer.length < channelDataHeaderLength then none
  else some do
    let stun ← create (buffer.drop channelDataHeaderLength)
    createTurnChannelDataMessage pair stun buffer.length

/-- The bytes that a pair sends for a STUN message. -/
def sentFor (pair : IceCandidatePair) (stun : List UInt8) : List UInt8 :=
  if pair.localIsRelay then channelData pair.turnChannelNumber stun else stun

/-- What is sent is a message that was written, and one that its length has room for if a relay is in between. -/
theorem overRelay_eq_ok {pair : IceCandidatePair} {buffer message : List UInt8}
    {create : List UInt8 → Except IceResult (List UInt8)} (h : overRelay pair buffer create = some (.ok message)) :
    ∃ room stun, create room = .ok stun ∧ message = sentFor pair stun ∧
      (pair.localIsRelay → stun.length < 65536) := by
  unfold overRelay at h
  by_cases hrelay : pair.localIsRelay
  · rw [if_neg (not_not.mpr hrelay)] at h
    split_ifs at h with hshort
    obtain ⟨stun, hstun, hdata⟩ := bind_eq_ok (Option.some.inj h)
    unfold createTurnChannelDataMessage at hdata
    split_ifs at hdata with hlong hroom hstate
    refine ⟨_, stun, hstun, ?_, fun _ => by omega⟩
    rw [sentFor, if_pos hrelay]
    exact (Except.ok.inj hdata).symm
  · rw [if_pos hrelay] at h
    refine ⟨buffer, message, Option.some.inj h, ?_, fun hyes => absurd hyes hrelay⟩
    rw [sentFor, if_neg hrelay]

/-! ### Reading -/

/-- `IceCandidateState_t` -/
inductive CandidateState where
  | invalid
  | new
  | allocating
  | valid
  | releasing
  deriving DecidableEq, Repr

/-- What the reader takes from `IceCandidate_t`. -/
structure IceCandidate where
  isRelay : Bool
  state : CandidateState
  address : StunAttributeAddress

/-- The candidate may receive channel data. -/
def IceCandidate.relays (candidate : IceCandidate) : Bool :=
  candidate.isRelay ∧ (candidate.state = .valid ∨ candidate.state = .releasing)

/-- The search of `Ice_HandleTurnPacket` over the local addresses and the channel numbers of the pairs. -/
def channelPair (pairs : List (StunAttributeAddress × UInt16)) (candidate : IceCandidate) (number : UInt16) :
    Option ℕ :=
  pairs.findIdx? fun p => isSameTransportAddress p.1 candidate.address ∧ number = p.2

/-- `Ice_HandleTurnPacket`: the payload and the index of its pair -/
def handleTurnPacket (pairs : List (StunAttributeAddress × UInt16)) (candidate : IceCandidate)
    (message : List UInt8) : Except IceResult (List UInt8 × ℕ) :=
  if message.length < channelDataHeaderLength ∨ (message.headD 0).toNat / 16 ≠ 4 then .error .turnInvalidMessage
  else if ¬candidate.relays then .error .turnUnexpectedMessage
  else if message.length < lengthOf message + channelDataHeaderLength then .error .turnInvalidMessage
  else
    match channelPair pairs candidate (tagOf message) with
    | none => .error .turnCandidatePairNotFound
    | some i => .ok ((message.drop channelDataHeaderLength).take (lengthOf message), i)

/-- The numbers that the agent gives to channels: from `ICE_DEFAULT_TURN_CHANNEL_NUMBER_MIN` to
`ICE_DEFAULT_TURN_CHANNEL_NUMBER_MAX`. -/
def IsChannelNumber (number : UInt16) : Prop := 0x4000 ≤ number.toNat ∧ number.toNat ≤ 0x4FFF

/-- Channel data is taken back to the payload and the pair of its channel. -/
theorem handleTurnPacket_channelData {pairs : List (StunAttributeAddress × UInt16)} {candidate : IceCandidate}
    {number : UInt16} {payload : List UInt8} {i : ℕ} (hnumber : IsChannelNumber number)
    (hlength : payload.length < 65536) (hrelays : candidate.relays)
    (hpair : channelPair pairs candidate number = some i) :
    handleTurnPacket pairs candidate (channelData number payload) = .ok (payload, i) := by
  have hlen : (channelData number payload).length = 4 + payload.length + padLength payload.length := by
    rw [channelData, wire_length, Nat.add_assoc]
  have htag : tagOf (channelData number payload) = number := tagOf_bytes ⟨number, payload⟩ _
  have hlengthOf : lengthOf (channelData number payload) = payload.length :=
    lengthOf_bytes (a := ⟨number, payload⟩) hlength _
  have hfirst : ((channelData number payload).headD 0).toNat / 16 = 4 := by
    have hhead : (channelData number payload).headD 0 = UInt8.ofNat (number.toNat / 256) := rfl
    obtain ⟨hmin, hmax⟩ := hnumber
    rw [hhead, UInt8.toNat_ofNat']
    omega
  have hpayload : ((channelData number payload).drop 4).take payload.length = payload := by
    rw [channelData, Item.wire, Item.bytes, List.append_assoc, List.drop_left' (by simp), List.take_left' rfl]
  have hheader : ¬((channelData number payload).length < 4 ∨
      ((channelData number payload).headD 0).toNat / 16 ≠ 4) := by
    rw [hlen, hfirst]
    omega
  have hwhole : ¬(channelData number payload).length < payload.length + 4 := by
    rw [hlen]
    omega
  unfold handleTurnPacket
  rw [if_neg hheader, if_neg (not_not.mpr hrelays), hlengthOf, if_neg hwhole, htag, hpair]
  exact congrArg (fun bs => Except.ok (bs, i)) hpayload

end IotcRa8p1.Ice
