import IotcRa8p1.Lib.Tlv

/-!
# STUN messages (`stun_serializer.c`, `stun_deserializer.c`)

A message is a header of 20 bytes and attributes, each padded to a whole number of words.  The serializer writes
into a buffer, which is here the list `pStart` (its length is `totalLength`); the deserializer walks over the bytes
received.  A read outside of these is `none`.

A failed call of the serializer gives only its result: every caller stops there.
-/

namespace IotcRa8p1.Ice.Stun

open ByteMem Tlv

/-- `StunResult_t`, less the start value `STUN_RESULT_BASE` -/
inductive StunResult where
  | badParam
  | outOfMemory
  | invalidMessageLength
  | magicCookieMismatch
  | noMoreAttributeFound
  | invalidAttributeLength
  | invalidAttributeOrder
  | invalidAttribute
  deriving DecidableEq, Repr

/-! ### `StunAttributeType_t` and the lengths -/

abbrev typeMappedAddress : UInt16 := 0x0001
abbrev typeResponseAddress : UInt16 := 0x0002
abbrev typeChangeRequest : UInt16 := 0x0003
abbrev typeSourceAddress : UInt16 := 0x0004
abbrev typeChangedAddress : UInt16 := 0x0005
abbrev typeUsername : UInt16 := 0x0006
abbrev typeMessageIntegrity : UInt16 := 0x0008
abbrev typeErrorCode : UInt16 := 0x0009
abbrev typeReflectedFrom : UInt16 := 0x000B
abbrev typeChannelNumber : UInt16 := 0x000C
abbrev typeLifetime : UInt16 := 0x000D
abbrev typeXorPeerAddress : UInt16 := 0x0012
abbrev typeRealm : UInt16 := 0x0014
abbrev typeNonce : UInt16 := 0x0015
abbrev typeXorRelayedAddress : UInt16 := 0x0016
abbrev typeRequestedTransport : UInt16 := 0x0019
abbrev typeDontFragment : UInt16 := 0x001A
abbrev typeXorMappedAddress : UInt16 := 0x0020
abbrev typePriority : UInt16 := 0x0024
abbrev typeUseCandidate : UInt16 := 0x0025
abbrev typeFingerprint : UInt16 := 0x8028
abbrev typeIceControlled : UInt16 := 0x8029
abbrev typeIceControlling : UInt16 := 0x802A

abbrev headerLength : ℕ := 20
abbrev magicCookie : UInt32 := 0x2112A442
abbrev fingerprintXorValue : UInt32 := 0x5354554E
abbrev attributeValueMaxLength : ℕ := 512
abbrev maxMessageLength : ℕ := 65535
abbrev addressIPv4 : UInt16 := 1
abbrev addressIPv6 : UInt16 := 2

/-- The 12 bytes of `STUN_HEADER_TRANSACTION_ID_LENGTH` -/
abbrev TransactionId := {bs : List UInt8 // bs.length = 12}

/-- `StunHeader_t` -/
structure StunHeader where
  messageType : UInt16
  transactionId : TransactionId
  deriving DecidableEq

/-- `StunAttributeAddress_t`, with its 16 bytes -/
structure StunAttributeAddress where
  family : UInt16
  port : UInt16
  address : List UInt8
  size : address.length = 16
  deriving DecidableEq

/-- `StunContext_t`; the two flags of `attributeFlag` are fields of their own. -/
structure StunContext where
  pStart : List UInt8
  currentIndex : ℕ
  fingerprintFlag : Bool
  integrityFlag : Bool
  deriving DecidableEq, Repr

/-- Bytes written over the buffer at an index. -/
def putAt (bs : List UInt8) (i : ℕ) (v : List UInt8) : List UInt8 := bs.take i ++ v ++ bs.drop (i + v.length)

/-- `STUN_ALIGN_SIZE_TO_WORD` -/
def alignSizeToWord (n : ℕ) : ℕ := n + padLength n

/-- `STUN_REMAINING_LENGTH`, a difference of two `size_t`: behind the end it wraps. -/
def remaining (ctx : StunContext) : ℕ :=
  if ctx.currentIndex ≤ ctx.pStart.length then ctx.pStart.length - ctx.currentIndex
  else 4294967296 - (ctx.currentIndex - ctx.pStart.length)

/-! ### Writing -/

/-- `StunSerializer_Init` -/
def serializerInit (buffer : List UInt8) (header : StunHeader) : Except StunResult StunContext :=
  if buffer.length < headerLength then .error .badParam
  else
    .ok ⟨putAt buffer 0 (beBytes 2 header.messageType.toNat ++ beBytes 2 0 ++ beBytes 4 magicCookie.toNat ++
      header.transactionId.val), headerLength, false, false⟩

/-- `CheckAndUpdateAttributeFlag` -/
def checkAndUpdateAttributeFlag (ctx : StunContext) (attributeType : UInt16) : Except StunResult StunContext :=
  if ctx.fingerprintFlag then .error .invalidAttributeOrder
  else if ctx.integrityFlag ∧ attributeType ≠ typeFingerprint then .error .invalidAttributeOrder
  else if attributeType = typeFingerprint then .ok { ctx with fingerprintFlag := true }
  else if attributeType = typeMessageIntegrity then .ok { ctx with integrityFlag := true }
  else .ok ctx

/-- Type, length, value and zeros up to the next word at the current index. -/
def writeAttribute (ctx : StunContext) (a : Item) : StunContext :=
  { ctx with
    pStart := putAt ctx.pStart ctx.currentIndex a.wire
    currentIndex := ctx.currentIndex + 4 + alignSizeToWord a.value.length }

/-- The common part of the functions below: room, order, and the bytes.  `checked` is the type that the order is
checked with. -/
def addAttribute (ctx : StunContext) (checked : UInt16) (a : Item) : Except StunResult StunContext :=
  if remaining ctx < 4 + alignSizeToWord a.value.length then .error .outOfMemory
  else (checkAndUpdateAttributeFlag ctx checked).map (writeAttribute · a)

/-- `AddAttributeBuffer` -/
def addAttributeBuffer (ctx : StunContext) (attributeType : UInt16) (value : List UInt8) :
    Except StunResult StunContext :=
  if value.length = 0 ∨ attributeValueMaxLength < value.length then .error .badParam
  else addAttribute ctx attributeType ⟨attributeType, value⟩

/-- `AddAttributeTypeOnly` -/
def addAttributeTypeOnly (ctx : StunContext) (attributeType : UInt16) : Except StunResult StunContext :=
  addAttribute ctx attributeType ⟨attributeType, []⟩

/-- `AddAttributeUint32` -/
def addAttributeUint32 (ctx : StunContext) (attributeType : UInt16) (value : UInt32) :
    Except StunResult StunContext :=
  addAttribute ctx attributeType ⟨attributeType, beBytes 4 value.toNat⟩

/-- `AddAttributeUint64` -/
def addAttributeUint64 (ctx : StunContext) (attributeType : UInt16) (value : UInt64) :
    Except StunResult StunContext :=
  addAttribute ctx attributeType ⟨attributeType, beBytes 8 value.toNat⟩

/-- `StunSerializer_AddAttributeUseCandidate` -/
def addAttributeUseCandidate (ctx : StunContext) := addAttributeTypeOnly ctx typeUseCandidate

/-- `StunSerializer_AddAttributePriority` -/
def addAttributePriority (ctx : StunContext) (priority : UInt32) := addAttributeUint32 ctx typePriority priority

/-- `StunSerializer_AddAttributeLifetime` -/
def addAttributeLifetime (ctx : StunContext) (lifetime : UInt32) := addAttributeUint32 ctx typeLifetime lifetime

/-- `StunSerializer_AddAttributeFingerprint` -/
def addAttributeFingerprint (ctx : StunContext) (crc32Fingerprint : UInt32) :=
  addAttributeUint32 ctx typeFingerprint (crc32Fingerprint ^^^ fingerprintXorValue)

/-- `StunSerializer_AddAttributeIceControlled` -/
def addAttributeIceControlled (ctx : StunContext) (tieBreaker : UInt64) :=
  addAttributeUint64 ctx typeIceControlled tieBreaker

/-- `StunSerializer_AddAttributeIceControlling` -/
def addAttributeIceControlling (ctx : StunContext) (tieBreaker : UInt64) :=
  addAttributeUint64 ctx typeIceControlling tieBreaker

/-- `StunSerializer_AddAttributeUsername` -/
def addAttributeUsername (ctx : StunContext) (username : List UInt8) := addAttributeBuffer ctx typeUsername username

/-- `StunSerializer_AddAttributeRealm` -/
def addAttributeRealm (ctx : StunContext) (realm : List UInt8) := addAttributeBuffer ctx typeRealm realm

/-- `StunSerializer_AddAttributeNonce` -/
def addAttributeNonce (ctx : StunContext) (nonce : List UInt8) := addAttributeBuffer ctx typeNonce nonce

/-- `StunSerializer_AddAttributeRequestedTransport` for UDP, the one its callers ask for -/
def addAttributeRequestedTransport (ctx : StunContext) :=
  addAttributeBuffer ctx typeRequestedTransport [0x11, 0x00, 0x00, 0x00]

/-- `StunSerializer_AddAttributeIntegrity` -/
def addAttributeIntegrity (ctx : StunContext) (integrity : List UInt8) :=
  addAttributeBuffer ctx typeMessageIntegrity integrity

/-- `StunSerializer_AddAttributeChannelNumber`; the order is checked as for an error code. -/
def addAttributeChannelNumber (ctx : StunContext) (channelNumber : UInt16) :=
  addAttribute ctx typeErrorCode ⟨typeChannelNumber, beBytes 2 channelNumber.toNat ++ beBytes 2 0⟩

/-- The three types whose address goes over the wire XORed. -/
def isXorAddress (attributeType : UInt16) : Bool :=
  attributeType = typeXorMappedAddress ∨ attributeType = typeXorRelayedAddress ∨ attributeType = typeXorPeerAddress

/-- What the bytes of an address are XORed with: the magic cookie, for an IPv6 address also the transaction ID. -/
def xorKey (pStart : List UInt8) (family : UInt16) : List UInt8 :=
  beBytes 4 magicCookie.toNat ++ if family = addressIPv6 then (pStart.drop 8).take 12 else []

def xorBytes (bytes key : List UInt8) : List UInt8 := bytes.mapIdx fun i b => b ^^^ key.getD i 0

/-- `XorAddress` -/
def xorAddress (pStart : List UInt8) (a : StunAttributeAddress) : StunAttributeAddress :=
  ⟨a.family, 0x2112 ^^^ a.port, xorBytes a.address (xorKey pStart a.family), by
    rw [xorBytes, List.length_mapIdx, a.size]⟩

/-- The bytes of an address in use. -/
def addressSize (family : UInt16) : ℕ := if family = addressIPv4 then 4 else 16

/-- `StunSerializer_AddAttributeAddress`; here the order is checked before the room. -/
def addAttributeAddress (ctx : StunContext) (pAddress : StunAttributeAddress) (attributeType : UInt16) :
    Except StunResult StunContext :=
  if pAddress.family ≠ addressIPv4 ∧ pAddress.family ≠ addressIPv6 then .error .badParam
  else
    match checkAndUpdateAttributeFlag ctx attributeType with
    | .error e => .error e
    | .ok ctx =>
      if remaining ctx < 4 + (4 + addressSize pAddress.family) then .error .outOfMemory
      else
        let localAddress := if isXorAddress attributeType then xorAddress ctx.pStart pAddress else pAddress
        .ok (writeAttribute ctx ⟨attributeType, beBytes 2 localAddress.family.toNat ++
          beBytes 2 localAddress.port.toNat ++ localAddress.address.take (addressSize localAddress.family)⟩)

/-- `StunSerializer_AddAttributeXorMappedAddress` -/
def addAttributeXorMappedAddress (ctx : StunContext) (pAddress : StunAttributeAddress) :=
  addAttributeAddress ctx pAddress typeXorMappedAddress

/-- The length of a message in its header. -/
def putLength (bs : List UInt8) (messageLength : ℕ) : List UInt8 := putAt bs 2 (beBytes 2 messageLength)

/-- The shared part of `StunSerializer_GetIntegrityBuffer` and `StunSerializer_GetFingerprintBuffer`: the header
gets the length that the message will have with an attribute of `n` bytes behind it, and the bytes so far are
given out; their number goes through a `uint16_t`. -/
def getBuffer (ctx : StunContext) (n : ℕ) : Except StunResult (StunContext × List UInt8) :=
  if ctx.currentIndex < headerLength ∨ maxMessageLength - n < ctx.currentIndex - headerLength then
    .error .invalidMessageLength
  else
    let ctx := { ctx with pStart := putLength ctx.pStart (ctx.currentIndex - headerLength + n) }
    .ok (ctx, ctx.pStart.take (ctx.currentIndex % 65536))

/-- `StunSerializer_GetIntegrityBuffer` -/
def serializerGetIntegrityBuffer (ctx : StunContext) := getBuffer ctx 24

/-- `StunSerializer_GetFingerprintBuffer` -/
def serializerGetFingerprintBuffer (ctx : StunContext) := getBuffer ctx 8

/-- `StunSerializer_Finalize`, with the message in place of its length -/
def serializerFinalize (ctx : StunContext) : Except StunResult (StunContext × List UInt8) :=
  if ctx.currentIndex < headerLength ∨ maxMessageLength < ctx.currentIndex - headerLength then
    .error .invalidMessageLength
  else
    let ctx := { ctx with pStart := putLength ctx.pStart (ctx.currentIndex - headerLength) }
    .ok (ctx, ctx.pStart.take ctx.currentIndex)

/-! ### Reading -/

/-- `STUN_READ_UINT16` at an index -/
def readUint16 (bs : List UInt8) (i : ℕ) : Option UInt16 :=
  if i + 2 ≤ bs.length then some (tagOf (bs.drop i)) else none

/-- `IsAttributeLengthValid` -/
def isAttributeLengthValid (attributeType : UInt16) (n : ℕ) : Bool :=
  if attributeType = typeMappedAddress ∨ attributeType = typeResponseAddress ∨ attributeType = typeSourceAddress ∨
      attributeType = typeChangedAddress ∨ attributeType = typeReflectedFrom ∨ isXorAddress attributeType then
    n = 8 ∨ n = 20
  else if attributeType = typeMessageIntegrity then n = 20
  else if attributeType = typeFingerprint ∨ attributeType = typePriority ∨ attributeType = typeLifetime ∨
      attributeType = typeChannelNumber ∨ attributeType = typeChangeRequest then n = 4
  else if attributeType = typeErrorCode then 4 ≤ n ∧ n ≤ 512
  else if attributeType = typeDontFragment ∨ attributeType = typeUseCandidate then n = 0
  else if attributeType = typeIceControlled ∨ attributeType = typeIceControlling then n = 8
  else n ≤ attributeValueMaxLength

/-- `StunDeserializer_Init` -/
def deserializerInit (message : List UInt8) : Except StunResult (StunContext × StunHeader) :=
  if h : message.length < headerLength then .error .badParam
  else if beNat ((message.drop 4).take 4) ≠ magicCookie.toNat then .error .magicCookieMismatch
  else if beNat ((message.drop 2).take 2) + headerLength ≠ message.length then .error .invalidMessageLength
  else
    .ok (⟨message, headerLength, false, false⟩,
      ⟨tagOf message, (message.drop 8).take 12, by
        rw [List.length_take, List.length_drop]
        dsimp only [headerLength] at h
        omega⟩)

/-- `StunDeserializer_GetNextAttribute`: `none` is a read outside of the message. -/
def getNextAttribute (ctx : StunContext) : Option (Except StunResult (Item × StunContext)) :=
  if remaining ctx < 4 then some (.error .noMoreAttributeFound)
  else
    match readUint16 ctx.pStart ctx.currentIndex with
    | none => none
    | some attributeType =>
      if ctx.fingerprintFlag ∨ ctx.integrityFlag ∧ attributeType ≠ typeFingerprint then
        some (.error .invalidAttributeOrder)
      else
        match readUint16 ctx.pStart (ctx.currentIndex + 2) with
        | none => none
        | some attributeValueLength =>
          let n := attributeValueLength.toNat
          if remaining ctx < 4 + n then some (.error .outOfMemory)
          else if isAttributeLengthValid attributeType n then
            some (.ok (⟨attributeType, (ctx.pStart.drop (ctx.currentIndex + 4)).take n⟩,
              { ctx with
                currentIndex := ctx.currentIndex + 4 + alignSizeToWord n
                fingerprintFlag := ctx.fingerprintFlag || attributeType = typeFingerprint
                integrityFlag := ctx.integrityFlag || attributeType = typeMessageIntegrity }))
          else some (.error .invalidAttribute)

/-- `ParseAttributeUint32`; an attribute without a value has a NULL pointer. -/
def parseAttributeUint32 (a : Item) (attributeType : UInt16) : Except StunResult UInt32 :=
  if a.tag ≠ attributeType ∨ a.value = [] then .error .badParam
  else if a.value.length ≠ 4 then .error .invalidAttributeLength
  else .ok (UInt32.ofNat (beNat a.value))

/-- `StunDeserializer_ParseAttributePriority` -/
def parseAttributePriority (a : Item) := parseAttributeUint32 a typePriority

/-- `StunDeserializer_ParseAttributeLifetime` -/
def parseAttributeLifetime (a : Item) := parseAttributeUint32 a typeLifetime

/-- `StunDeserializer_ParseAttributeFingerprint` -/
def parseAttributeFingerprint (a : Item) : Except StunResult UInt32 :=
  (parseAttributeUint32 a typeFingerprint).map (· ^^^ fingerprintXorValue)

/-- `StunDeserializer_ParseAttributeErrorCode`, less the phrase, which nobody reads -/
def parseAttributeErrorCode (a : Item) : Except StunResult UInt16 :=
  if a.value.length ≤ 4 ∨ a.tag ≠ typeErrorCode then .error .badParam
  else .ok (UInt16.ofNat ((a.value.getD 2 0).toNat * 100 + (a.value.getD 3 0).toNat))

/-- `StunDeserializer_ParseAttributeAddress`: the value's bytes go over the address that was there.  No value of a
valid length has more than 16. -/
def parseAttributeAddress (ctx : StunContext) (a : Item) (old : StunAttributeAddress) :
    Except StunResult StunAttributeAddress :=
  if a.value = [] then .error .badParam
  else
    let plain : StunAttributeAddress := ⟨tagOf a.value, UInt16.ofNat (lengthOf a.value),
      (putAt old.address 0 (a.value.drop 4)).take 16, by
        have h := old.size
        simp only [putAt, List.length_take, List.length_append, List.length_drop, List.length_nil,
          List.take_zero]
        omega⟩
    .ok (if isXorAddress a.tag then xorAddress ctx.pStart plain else plain)

end IotcRa8p1.Ice.Stun
