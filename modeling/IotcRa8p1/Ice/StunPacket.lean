import IotcRa8p1.Ice.Stun

/-!
# The STUN packets of the ICE agent (`ice_api_private.c`)

`finalizeStunPacket` puts the integrity and the fingerprint behind the attributes of a message that is being
written, `deserializeStunPacket` walks over a message received, checks both and collects what the agent reads.
HMAC and CRC are functions of the application (`IceCryptoFunctions_t`).
-/

namespace IotcRa8p1.Ice

open ByteMem Tlv Stun

/-- `IceResult_t`: a function of the application may give any of the codes. -/
inductive IceResult where
  | ok
  | noNextAction
  | turnChannelDataHeaderNotRequired
  | badParam
  | maxCandidateThreshold
  | maxCandidatePairThreshold
  | maxTurnServerThreshold
  | maxChannelNumberThreshold
  | stunError
  | stunErrorAddLifetime
  | stunErrorAddRequestedTransport
  | stunErrorAddUsername
  | stunErrorAddRealm
  | stunErrorAddNonce
  | stunErrorAddXorPeerAddress
  | stunErrorAddChannelNumber
  | snprintfError
  | randomGenerationError
  | crc32Error
  | hmacError
  | md5Error
  | transactionIdStoreError
  | outOfMemory
  | invalidCandidateCredential
  | invalidCandidate
  | invalidCandidatePair
  | turnCandidatePairNotFound
  | turnInvalidMessage
  | turnUnexpectedMessage
  deriving DecidableEq, Repr

/-- `IceHandleStunPacketResult_t`, less the codes that no modelled function gives -/
inductive IceHandleStunPacketResult where
  | ok
  | foundPeerReflexiveCandidate
  | validCandidatePair
  | candidatePairReady
  | deserializeError
  | integrityMismatch
  | fingerprintMismatch
  | addressAttributeNotFound
  | matchingTransactionIdNotFound
  | nonZeroErrorCode
  | randomErrorCode
  | sendResponseForRemoteRequest
  | sendTriggeredCheck
  | startNomination
  | sendResponseAndStartNomination
  deriving DecidableEq, Repr

/-- `IceCryptoFunctions_t`.  A call of `randomFxn` fills a transaction ID: its result and the bytes behind it, also
of a call that failed, by the number of the call. -/
structure IceCryptoFunctions where
  randomFxn : ℕ → IceResult × TransactionId
  crc32Fxn : List UInt8 → Except IceResult UInt32
  hmacFxn : List UInt8 → List UInt8 → Except IceResult (List UInt8)
  md5Fxn : List UInt8 → Except IceResult (List UInt8)

/-- The code that the agent gives for a failed call of the serializer. -/
def asIceResult {α : Type} (e : IceResult) (r : Except StunResult α) : Except IceResult α := r.mapError fun _ => e

/-! ### Writing -/

/-- The integrity attribute of `Ice_FinalizeStunPacket` -/
def addIntegrity (crypto : IceCryptoFunctions) (ctx : StunContext) (password : List UInt8) :
    Except IceResult StunContext := do
  let (ctx, data) ← asIceResult .stunError (serializerGetIntegrityBuffer ctx)
  let messageIntegrity ← crypto.hmacFxn password data
  if messageIntegrity.length = 20 then asIceResult .stunError (addAttributeIntegrity ctx messageIntegrity)
  else .error .hmacError

/-- The fingerprint attribute of `Ice_FinalizeStunPacket` -/
def addFingerprint (crypto : IceCryptoFunctions) (ctx : StunContext) : Except IceResult StunContext := do
  let (ctx, data) ← asIceResult .stunError (serializerGetFingerprintBuffer ctx)
  let messageFingerprint ← crypto.crc32Fxn data
  asIceResult .stunError (addAttributeFingerprint ctx messageFingerprint)

/-- `Ice_FinalizeStunPacket`, with the message in place of its length; `none` is a NULL password. -/
def finalizeStunPacket (crypto : IceCryptoFunctions) (ctx : StunContext) (password : Option (List UInt8)) :
    Except IceResult (List UInt8) := do
  let ctx ← match password with
    | some pw => addIntegrity crypto ctx pw
    | none => .ok ctx
  let ctx ← addFingerprint crypto ctx
  let (_, message) ← asIceResult .stunError (serializerFinalize ctx)
  return message

/-! ### Reading -/

/-- An address with nothing in it. -/
def noAddress : StunAttributeAddress := ⟨0, 0, List.replicate 16 0, List.length_replicate⟩

/-- `IceStunDeserializedPacketInfo_t` -/
structure IceStunDeserializedPacketInfo where
  useCandidateFlag : Bool := false
  errorCode : UInt16 := 0
  priority : UInt32 := 0
  peerTransportAddress : StunAttributeAddress := noAddress
  relayTransportAddress : StunAttributeAddress := noAddress
  nonce : List UInt8 := []
  realm : List UInt8 := []
  lifetimeSeconds : UInt32 := 0
  deriving DecidableEq

/-- The bytes that the integrity or the fingerprint of a received message is over: the attribute of `n` bytes ends
at the current index, which the header's length is set to.  `StunDeserializer_GetIntegrityBuffer` and
`StunDeserializer_GetFingerprintBuffer` -/
def deserializerGetBuffer (ctx : StunContext) (n : ℕ) : StunContext × List UInt8 :=
  let pStart := putLength ctx.pStart ((ctx.currentIndex - headerLength) % 65536)
  ({ ctx with pStart }, pStart.take ((ctx.currentIndex - n) % 65536))

/-- A failed call of the deserializer in the loop below. -/
def parsed {α : Type} (r : Except StunResult α) : Except IceHandleStunPacketResult α :=
  r.mapError fun _ => .deserializeError

/-- `STUN_ATTRIBUTE_TYPE_MESSAGE_INTEGRITY` in `DeserializeStunPacket`; a password of no bytes is as good as none. -/
def checkIntegrity (crypto : IceCryptoFunctions) (password : List UInt8) (ctx : StunContext) (a : Item) :
    Except IceHandleStunPacketResult StunContext :=
  if password = [] then .error .deserializeError
  else
    let (ctx, data) := deserializerGetBuffer ctx 24
    match crypto.hmacFxn password data with
    | .error _ => .error .integrityMismatch
    | .ok messageIntegrity =>
      if messageIntegrity.length = 20 ∧ messageIntegrity.take a.value.length = a.value then .ok ctx
      else .error .integrityMismatch

/-- `STUN_ATTRIBUTE_TYPE_FINGERPRINT` in `DeserializeStunPacket` -/
def checkFingerprint (crypto : IceCryptoFunctions) (ctx : StunContext) (a : Item) :
    Except IceHandleStunPacketResult StunContext :=
  match parsed (parseAttributeFingerprint a) with
  | .error e => .error e
  | .ok fingerprint =>
    let (ctx, data) := deserializerGetBuffer ctx 8
    match crypto.crc32Fxn data with
    | .error _ => .error .fingerprintMismatch
    | .ok computedFingerprint => if fingerprint = computedFingerprint then .ok ctx else .error .fingerprintMismatch

/-- The `switch` of `DeserializeStunPacket` -/
def onAttribute (crypto : IceCryptoFunctions) (password : List UInt8) (ctx : StunContext)
    (info : IceStunDeserializedPacketInfo) (a : Item) :
    Except IceHandleStunPacketResult (StunContext × IceStunDeserializedPacketInfo) :=
  if a.tag = typeErrorCode then
    (parsed (parseAttributeErrorCode a)).map fun errorCode => (ctx, { info with errorCode })
  else if a.tag = typeXorRelayedAddress then
    (parsed (parseAttributeAddress ctx a info.relayTransportAddress)).map fun relayTransportAddress =>
      (ctx, { info with relayTransportAddress })
  else if a.tag = typeXorMappedAddress then
    (parsed (parseAttributeAddress ctx a info.peerTransportAddress)).map fun peerTransportAddress =>
      (ctx, { info with peerTransportAddress })
  else if a.tag = typeUseCandidate then .ok (ctx, { info with useCandidateFlag := true })
  else if a.tag = typePriority then
    (parsed (parseAttributePriority a)).map fun priority => (ctx, { info with priority })
  else if a.tag = typeMessageIntegrity then (checkIntegrity crypto password ctx a).map fun ctx => (ctx, info)
  else if a.tag = typeFingerprint then (checkFingerprint crypto ctx a).map fun ctx => (ctx, info)
  else if a.tag = typeNonce then .ok (ctx, { info with nonce := a.value })
  else if a.tag = typeRealm then .ok (ctx, { info with realm := a.value })
  else if a.tag = typeLifetime then
    (parsed (parseAttributeLifetime a)).map fun lifetimeSeconds => (ctx, { info with lifetimeSeconds })
  else .ok (ctx, info)

/-- The loop of `DeserializeStunPacket`; `none` is a read outside of the message. -/
def deserializeLoop (crypto : IceCryptoFunctions) (password : List UInt8) :
    ℕ → StunContext → IceStunDeserializedPacketInfo →
      Option (Except IceHandleStunPacketResult IceStunDeserializedPacketInfo)
  | 0, _, _ => none
  | fuel + 1, ctx, info =>
    match getNextAttribute ctx with
    | none => none
    | some (.error e) => some (if e = .noMoreAttributeFound then .ok info else .error .deserializeError)
    | some (.ok (a, ctx)) =>
      match onAttribute crypto password ctx info a with
      | .error e => some (.error e)
      | .ok (ctx, info) => deserializeLoop crypto password fuel ctx info

/-- `DeserializeStunPacket`; every attribute takes four bytes or more. -/
def deserializeStunPacket (crypto : IceCryptoFunctions) (ctx : StunContext) (password : List UInt8) :
    Option (Except IceHandleStunPacketResult IceStunDeserializedPacketInfo) :=
  deserializeLoop crypto password (ctx.pStart.length + 1) ctx {}

end IotcRa8p1.Ice
