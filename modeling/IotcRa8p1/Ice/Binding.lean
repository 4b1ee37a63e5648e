import IotcRa8p1.Ice.ChannelData

/-!
# Binding requests and responses (`ice_api.c`, `ice_api_private.c`)

The three messages with which two agents check a pair of candidates: the connectivity check, the nomination and the
response.  Over a relay each is the payload of channel data.
-/

namespace IotcRa8p1.Ice

open ByteMem BitField Tlv Stun

/-- `STUN_MESSAGE_TYPE_BINDING_REQUEST` -/
abbrev bindingRequest : UInt16 := 0x0001
/-- `STUN_MESSAGE_TYPE_BINDING_SUCCESS_RESPONSE` -/
abbrev bindingSuccessResponse : UInt16 := 0x0101

/-- What the functions below read of `IceContext_t`. -/
structure IceContext where
  combinedUsername : List UInt8
  localPassword : List UInt8
  remotePassword : List UInt8
  tieBreaker : UInt64
  isControlling : Bool
  cryptoFunctions : IceCryptoFunctions

/-- The user name; its length goes through a `uint16_t`. -/
def addUsername (pContext : IceContext) (ctx : StunContext) : Except StunResult StunContext :=
  addAttributeUsername ctx (pContext.combinedUsername.take (pContext.combinedUsername.length % 65536))

/-- `STUN_ATTRIBUTE_TYPE_ICE_CONTROLLED` or `STUN_ATTRIBUTE_TYPE_ICE_CONTROLLING` -/
def addRole (pContext : IceContext) (ctx : StunContext) : Except StunResult StunContext :=
  if pContext.isControlling then addAttributeIceControlling ctx pContext.tieBreaker
  else addAttributeIceControlled ctx pContext.tieBreaker

/-- The attributes of `Ice_CreateRequestForConnectivityCheck` -/
def connectivityCheckAttributes (pContext : IceContext) (pair : IceCandidatePair) (buffer : List UInt8) :
    Except StunResult StunContext := do
  let ctx ← serializerInit buffer ⟨bindingRequest, pair.transactionId⟩
  let ctx ← addUsername pContext ctx
  let ctx ← addAttributePriority ctx pair.localPriority
  addRole pContext ctx

/-- `Ice_CreateRequestForConnectivityCheck` -/
def createRequestForConnectivityCheck (pContext : IceContext) (pair : IceCandidatePair) (buffer : List UInt8) :
    Option (Except IceResult (List UInt8)) :=
  if pair.responseReceivedFlag then some (.error .noNextAction)
  else overRelay pair buffer fun start => do
    let ctx ← asIceResult .stunError (connectivityCheckAttributes pContext pair start)
    finalizeStunPacket pContext.cryptoFunctions ctx (some pContext.remotePassword)

/-- The attributes of `Ice_CreateRequestForNominatingCandidatePair` -/
def nominationAttributes (pContext : IceContext) (pair : IceCandidatePair) (buffer : List UInt8) :
    Except StunResult StunContext := do
  let ctx ← serializerInit buffer ⟨bindingRequest, pair.transactionId⟩
  let ctx ← addUsername pContext ctx
  let ctx ← addAttributePriority ctx pair.localPriority
  let ctx ← addAttributeIceControlling ctx pContext.tieBreaker
  addAttributeUseCandidate ctx

/-- `Ice_CreateRequestForNominatingCandidatePair` -/
def createRequestForNominatingCandidatePair (pContext : IceContext) (pair : IceCandidatePair) (buffer : List UInt8) :
    Option (Except IceResult (List UInt8)) :=
  overRelay pair buffer fun start => do
    let ctx ← asIceResult .stunError (nominationAttributes pContext pair start)
    finalizeStunPacket pContext.cryptoFunctions ctx (some pContext.remotePassword)

/-- The attributes of `Ice_CreateResponseForRequest` -/
def responseAttributes (pContext : IceContext) (pair : IceCandidatePair) (transactionId : TransactionId)
    (buffer : List UInt8) : Except StunResult StunContext := do
  let ctx ← serializerInit buffer ⟨bindingSuccessResponse, transactionId⟩
  let ctx ← addAttributeXorMappedAddress ctx pair.remoteAddress
  addRole pContext ctx

/-- `Ice_CreateResponseForRequest`, which alone asks for room for the header -/
def createResponseForRequest (pContext : IceContext) (pair : IceCandidatePair) (transactionId : TransactionId)
    (buffer : List UInt8) : Option (Except IceResult (List UInt8)) :=
  if pair.localIsRelay ∧ buffer.length < channelDataHeaderLength then some (.error .badParam)
  else overRelay pair buffer fun start => do
    let ctx ← asIceResult .stunError (responseAttributes pContext pair transactionId start)
    finalizeStunPacket pContext.cryptoFunctions ctx (some pContext.localPassword)

/-! ### What is written -/

theorem addUsername_written {header : StunHeader} {pContext : IceContext} {ctx ctx' : StunContext} {as : List Item}
    (h : Written header ctx as) (hadd : addUsername pContext ctx = .ok ctx') :
    ∃ username, Written header ctx' (as ++ [⟨typeUsername, username⟩]) :=
  ⟨_, addAttributeBuffer_written h hadd fun hlt => decide_eq_true hlt⟩

theorem addRole_written {header : StunHeader} {pContext : IceContext} {ctx ctx' : StunContext} {as : List Item}
    (h : Written header ctx as) (hadd : addRole pContext ctx = .ok ctx') :
    ∃ tag value, (tag = typeIceControlled ∨ tag = typeIceControlling) ∧
      Written header ctx' (as ++ [⟨tag, value⟩]) := by
  unfold addRole at hadd
  split_ifs at hadd with hrole
  · exact ⟨_, _, .inr rfl, addAttributeUint64_written h hadd (by decide)⟩
  · exact ⟨_, _, .inl rfl, addAttributeUint64_written h hadd (by decide)⟩

/-- What the other agent makes of an attribute that it does not look for. -/
theorem receive_other {message value : List UInt8} {info : IceStunDeserializedPacketInfo} {tag : UInt16}
    (h : tag = typeUsername ∨ tag = typeIceControlled ∨ tag = typeIceControlling) :
    receive message info ⟨tag, value⟩ = info := by
  rcases h with rfl | rfl | rfl <;> rfl

theorem receive_priority {message : List UInt8} {info : IceStunDeserializedPacketInfo} {priority : UInt32} :
    receive message info ⟨typePriority, beBytes 4 priority.toNat⟩ = { info with priority } := by
  show { info with priority := UInt32.ofNat (beNat (beBytes 4 priority.toNat)) } = _
  rw [beNat_beBytes_of_lt 4 _ priority.toNat_lt, UInt32.ofNat_toNat]

theorem plain_username : Plain typeUsername := by decide

theorem plain_priority : Plain typePriority := by decide

theorem plain_useCandidate : Plain typeUseCandidate := by decide

theorem plain_xorMappedAddress : Plain typeXorMappedAddress := by decide

theorem plain_role {tag : UInt16} (h : tag = typeIceControlled ∨ tag = typeIceControlling) : Plain tag := by
  rcases h with rfl | rfl <;> decide

theorem connectivityCheckAttributes_written {pContext : IceContext} {pair : IceCandidatePair} {buffer : List UInt8}
    {ctx : StunContext} (h : connectivityCheckAttributes pContext pair buffer = .ok ctx) :
    ∃ username tag value, (tag = typeIceControlled ∨ tag = typeIceControlling) ∧
      Written ⟨bindingRequest, pair.transactionId⟩ ctx
        [⟨typeUsername, username⟩, ⟨typePriority, beBytes 4 pair.localPriority.toNat⟩, ⟨tag, value⟩] := by
  obtain ⟨ctx0, h0, h⟩ := bind_eq_ok h
  obtain ⟨ctx1, h1, h⟩ := bind_eq_ok h
  obtain ⟨ctx2, h2, h3⟩ := bind_eq_ok h
  obtain ⟨username, hw1⟩ := addUsername_written (serializerInit_written h0) h1
  have hw2 := addAttributeUint32_written hw1 h2 (by decide)
  obtain ⟨tag, value, hrole, hw3⟩ := addRole_written hw2 h3
  exact ⟨username, tag, value, hrole, hw3⟩

theorem nominationAttributes_written {pContext : IceContext} {pair : IceCandidatePair} {buffer : List UInt8}
    {ctx : StunContext} (h : nominationAttributes pContext pair buffer = .ok ctx) :
    ∃ username, Written ⟨bindingRequest, pair.transactionId⟩ ctx
      [⟨typeUsername, username⟩, ⟨typePriority, beBytes 4 pair.localPriority.toNat⟩,
        ⟨typeIceControlling, beBytes 8 pContext.tieBreaker.toNat⟩, ⟨typeUseCandidate, []⟩] := by
  obtain ⟨ctx0, h0, h⟩ := bind_eq_ok h
  obtain ⟨ctx1, h1, h⟩ := bind_eq_ok h
  obtain ⟨ctx2, h2, h⟩ := bind_eq_ok h
  obtain ⟨ctx3, h3, h4⟩ := bind_eq_ok h
  obtain ⟨username, hw1⟩ := addUsername_written (serializerInit_written h0) h1
  have hw2 := addAttributeUint32_written hw1 h2 (by decide)
  have hw3 := addAttributeUint64_written hw2 h3 (by decide)
  exact ⟨username, addAttributeTypeOnly_written hw3 h4 (by decide)⟩

theorem responseAttributes_written {pContext : IceContext} {pair : IceCandidatePair} {transactionId : TransactionId}
    {buffer : List UInt8} {ctx : StunContext} (h : responseAttributes pContext pair transactionId buffer = .ok ctx) :
    ∃ tag value, (tag = typeIceControlled ∨ tag = typeIceControlling) ∧ ∀ n body,
      Written ⟨bindingSuccessResponse, transactionId⟩ ctx
        [⟨typeXorMappedAddress, addressValue (xorAddress
          (headerBytes ⟨bindingSuccessResponse, transactionId⟩ n ++ body) pair.remoteAddress)⟩, ⟨tag, value⟩] := by
  obtain ⟨ctx0, h0, h⟩ := bind_eq_ok h
  obtain ⟨ctx1, h1, h2⟩ := bind_eq_ok h
  have hw0 := serializerInit_written h0
  have hw1 := addAttributeAddress_written (by decide) hw0 h1
  obtain ⟨tag, value, hrole, hw2⟩ := addRole_written hw1 h2
  refine ⟨tag, value, hrole, fun n body => ?_⟩
  rw [← hw0.xorAddress_eq]
  exact hw2

section accepted

variable {pContext : IceContext} {pair : IceCandidatePair} {buffer message : List UInt8}

/-- What a pair sends is a STUN message that the other agent reads as `info`, on its channel if it has one. -/
def Understood (crypto : IceCryptoFunctions) (password : List UInt8) (pair : IceCandidatePair)
    (message : List UInt8) (header : StunHeader) (info : IceStunDeserializedPacketInfo) : Prop :=
  ∃ stun, message = sentFor pair stun ∧ (pair.localIsRelay → stun.length < 65536) ∧
    Accepts crypto password stun header info

theorem connectivityCheck_understood (hpassword : pContext.remotePassword ≠ [])
    (h : createRequestForConnectivityCheck pContext pair buffer = some (.ok message)) :
    Understood pContext.cryptoFunctions pContext.remotePassword pair message ⟨bindingRequest, pair.transactionId⟩
      { priority := pair.localPriority } := by
  unfold createRequestForConnectivityCheck at h
  by_cases hflag : pair.responseReceivedFlag
  · rw [if_pos hflag] at h
    cases h
  rw [if_neg hflag] at h
  obtain ⟨start, message, h, hsent, hlength⟩ := overRelay_eq_ok h
  refine ⟨message, hsent, hlength, ?_⟩
  obtain ⟨ctx, hctx, hfinal⟩ := bind_eq_ok h
  obtain ⟨username, tag, value, hrole, hwritten⟩ := connectivityCheckAttributes_written (asIceResult_eq_ok hctx)
  have hplain : ∀ x ∈ [Item.mk typeUsername username, ⟨typePriority, beBytes 4 pair.localPriority.toNat⟩,
      ⟨tag, value⟩], Plain x.tag := by
    refine List.forall_mem_cons.mpr ⟨plain_username, List.forall_mem_cons.mpr ⟨plain_priority, ?_⟩⟩
    exact List.forall_mem_singleton.mpr (plain_role hrole)
  have hinfo : receive message (receive message (receive message {} ⟨typeUsername, username⟩)
      ⟨typePriority, beBytes 4 pair.localPriority.toNat⟩) ⟨tag, value⟩ = { priority := pair.localPriority } := by
    rw [receive_other (.inr hrole), receive_priority, receive_other (.inl rfl)]
  exact hinfo ▸ finalizeStunPacket_accepted hwritten hplain hpassword hfinal

theorem nomination_understood (hpassword : pContext.remotePassword ≠ [])
    (h : createRequestForNominatingCandidatePair pContext pair buffer = some (.ok message)) :
    Understood pContext.cryptoFunctions pContext.remotePassword pair message ⟨bindingRequest, pair.transactionId⟩
      { priority := pair.localPriority, useCandidateFlag := true } := by
  obtain ⟨start, message, h, hsent, hlength⟩ := overRelay_eq_ok h
  refine ⟨message, hsent, hlength, ?_⟩
  obtain ⟨ctx, hctx, hfinal⟩ := bind_eq_ok h
  obtain ⟨username, hwritten⟩ := nominationAttributes_written (asIceResult_eq_ok hctx)
  have hplain : ∀ x ∈ [Item.mk typeUsername username, ⟨typePriority, beBytes 4 pair.localPriority.toNat⟩,
      ⟨typeIceControlling, beBytes 8 pContext.tieBreaker.toNat⟩, ⟨typeUseCandidate, []⟩], Plain x.tag := by
    refine List.forall_mem_cons.mpr ⟨plain_username, List.forall_mem_cons.mpr ⟨plain_priority, ?_⟩⟩
    refine List.forall_mem_cons.mpr ⟨plain_role (.inr rfl), List.forall_mem_singleton.mpr ?_⟩
    exact plain_useCandidate
  have hinfo : receive message (receive message (receive message (receive message {} ⟨typeUsername, username⟩)
      ⟨typePriority, beBytes 4 pair.localPriority.toNat⟩) ⟨typeIceControlling, beBytes 8 pContext.tieBreaker.toNat⟩)
      ⟨typeUseCandidate, []⟩ = { priority := pair.localPriority, useCandidateFlag := true } := by
    rw [receive_other (.inr (.inr rfl)), receive_priority, receive_other (.inl rfl)]
    rfl
  exact hinfo ▸ finalizeStunPacket_accepted hwritten hplain hpassword hfinal

theorem response_understood {transactionId : TransactionId} (hpassword : pContext.localPassword ≠ [])
    (h : createResponseForRequest pContext pair transactionId buffer = some (.ok message)) :
    ∃ address, isSameTransportAddress pair.remoteAddress address ∧
      Understood pContext.cryptoFunctions pContext.localPassword pair message
        ⟨bindingSuccessResponse, transactionId⟩ { peerTransportAddress := address } := by
  unfold createResponseForRequest at h
  by_cases hshort : pair.localIsRelay ∧ buffer.length < channelDataHeaderLength
  · rw [if_pos hshort] at h
    cases h
  rw [if_neg hshort] at h
  obtain ⟨start, message, h, hsent, hlength⟩ := overRelay_eq_ok h
  obtain ⟨ctx, hctx, hfinal⟩ := bind_eq_ok h
  obtain ⟨tag, value, hrole, hwritten⟩ := responseAttributes_written (asIceResult_eq_ok hctx)
  have hplain : ∀ address : List UInt8, ∀ x ∈ [Item.mk typeXorMappedAddress address, ⟨tag, value⟩], Plain x.tag := by
    intro address
    refine List.forall_mem_cons.mpr ⟨plain_xorMappedAddress, ?_⟩
    exact List.forall_mem_singleton.mpr (plain_role hrole)
  -- the message is known once it is accepted: its transaction ID is the key that the address was XORed with
  obtain ⟨_, hinit, _⟩ := finalizeStunPacket_accepted (hwritten 0 []) (hplain _) hpassword hfinal
  obtain ⟨body, -, hmessage, -⟩ := (deserializerInit_iff _ _ _).mp hinit
  have haccepted := finalizeStunPacket_accepted (hwritten body.length body) (hplain _) hpassword hfinal
  rw [← hmessage] at haccepted
  refine ⟨addressIn message ⟨typeXorMappedAddress, addressValue (xorAddress message pair.remoteAddress)⟩ noAddress,
    addressIn_xorAddress noAddress, message, hsent, hlength, ?_⟩
  have hinfo : receive message (receive message {} ⟨typeXorMappedAddress,
      addressValue (xorAddress message pair.remoteAddress)⟩) ⟨tag, value⟩ =
      { peerTransportAddress := addressIn message ⟨typeXorMappedAddress,
        addressValue (xorAddress message pair.remoteAddress)⟩ noAddress } := by
    rw [receive_other (.inr hrole)]
    rfl
  exact hinfo ▸ haccepted

end accepted

/-- **Binding messages are understood.**  Of two agents with one password for the requests of the one and the
responses of the other, each reads what the other writes: of a connectivity check the priority, of a nomination also
that the candidate is to be used, of a response the address that the request came from.  Over a relay the message is
channel data, which is taken back to the STUN message and the pair of the channel. -/
theorem binding_understood (a b : IceContext) (hcrypto : a.cryptoFunctions = b.cryptoFunctions)
    (hpassword : a.remotePassword = b.localPassword) (hsome : a.remotePassword ≠ []) :
    (∀ pair buffer message, createRequestForConnectivityCheck a pair buffer = some (.ok message) →
      Understood b.cryptoFunctions b.localPassword pair message ⟨bindingRequest, pair.transactionId⟩
        { priority := pair.localPriority }) ∧
    (∀ pair buffer message, createRequestForNominatingCandidatePair a pair buffer = some (.ok message) →
      Understood b.cryptoFunctions b.localPassword pair message ⟨bindingRequest, pair.transactionId⟩
        { priority := pair.localPriority, useCandidateFlag := true }) ∧
    (∀ pair transactionId buffer message,
      createResponseForRequest b pair transactionId buffer = some (.ok message) →
      ∃ address, isSameTransportAddress pair.remoteAddress address ∧
        Understood a.cryptoFunctions a.remotePassword pair message ⟨bindingSuccessResponse, transactionId⟩
          { peerTransportAddress := address }) ∧
    ∀ pairs candidate number stun i, IsChannelNumber number → stun.length < 65536 → candidate.relays →
      channelPair pairs candidate number = some i →
      handleTurnPacket pairs candidate (channelData number stun) = .ok (stun, i) := by
  rw [hcrypto.symm, hpassword.symm]
  refine ⟨fun pair buffer message h => connectivityCheck_understood hsome h,
    fun pair buffer message h => nomination_understood hsome h, fun pair transactionId buffer message h => ?_,
    fun pairs candidate number stun i hnumber hlength hrelays hpair =>
      handleTurnPacket_channelData hnumber hlength hrelays hpair⟩
  rw [hcrypto, hpassword]
  exact response_understood (hpassword ▸ hsome) h

theorem exists_of_isOk {ε α : Type} {r : Except ε α} (h : r.isOk = true) : ∃ a, r = .ok a := by
  cases r with
  | error e => cases h
  | ok a => exact ⟨a, rfl⟩

theorem exists_of_map_isOk {ε α : Type} {r : Option (Except ε α)} (h : r.map Except.isOk = some true) :
    ∃ a, r = some (.ok a) := by
  obtain ⟨result, rfl, hok⟩ := Option.map_eq_some_iff.mp h
  obtain ⟨a, rfl⟩ := exists_of_isOk hok
  exact ⟨a, rfl⟩

/-- A small agent whose integrity is always the same and whose fingerprint is 0. -/
def smallAgent : IceContext :=
  ⟨[0x61, 0x3A, 0x62], [0x70], [0x70], 1, true,
    ⟨fun _ => (.ok, ⟨List.replicate 12 0, List.length_replicate⟩), fun _ => .ok 0,
      fun _ _ => .ok (List.replicate 20 0), fun _ => .ok []⟩⟩

def smallPair : IceCandidatePair :=
  { localIsRelay := false, localPriority := 7
    remoteAddress := ⟨addressIPv4, 5000, List.replicate 16 1, List.length_replicate⟩
    state := .waiting, responseReceivedFlag := false
    transactionId := ⟨List.replicate 12 9, List.length_replicate⟩, turnChannelNumber := 0x4000 }

/-- The same over a relay. -/
def relayedPair : IceCandidatePair := { smallPair with localIsRelay := true }

theorem binding_understood_small :
    (∃ message, createRequestForConnectivityCheck smallAgent smallPair (List.replicate 80 0) = some (.ok message) ∧
      Understood smallAgent.cryptoFunctions smallAgent.localPassword smallPair message
        ⟨bindingRequest, smallPair.transactionId⟩ { priority := 7 }) ∧
    (∃ message stun, createRequestForNominatingCandidatePair smallAgent relayedPair (List.replicate 88 0) =
        some (.ok message) ∧
      handleTurnPacket [(noAddress, 0x4000)] ⟨true, .valid, noAddress⟩ message = .ok (stun, 0) ∧
      Accepts smallAgent.cryptoFunctions smallAgent.localPassword stun
        ⟨bindingRequest, smallPair.transactionId⟩ { priority := 7, useCandidateFlag := true }) ∧
    ∃ message address, createResponseForRequest smallAgent smallPair smallPair.transactionId (List.replicate 80 0) =
        some (.ok message) ∧ isSameTransportAddress smallPair.remoteAddress address ∧
      Understood smallAgent.cryptoFunctions smallAgent.remotePassword smallPair message
        ⟨bindingSuccessResponse, smallPair.transactionId⟩ { peerTransportAddress := address } := by
  obtain ⟨hcheck, hnominate, hresponse, hread⟩ := binding_understood smallAgent smallAgent rfl rfl (by decide)
  have hok : ((createRequestForConnectivityCheck smallAgent smallPair (List.replicate 80 0)).map Except.isOk,
      (createRequestForNominatingCandidatePair smallAgent relayedPair (List.replicate 88 0)).map Except.isOk,
      (createResponseForRequest smallAgent smallPair smallPair.transactionId (List.replicate 80 0)).map
        Except.isOk) = (some true, some true, some true) := by
    decide +kernel
  simp only [Prod.mk.injEq] at hok
  obtain ⟨request, hrequest⟩ := exists_of_map_isOk hok.1
  obtain ⟨nomination, hnomination⟩ := exists_of_map_isOk hok.2.1
  obtain ⟨message, hmessage⟩ := exists_of_map_isOk hok.2.2
  obtain ⟨stun, hsent, hlength, haccepted⟩ := hnominate _ _ _ hnomination
  have hpair : channelPair [(noAddress, 0x4000)] ⟨true, .valid, noAddress⟩ 0x4000 = some 0 := by decide
  have hstun := hread _ _ 0x4000 stun 0 ⟨by decide, by decide⟩ (hlength rfl) rfl hpair
  obtain ⟨address, hsame, hunderstood⟩ := hresponse _ _ _ _ hmessage
  refine ⟨⟨request, hrequest, hcheck _ _ _ hrequest⟩, ⟨nomination, stun, hnomination, ?_, haccepted⟩,
    message, address, hmessage, hsame, hunderstood⟩
  rw [hsent]
  exact hstun

end IotcRa8p1.Ice
