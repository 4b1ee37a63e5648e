import IotcRa8p1.Ice.Binding

/-!
# Requests to a TURN server (`ice_api_private.c`)

The four requests by which the agent gets and keeps an address of a relay.  The first one goes out without the realm
and the nonce, which the server's answer gives, and so without an integrity.
-/

namespace IotcRa8p1.Ice

open ByteMem BitField Tlv Stun

/-- `STUN_MESSAGE_TYPE_ALLOCATE_REQUEST` -/
abbrev messageTypeAllocateRequest : UInt16 := 0x0003
/-- `STUN_MESSAGE_TYPE_REFRESH_REQUEST` -/
abbrev messageTypeRefreshRequest : UInt16 := 0x0004
/-- `STUN_MESSAGE_TYPE_CREATE_PERMISSION_REQUEST` -/
abbrev messageTypeCreatePermissionRequest : UInt16 := 0x0008
/-- `STUN_MESSAGE_TYPE_CHANNEL_BIND_REQUEST` -/
abbrev messageTypeChannelBindRequest : UInt16 := 0x0009

/-- `ICE_DEFAULT_TURN_ALLOCATION_LIFETIME_SECONDS` -/
abbrev defaultTurnAllocationLifetimeSeconds : UInt32 := 600

/-- What the requests use of `IceTurnServer_t`. -/
structure IceTurnServer where
  userName : List UInt8
  nonce : List UInt8
  realm : List UInt8
  longTermPassword : List UInt8

/-- A value goes into the message once the agent has it. -/
def addKnown (e : IceResult) (add : StunContext → List UInt8 → Except StunResult StunContext) (value : List UInt8)
    (ctx : StunContext) : Except IceResult StunContext :=
  if 0 < value.length then asIceResult e (add ctx value) else .ok ctx

/-- The user name, the realm and the nonce of the server, as far as the agent has them. -/
def addKnownCredentials (server : IceTurnServer) (ctx : StunContext) : Except IceResult StunContext := do
  let ctx ← addKnown .stunErrorAddUsername addAttributeUsername server.userName ctx
  let ctx ← addKnown .stunErrorAddRealm addAttributeRealm server.realm ctx
  addKnown .stunErrorAddNonce addAttributeNonce server.nonce ctx

/-- The user name, the realm and the nonce of the server, all of them. -/
def addCredentials (server : IceTurnServer) (ctx : StunContext) : Except IceResult StunContext := do
  let ctx ← asIceResult .stunErrorAddUsername (addAttributeUsername ctx server.userName)
  let ctx ← asIceResult .stunErrorAddRealm (addAttributeRealm ctx server.realm)
  asIceResult .stunErrorAddNonce (addAttributeNonce ctx server.nonce)

/-- `Ice_FinalizeStunPacket` with the long-term password, once it has been generated -/
def finalizeWithKnownPassword (crypto : IceCryptoFunctions) (server : IceTurnServer) (ctx : StunContext) :
    Except IceResult (List UInt8) :=
  if 0 < server.longTermPassword.length then finalizeStunPacket crypto ctx (some server.longTermPassword)
  else finalizeStunPacket crypto ctx none

/-- `Ice_CreateAllocationRequest` -/
def createAllocationRequest (crypto : IceCryptoFunctions) (server : IceTurnServer) (transactionId : TransactionId)
    (buffer : List UInt8) : Except IceResult (List UInt8) := do
  let ctx ← asIceResult .stunError (serializerInit buffer ⟨messageTypeAllocateRequest, transactionId⟩)
  let ctx ← asIceResult .stunErrorAddLifetime (addAttributeLifetime ctx defaultTurnAllocationLifetimeSeconds)
  let ctx ← asIceResult .stunErrorAddRequestedTransport (addAttributeRequestedTransport ctx)
  let ctx ← addKnownCredentials server ctx
  finalizeWithKnownPassword crypto server ctx

/-- `Ice_CreateRefreshRequest` -/
def createRefreshRequest (crypto : IceCryptoFunctions) (server : IceTurnServer) (transactionId : TransactionId)
    (lifetime : UInt32) (buffer : List UInt8) : Except IceResult (List UInt8) := do
  let ctx ← asIceResult .stunError (serializerInit buffer ⟨messageTypeRefreshRequest, transactionId⟩)
  let ctx ← asIceResult .stunErrorAddLifetime (addAttributeLifetime ctx lifetime)
  let ctx ← addKnownCredentials server ctx
  finalizeWithKnownPassword crypto server ctx

/-- What `Ice_CreatePermissionRequest` and `Ice_CreateChannelBindRequest` ask for first. -/
def hasCredentials (server : IceTurnServer) : Bool :=
  ¬(server.longTermPassword.length = 0 ∨ server.realm.length = 0 ∨ server.nonce.length = 0)

/-- `Ice_CreatePermissionRequest`, for a relay candidate -/
def createPermissionRequest (crypto : IceCryptoFunctions) (server : IceTurnServer) (transactionId : TransactionId)
    (remoteAddress : StunAttributeAddress) (buffer : List UInt8) : Except IceResult (List UInt8) :=
  if ¬hasCredentials server then .error .invalidCandidateCredential
  else do
    let ctx ← asIceResult .stunError (serializerInit buffer ⟨messageTypeCreatePermissionRequest, transactionId⟩)
    let ctx ← asIceResult .stunErrorAddXorPeerAddress (addAttributeAddress ctx remoteAddress typeXorPeerAddress)
    let ctx ← addCredentials server ctx
    finalizeStunPacket crypto ctx (some server.longTermPassword)

/-- `Ice_CreateChannelBindRequest`, for a relay candidate -/
def createChannelBindRequest (crypto : IceCryptoFunctions) (server : IceTurnServer) (transactionId : TransactionId)
    (remoteAddress : StunAttributeAddress) (turnChannelNumber : UInt16) (buffer : List UInt8) :
    Except IceResult (List UInt8) :=
  if ¬hasCredentials server then .error .invalidCandidateCredential
  else do
    let ctx ← asIceResult .stunError (serializerInit buffer ⟨messageTypeChannelBindRequest, transactionId⟩)
    let ctx ← asIceResult .stunErrorAddXorPeerAddress (addAttributeAddress ctx remoteAddress typeXorPeerAddress)
    let ctx ← asIceResult .stunErrorAddChannelNumber (addAttributeChannelNumber ctx turnChannelNumber)
    let ctx ← addCredentials server ctx
    finalizeStunPacket crypto ctx (some server.longTermPassword)

/-! ### What is written -/

/-- The attribute of a value, where there is one. -/
def known (tag : UInt16) (value : List UInt8) : List Item := if 0 < value.length then [⟨tag, value⟩] else []

/-- The attributes of the credentials that the agent has. -/
def credentials (server : IceTurnServer) : List Item :=
  known typeUsername server.userName ++ known typeRealm server.realm ++ known typeNonce server.nonce

section written

variable {header : StunHeader} {ctx ctx' : StunContext} {as : List Item} {server : IceTurnServer}

/-- Every tag but those with a length of their own takes up to 512 bytes. -/
theorem addValue_written {tag : UInt16} {value : List UInt8} (h : Written header ctx as)
    (hadd : addAttributeBuffer ctx tag value = .ok ctx')
    (hvalid : value.length ≤ 512 → isAttributeLengthValid tag value.length) :
    Written header ctx' (as ++ known tag value) := by
  have hwritten := addAttributeBuffer_written h hadd hvalid
  unfold addAttributeBuffer at hadd
  split_ifs at hadd with hsize
  have hpos : 0 < value.length := by omega
  rwa [known, if_pos hpos]

theorem addCredentials_written (h : Written header ctx as) (hadd : addCredentials server ctx = .ok ctx') :
    Written header ctx' (as ++ credentials server) := by
  obtain ⟨ctx1, h1, hrest⟩ := bind_eq_ok hadd
  obtain ⟨ctx2, h2, h3⟩ := bind_eq_ok hrest
  have hw1 := addValue_written h (asIceResult_eq_ok h1) fun hlt => decide_eq_true hlt
  have hw2 := addValue_written hw1 (asIceResult_eq_ok h2) fun hlt => decide_eq_true hlt
  have hw3 := addValue_written hw2 (asIceResult_eq_ok h3) fun hlt => decide_eq_true hlt
  rwa [List.append_assoc, List.append_assoc, ← List.append_assoc (known _ _)] at hw3

/-- A value that is not there is not written. -/
theorem addKnown_written {tag : UInt16} {value : List UInt8} {e : IceResult} (h : Written header ctx as)
    (hadd : addKnown e (fun ctx value => addAttributeBuffer ctx tag value) value ctx = .ok ctx')
    (hvalid : value.length ≤ 512 → isAttributeLengthValid tag value.length) :
    Written header ctx' (as ++ known tag value) := by
  unfold addKnown at hadd
  split_ifs at hadd with hpos
  · exact addValue_written h (asIceResult_eq_ok hadd) hvalid
  · rw [known, if_neg hpos, List.append_nil, ← Except.ok.inj hadd]
    exact h

theorem addKnownCredentials_written (h : Written header ctx as) (hadd : addKnownCredentials server ctx = .ok ctx') :
    Written header ctx' (as ++ credentials server) := by
  obtain ⟨ctx1, h1, hrest⟩ := bind_eq_ok hadd
  obtain ⟨ctx2, h2, h3⟩ := bind_eq_ok hrest
  have hw1 := addKnown_written h h1 fun hlt => decide_eq_true hlt
  have hw2 := addKnown_written hw1 h2 fun hlt => decide_eq_true hlt
  have hw3 := addKnown_written hw2 h3 fun hlt => decide_eq_true hlt
  rwa [List.append_assoc, List.append_assoc, ← List.append_assoc (known _ _)] at hw3

theorem checkAndUpdateAttributeFlag_plain {tag : UInt16} (h1 : tag ≠ typeFingerprint)
    (h2 : tag ≠ typeMessageIntegrity) : checkAndUpdateAttributeFlag ctx tag =
      if ctx.fingerprintFlag ∨ ctx.integrityFlag then .error .invalidAttributeOrder else .ok ctx := by
  rw [checkAndUpdateAttributeFlag, if_neg h1, if_neg h2]
  by_cases hf : ctx.fingerprintFlag
  · rw [if_pos hf, if_pos (.inl hf)]
  · rw [if_neg hf]
    by_cases hi : ctx.integrityFlag
    · rw [if_pos ⟨hi, h1⟩, if_pos (.inr hi)]
    · rw [if_neg fun h => hi h.1, if_neg fun h => h.elim hf hi]

/-- The order is checked with another type than the one that is written, which makes no difference. -/
theorem addAttributeChannelNumber_written {channelNumber : UInt16} (h : Written header ctx as)
    (hadd : addAttributeChannelNumber ctx channelNumber = .ok ctx') :
    Written header ctx' (as ++ [⟨typeChannelNumber, beBytes 2 channelNumber.toNat ++ beBytes 2 0⟩]) := by
  have hlen : (beBytes 2 channelNumber.toNat ++ beBytes 2 0).length = 4 := by
    rw [List.length_append, beBytes_length, beBytes_length]
  have hsame : checkAndUpdateAttributeFlag ctx typeErrorCode = checkAndUpdateAttributeFlag ctx typeChannelNumber := by
    rw [checkAndUpdateAttributeFlag_plain (by decide) (by decide),
      checkAndUpdateAttributeFlag_plain (by decide) (by decide)]
  have hadd' : addAttribute ctx typeChannelNumber
      ⟨typeChannelNumber, beBytes 2 channelNumber.toNat ++ beBytes 2 0⟩ = .ok ctx' := by
    rw [addAttribute, ← hsame]
    exact hadd
  refine addAttribute_written (a := ⟨typeChannelNumber, _⟩) h hadd' ?_ ?_
  · show isAttributeLengthValid typeChannelNumber _
    rw [hlen]
    decide
  · show (beBytes 2 channelNumber.toNat ++ beBytes 2 0).length < 65536
    rw [hlen]
    decide

end written

/-! ### What is read -/

theorem receive_known (message : List UInt8) (info : IceStunDeserializedPacketInfo) {tag : UInt16}
    {value : List UInt8} {info' : IceStunDeserializedPacketInfo} (hsome : receive message info ⟨tag, value⟩ = info')
    (hnone : value = [] → info = info') : (known tag value).foldl (receive message) info = info' := by
  unfold known
  split_ifs with hpos
  · exact hsome
  · exact hnone (List.eq_nil_of_length_eq_zero (by omega))

/-- Of the credentials the realm and the nonce are read. -/
theorem receive_credentials (message : List UInt8) (server : IceTurnServer) (lifetimeSeconds : UInt32) :
    (credentials server).foldl (receive message) { lifetimeSeconds } =
      { nonce := server.nonce, realm := server.realm, lifetimeSeconds } := by
  have h1 : (known typeUsername server.userName).foldl (receive message) { lifetimeSeconds } = { lifetimeSeconds } :=
    receive_known message _ rfl fun _ => rfl
  have h2 : (known typeRealm server.realm).foldl (receive message) { lifetimeSeconds } =
      { realm := server.realm, lifetimeSeconds } := by
    refine receive_known message _ rfl fun hnil => ?_
    rw [hnil]
  have h3 : (known typeNonce server.nonce).foldl (receive message) { realm := server.realm, lifetimeSeconds } =
      { nonce := server.nonce, realm := server.realm, lifetimeSeconds } := by
    refine receive_known message _ rfl fun hnil => ?_
    rw [hnil]
  rw [credentials, List.foldl_append, List.foldl_append, h1, h2, h3]

theorem receive_lifetime (message : List UInt8) (lifetime : UInt32) :
    receive message {} ⟨typeLifetime, beBytes 4 lifetime.toNat⟩ = { lifetimeSeconds := lifetime } := by
  show ({ lifetimeSeconds := UInt32.ofNat (beNat (beBytes 4 lifetime.toNat)) } : IceStunDeserializedPacketInfo) = _
  rw [beNat_beBytes_of_lt 4 _ lifetime.toNat_lt, UInt32.ofNat_toNat]

theorem plain_known {tag : UInt16} {value : List UInt8} (h : Plain tag) : ∀ a ∈ known tag value, Plain a.tag := by
  intro a ha
  unfold known at ha
  split_ifs at ha
  · rw [List.mem_singleton.mp ha]
    exact h
  · cases ha

theorem plain_credentials (server : IceTurnServer) : ∀ a ∈ credentials server, Plain a.tag := by
  intro a ha
  rcases List.mem_append.mp ha with ha | ha
  · rcases List.mem_append.mp ha with ha | ha
    · exact plain_known (by decide) a ha
    · exact plain_known (by decide) a ha
  · exact plain_known (by decide) a ha

theorem plain_one {tag : UInt16} {value : List UInt8} (h : Plain tag) : ∀ a ∈ [Item.mk tag value], Plain a.tag :=
  List.forall_mem_singleton.mpr h

theorem plain_two {tag tag' : UInt16} {value value' : List UInt8} (h : Plain tag) (h' : Plain tag') :
    ∀ a ∈ [Item.mk tag value, ⟨tag', value'⟩], Plain a.tag :=
  List.forall_mem_cons.mpr ⟨h, plain_one h'⟩

/-- A message that starts with these attributes and goes on with the credentials. -/
theorem plain_withCredentials {as : List Item} {server : IceTurnServer} (h : ∀ a ∈ as, Plain a.tag) :
    ∀ a ∈ as ++ credentials server, Plain a.tag := by
  intro a ha
  rcases List.mem_append.mp ha with ha | ha
  · exact h a ha
  · exact plain_credentials server a ha

/-- A request is read with the long-term password, or with any where none has been generated yet. -/
def IceTurnServer.ReadWith (server : IceTurnServer) (password : List UInt8) : Prop :=
  password = server.longTermPassword ∨ server.longTermPassword = []

theorem finalizeWithKnownPassword_accepted {crypto : IceCryptoFunctions} {header : StunHeader} {ctx : StunContext}
    {as : List Item} {server : IceTurnServer} {password message : List UInt8} (h : Written header ctx as)
    (hplain : ∀ a ∈ as, Plain a.tag) (hpassword : server.ReadWith password)
    (hok : finalizeWithKnownPassword crypto server ctx = .ok message) :
    Accepts crypto password message header (as.foldl (receive message) {}) := by
  unfold finalizeWithKnownPassword at hok
  split_ifs at hok with hpos
  · have hsome := List.ne_nil_of_length_pos hpos
    rw [hpassword.resolve_right hsome]
    exact finalizeStunPacket_accepted h hplain hsome hok
  · exact finalizeStunPacket_open h hplain hok

/-- With credentials there is a long-term password, so that it is the one. -/
theorem password_of_hasCredentials {server : IceTurnServer} {password : List UInt8} (h : hasCredentials server)
    (hpassword : server.ReadWith password) : server.longTermPassword = password ∧ password ≠ [] := by
  have hsome : server.longTermPassword ≠ [] := by
    intro hnil
    simp [hasCredentials, hnil] at h
  have hsame := hpassword.resolve_right hsome
  exact ⟨hsame.symm, hsame ▸ hsome⟩

section accepted

variable {crypto : IceCryptoFunctions} {server : IceTurnServer} {transactionId : TransactionId}
  {password buffer message : List UInt8}

theorem allocation_accepted (hpassword : server.ReadWith password)
    (h : createAllocationRequest crypto server transactionId buffer = .ok message) :
    Accepts crypto password message ⟨messageTypeAllocateRequest, transactionId⟩
      { nonce := server.nonce, realm := server.realm, lifetimeSeconds := defaultTurnAllocationLifetimeSeconds } := by
  obtain ⟨ctx0, h0, h⟩ := bind_eq_ok h
  obtain ⟨ctx1, h1, h⟩ := bind_eq_ok h
  obtain ⟨ctx2, h2, h⟩ := bind_eq_ok h
  obtain ⟨ctx3, h3, hfinal⟩ := bind_eq_ok h
  have hw0 := serializerInit_written (asIceResult_eq_ok h0)
  have hw1 := addAttributeUint32_written hw0 (asIceResult_eq_ok h1) (by decide)
  have hw2 := addAttributeBuffer_written hw1 (asIceResult_eq_ok h2) fun _ => rfl
  have hw3 := addKnownCredentials_written hw2 h3
  have hlifetime : Plain typeLifetime := by decide
  have htransport : Plain typeRequestedTransport := by decide
  have haccepted := finalizeWithKnownPassword_accepted hw3 (plain_withCredentials (plain_two hlifetime htransport))
    hpassword hfinal
  rw [List.foldl_append] at haccepted
  have hinfo : [Item.mk typeLifetime (beBytes 4 defaultTurnAllocationLifetimeSeconds.toNat),
      ⟨typeRequestedTransport, [0x11, 0x00, 0x00, 0x00]⟩].foldl (receive message) {} =
      { lifetimeSeconds := defaultTurnAllocationLifetimeSeconds } := receive_lifetime message _
  rw [← receive_credentials message, ← hinfo]
  exact haccepted

theorem refresh_accepted (hpassword : server.ReadWith password) {lifetime : UInt32}
    (h : createRefreshRequest crypto server transactionId lifetime buffer = .ok message) :
    Accepts crypto password message ⟨messageTypeRefreshRequest, transactionId⟩
      { nonce := server.nonce, realm := server.realm, lifetimeSeconds := lifetime } := by
  obtain ⟨ctx0, h0, h⟩ := bind_eq_ok h
  obtain ⟨ctx1, h1, h⟩ := bind_eq_ok h
  obtain ⟨ctx2, h2, hfinal⟩ := bind_eq_ok h
  have hw0 := serializerInit_written (asIceResult_eq_ok h0)
  have hw1 := addAttributeUint32_written hw0 (asIceResult_eq_ok h1) (by decide)
  have hw2 := addKnownCredentials_written hw1 h2
  have hlifetime : Plain typeLifetime := by decide
  have haccepted := finalizeWithKnownPassword_accepted hw2 (plain_withCredentials (plain_one hlifetime)) hpassword
    hfinal
  rw [List.foldl_append] at haccepted
  rw [← receive_credentials message, ← receive_lifetime message]
  exact haccepted

theorem permission_accepted (hpassword : server.ReadWith password) {remoteAddress : StunAttributeAddress}
    (h : createPermissionRequest crypto server transactionId remoteAddress buffer = .ok message) :
    Accepts crypto password message ⟨messageTypeCreatePermissionRequest, transactionId⟩
      { nonce := server.nonce, realm := server.realm } := by
  unfold createPermissionRequest at h
  split_ifs at h with hcredentials
  obtain ⟨hsame, hsome⟩ := password_of_hasCredentials hcredentials hpassword
  rw [hsame] at h
  obtain ⟨ctx0, h0, h⟩ := bind_eq_ok h
  obtain ⟨ctx1, h1, h⟩ := bind_eq_ok h
  obtain ⟨ctx2, h2, hfinal⟩ := bind_eq_ok h
  have hw0 := serializerInit_written (asIceResult_eq_ok h0)
  have hw1 := addAttributeAddress_written (by decide) hw0 (asIceResult_eq_ok h1)
  have hw2 := addCredentials_written hw1 h2
  have hpeer : Plain typeXorPeerAddress := by decide
  have haccepted := finalizeStunPacket_accepted hw2 (plain_withCredentials (plain_one hpeer)) hsome hfinal
  rw [List.foldl_append] at haccepted
  exact receive_credentials message server 0 ▸ haccepted

theorem channelBind_accepted (hpassword : server.ReadWith password) {remoteAddress : StunAttributeAddress}
    {turnChannelNumber : UInt16}
    (h : createChannelBindRequest crypto server transactionId remoteAddress turnChannelNumber buffer = .ok message) :
    Accepts crypto password message ⟨messageTypeChannelBindRequest, transactionId⟩
      { nonce := server.nonce, realm := server.realm } := by
  unfold createChannelBindRequest at h
  split_ifs at h with hcredentials
  obtain ⟨hsame, hsome⟩ := password_of_hasCredentials hcredentials hpassword
  rw [hsame] at h
  obtain ⟨ctx0, h0, h⟩ := bind_eq_ok h
  obtain ⟨ctx1, h1, h⟩ := bind_eq_ok h
  obtain ⟨ctx2, h2, h⟩ := bind_eq_ok h
  obtain ⟨ctx3, h3, hfinal⟩ := bind_eq_ok h
  have hw0 := serializerInit_written (asIceResult_eq_ok h0)
  have hw1 := addAttributeAddress_written (by decide) hw0 (asIceResult_eq_ok h1)
  have hw2 := addAttributeChannelNumber_written hw1 (asIceResult_eq_ok h2)
  have hw3 := addCredentials_written hw2 h3
  have hpeer : Plain typeXorPeerAddress := by decide
  have hchannel : Plain typeChannelNumber := by decide
  have haccepted := finalizeStunPacket_accepted hw3 (plain_withCredentials (plain_two hpeer hchannel)) hsome
    hfinal
  rw [List.foldl_append] at haccepted
  exact receive_credentials message server 0 ▸ haccepted

end accepted

/-- **Requests to a TURN server are well formed.**  Every request that the agent manages to write reads back, with the
long-term password or with any where there is none yet, as a message of its type and transaction ID with the server's
realm and nonce and the lifetime that was asked for. -/
theorem turnRequests_understood (crypto : IceCryptoFunctions) (server : IceTurnServer) (transactionId : TransactionId)
    (password buffer message : List UInt8) (hpassword : server.ReadWith password) :
    (createAllocationRequest crypto server transactionId buffer = .ok message →
      Accepts crypto password message ⟨messageTypeAllocateRequest, transactionId⟩
        { nonce := server.nonce, realm := server.realm, lifetimeSeconds := defaultTurnAllocationLifetimeSeconds }) ∧
    (∀ lifetime, createRefreshRequest crypto server transactionId lifetime buffer = .ok message →
      Accepts crypto password message ⟨messageTypeRefreshRequest, transactionId⟩
        { nonce := server.nonce, realm := server.realm, lifetimeSeconds := lifetime }) ∧
    ∀ remoteAddress,
      (createPermissionRequest crypto server transactionId remoteAddress buffer = .ok message →
        Accepts crypto password message ⟨messageTypeCreatePermissionRequest, transactionId⟩
          { nonce := server.nonce, realm := server.realm }) ∧
      ∀ turnChannelNumber,
        createChannelBindRequest crypto server transactionId remoteAddress turnChannelNumber buffer = .ok message →
        Accepts crypto password message ⟨messageTypeChannelBindRequest, transactionId⟩
          { nonce := server.nonce, realm := server.realm } :=
  ⟨allocation_accepted hpassword, fun _ => refresh_accepted hpassword,
    fun _ => ⟨permission_accepted hpassword, fun _ => channelBind_accepted hpassword⟩⟩

def smallServer : IceTurnServer := ⟨[0x75], [0x6E], [0x72], [0x70]⟩

/-- The server before it has answered: no password, no realm, no nonce. -/
def freshServer : IceTurnServer := { smallServer with longTermPassword := [], realm := [], nonce := [] }

theorem turnRequests_understood_small :
    (∃ message, createAllocationRequest smallAgent.cryptoFunctions freshServer smallPair.transactionId
        (List.replicate 128 0) = .ok message ∧
      Accepts smallAgent.cryptoFunctions [0x71] message ⟨messageTypeAllocateRequest, smallPair.transactionId⟩
        { lifetimeSeconds := defaultTurnAllocationLifetimeSeconds }) ∧
    ∃ message, createChannelBindRequest smallAgent.cryptoFunctions smallServer
        smallPair.transactionId smallPair.remoteAddress 0x4000 (List.replicate 128 0) = .ok message ∧
      Accepts smallAgent.cryptoFunctions smallServer.longTermPassword message
        ⟨messageTypeChannelBindRequest, smallPair.transactionId⟩ { nonce := [0x6E], realm := [0x72] } := by
  have hok : (createAllocationRequest smallAgent.cryptoFunctions freshServer smallPair.transactionId
      (List.replicate 128 0)).isOk = true ∧ (createChannelBindRequest smallAgent.cryptoFunctions smallServer
      smallPair.transactionId smallPair.remoteAddress 0x4000 (List.replicate 128 0)).isOk = true := by
    decide +kernel
  obtain ⟨allocate, hallocate⟩ := exists_of_isOk hok.1
  obtain ⟨bind, hbind⟩ := exists_of_isOk hok.2
  obtain ⟨hfirst, -⟩ := turnRequests_understood smallAgent.cryptoFunctions freshServer smallPair.transactionId
    [0x71] (List.replicate 128 0) allocate (.inr rfl)
  obtain ⟨-, -, hpair⟩ := turnRequests_understood smallAgent.cryptoFunctions smallServer smallPair.transactionId
    smallServer.longTermPassword (List.replicate 128 0) bind (.inl rfl)
  exact ⟨⟨allocate, hallocate, hfirst hallocate⟩, bind, hbind, (hpair smallPair.remoteAddress).2 0x4000 hbind⟩

end IotcRa8p1.Ice
