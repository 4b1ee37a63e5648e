import IotcRa8p1.Ice.StunPacket

/-!
# The walk over a STUN message

What `deserializeStunPacket` does, in terms of the records of the message: it accepts exactly the messages whose
attributes are in order and of valid lengths (`next`) and whose integrity and fingerprint are genuine
(`deserializeLoop_reads`), and it leaves the message exactly where the last attribute is not padded
(`deserializeLoop_overruns`).
-/

namespace IotcRa8p1.Ice

open ByteMem Tlv Stun

/-! ### The next attribute -/

/-- What may follow, by whether a fingerprint and an integrity have been seen. -/
def next (s : Bool × Bool) (a : Item) : Option (Bool × Bool) :=
  if s.1 ∨ s.2 ∧ a.tag ≠ typeFingerprint then none
  else if isAttributeLengthValid a.tag a.value.length then
    some (s.1 || a.tag = typeFingerprint, s.2 || a.tag = typeMessageIntegrity)
  else none

/-- The flags of a context. -/
def flags (ctx : StunContext) : Bool × Bool := (ctx.fingerprintFlag, ctx.integrityFlag)

/-- The bytes not read yet. -/
def rest (ctx : StunContext) : List UInt8 := ctx.pStart.drop ctx.currentIndex

/-- The context behind an attribute. -/
def advance (ctx : StunContext) (a : Item) : StunContext :=
  { ctx with
    currentIndex := ctx.currentIndex + 4 + alignSizeToWord a.value.length
    fingerprintFlag := ctx.fingerprintFlag || a.tag = typeFingerprint
    integrityFlag := ctx.integrityFlag || a.tag = typeMessageIntegrity }

/-- The index is in the message or at its end, behind the header. -/
structure Inside (ctx : StunContext) : Prop where
  header : headerLength ≤ ctx.currentIndex
  index : ctx.currentIndex ≤ ctx.pStart.length

theorem rest_length (ctx : StunContext) : (rest ctx).length = ctx.pStart.length - ctx.currentIndex :=
  List.length_drop

theorem remaining_eq {ctx : StunContext} (h : Inside ctx) : remaining ctx = (rest ctx).length := by
  rw [rest_length, remaining, if_pos h.index]

theorem tagOf_drop_toNat (bs : List UInt8) : (tagOf (bs.drop 2)).toNat = lengthOf bs := by
  have h := lengthOf_lt bs
  rw [lengthOf] at h
  rw [tagOf, UInt16.toNat_ofNat', lengthOf]
  exact Nat.mod_eq_of_lt h

theorem readUint16_rest (ctx : StunContext) (k : ℕ) (h : k + 2 ≤ (rest ctx).length) :
    readUint16 ctx.pStart (ctx.currentIndex + k) = some (tagOf ((rest ctx).drop k)) := by
  rw [rest_length] at h
  rw [readUint16, if_pos (by omega), rest, List.drop_drop]

theorem next_eq_some {s s' : Bool × Bool} {a : Item} (h : next s a = some s') :
    ¬(s.1 ∨ s.2 ∧ a.tag ≠ typeFingerprint) ∧ isAttributeLengthValid a.tag a.value.length ∧
      s' = (s.1 || a.tag = typeFingerprint, s.2 || a.tag = typeMessageIntegrity) := by
  unfold next at h
  split_ifs at h with horder hvalid
  exact ⟨horder, hvalid, (Option.some.inj h).symm⟩

theorem flags_advance {ctx : StunContext} {a : Item} {s : Bool × Bool} (h : next (flags ctx) a = some s) :
    flags (advance ctx a) = s :=
  (next_eq_some h).2.2.symm

/-- Behind the attributes there is no next one. -/
theorem getNextAttribute_done {ctx : StunContext} (h : Inside ctx) (hshort : (rest ctx).length < 4) :
    getNextAttribute ctx = some (.error .noMoreAttributeFound) := by
  rw [getNextAttribute, remaining_eq h, if_pos hshort]

/-- Behind the message there is nothing to read. -/
theorem getNextAttribute_behind {ctx : StunContext} (h : ctx.pStart.length < ctx.currentIndex)
    (hnear : ctx.currentIndex < ctx.pStart.length + 4) : getNextAttribute ctx = none := by
  have hrem : ¬remaining ctx < 4 := by
    rw [remaining, if_neg (by omega)]
    omega
  rw [getNextAttribute, if_neg hrem, readUint16, if_neg (by omega)]

variable {ctx : StunContext} {a : Item} {tl : List UInt8}

/-- The next attribute is read where it is allowed. -/
theorem getNextAttribute_item (h : Inside ctx) (hrest : rest ctx = a.bytes ++ tl)
    (hlt : a.value.length < 65536) {s : Bool × Bool} (hnext : next (flags ctx) a = some s) :
    getNextAttribute ctx = some (.ok (a, advance ctx a)) := by
  have hlen : (rest ctx).length = 4 + a.value.length + tl.length := by
    rw [hrest, List.length_append, bytes_length]
  obtain ⟨horder, hvalid, -⟩ : ¬(ctx.fingerprintFlag ∨ ctx.integrityFlag ∧ a.tag ≠ typeFingerprint) ∧ _ ∧ _ :=
    next_eq_some hnext
  have htag := readUint16_rest ctx 0 (by omega)
  have hlength := readUint16_rest ctx 2 (by omega)
  rw [Nat.add_zero, List.drop_zero, hrest, tagOf_bytes] at htag
  have hn : (tagOf ((rest ctx).drop 2)).toNat = a.value.length := by
    rw [tagOf_drop_toNat, hrest, lengthOf_bytes hlt]
  have hvalue : (ctx.pStart.drop (ctx.currentIndex + 4)).take a.value.length = a.value := by
    rw [← List.drop_drop]
    show ((rest ctx).drop 4).take _ = _
    rw [hrest, value_bytes]
  unfold getNextAttribute
  rw [remaining_eq h, if_neg (by omega), htag]
  dsimp only
  rw [if_neg horder, hlength]
  dsimp only
  rw [hn, if_neg (by omega), if_pos hvalid, hvalue]
  rfl

/-- An attribute that is not allowed is refused. -/
theorem getNextAttribute_refused (h : Inside ctx) (hrest : rest ctx = a.bytes ++ tl)
    (hlt : a.value.length < 65536) (hnext : next (flags ctx) a = none) :
    ∃ e, e ≠ StunResult.noMoreAttributeFound ∧ getNextAttribute ctx = some (.error e) := by
  have hlen : (rest ctx).length = 4 + a.value.length + tl.length := by
    rw [hrest, List.length_append, bytes_length]
  have htag := readUint16_rest ctx 0 (by omega)
  have hlength := readUint16_rest ctx 2 (by omega)
  rw [Nat.add_zero, List.drop_zero, hrest, tagOf_bytes] at htag
  have hn : (tagOf ((rest ctx).drop 2)).toNat = a.value.length := by
    rw [tagOf_drop_toNat, hrest, lengthOf_bytes hlt]
  unfold getNextAttribute
  rw [remaining_eq h, if_neg (by omega), htag]
  dsimp only
  unfold next flags at hnext
  dsimp only at hnext
  by_cases horder : ctx.fingerprintFlag ∨ ctx.integrityFlag ∧ a.tag ≠ typeFingerprint
  · exact ⟨.invalidAttributeOrder, by decide, if_pos horder⟩
  · rw [if_neg horder] at hnext
    have hvalid : ¬isAttributeLengthValid a.tag a.value.length = true := by
      intro hv
      rw [if_pos hv] at hnext
      cases hnext
    refine ⟨.invalidAttribute, by decide, ?_⟩
    rw [if_neg horder, hlength]
    dsimp only
    rw [hn, if_neg (by omega), if_neg hvalid]

/-- An attribute whose value is cut off is refused. -/
theorem getNextAttribute_cut (h : Inside ctx) (h4 : 4 ≤ (rest ctx).length)
    (hcut : (rest ctx).length < 4 + lengthOf (rest ctx)) :
    ∃ e, e ≠ StunResult.noMoreAttributeFound ∧ getNextAttribute ctx = some (.error e) := by
  have htag := readUint16_rest ctx 0 (by omega)
  have hlength := readUint16_rest ctx 2 (by omega)
  rw [Nat.add_zero, List.drop_zero] at htag
  unfold getNextAttribute
  rw [remaining_eq h, if_neg (by omega), htag]
  dsimp only
  by_cases horder : ctx.fingerprintFlag ∨ ctx.integrityFlag ∧ tagOf (rest ctx) ≠ typeFingerprint
  · exact ⟨.invalidAttributeOrder, by decide, if_pos horder⟩
  · refine ⟨.outOfMemory, by decide, ?_⟩
    rw [if_neg horder, hlength]
    dsimp only
    rw [tagOf_drop_toNat, if_pos hcut]

/-! ### The length in the header -/

theorem putLength_eq (bs : List UInt8) (n : ℕ) :
    putLength bs n = bs.take 2 ++ beBytes 2 n ++ bs.drop 4 := by
  rw [putLength, putAt, beBytes_length]

theorem putLength_length {bs : List UInt8} (h : 4 ≤ bs.length) (n : ℕ) : (putLength bs n).length = bs.length := by
  rw [putLength_eq, List.length_append, List.length_append, List.length_take, beBytes_length, List.length_drop]
  omega

theorem putLength_drop {bs : List UInt8} (h : 4 ≤ bs.length) (n : ℕ) {k : ℕ} (hk : 4 ≤ k) :
    (putLength bs n).drop k = bs.drop k := by
  have hl : (bs.take 2 ++ beBytes 2 n).length = 4 := by
    rw [List.length_append, List.length_take, beBytes_length]
    omega
  rw [putLength_eq, List.drop_append, List.drop_of_length_le (by omega), List.nil_append, hl, List.drop_drop,
    Nat.add_sub_cancel' hk]

theorem putLength_putLength {bs : List UInt8} (h : 4 ≤ bs.length) (m n : ℕ) :
    putLength (putLength bs m) n = putLength bs n := by
  rw [putLength_eq (putLength bs m), putLength_drop h m (le_refl 4), putLength_eq bs n, putLength_eq bs m,
    List.append_assoc (bs.take 2), List.take_append_of_le_length (by rw [List.length_take]; omega),
    List.take_of_length_le (List.length_take_le 2 _)]

/-- The message, but for the length in its header. -/
def Patched (message pStart : List UInt8) : Prop :=
  pStart.length = message.length ∧ ∀ n, putLength pStart n = putLength message n

theorem Patched.refl (message : List UInt8) : Patched message message := ⟨rfl, fun _ => rfl⟩

theorem Patched.putLength {message pStart : List UInt8} (h : Patched message pStart) (h4 : 4 ≤ message.length)
    (m : ℕ) : Patched message (putLength pStart m) := by
  have h4' : 4 ≤ pStart.length := h.1 ▸ h4
  refine ⟨(putLength_length h4' m).trans h.1, fun n => ?_⟩
  rw [putLength_putLength h4', h.2]

theorem Patched.drop {message pStart : List UInt8} (h : Patched message pStart) (h4 : 4 ≤ message.length) {k : ℕ}
    (hk : 4 ≤ k) : pStart.drop k = message.drop k := by
  rw [← putLength_drop (h.1 ▸ h4) 0 hk, h.2 0, putLength_drop h4 0 hk]

/-! ### What an attribute must be, and what it gives -/

/-- The bytes that an attribute is over whose last `n` bytes end at index `j`. -/
def covered (message : List UInt8) (j n : ℕ) : List UInt8 :=
  (putLength message ((j - headerLength) % 65536)).take ((j - n) % 65536)

/-- The error code has a phrase, the integrity is made with the password, the fingerprint is the message's. -/
structure Genuine (crypto : IceCryptoFunctions) (password message : List UInt8) (j : ℕ) (a : Item) : Prop where
  errorCode : a.tag = typeErrorCode → 4 < a.value.length
  integrity : a.tag = typeMessageIntegrity →
    password ≠ [] ∧ crypto.hmacFxn password (covered message j 24) = .ok a.value
  fingerprint : a.tag = typeFingerprint →
    crypto.crc32Fxn (covered message j 8) = .ok (UInt32.ofNat (beNat a.value) ^^^ fingerprintXorValue)

/-- The address in an attribute, over the bytes of another. -/
def addressIn (message : List UInt8) (a : Item) (old : StunAttributeAddress) : StunAttributeAddress :=
  match parseAttributeAddress ⟨message, headerLength, false, false⟩ a old with
  | .ok address => address
  | .error _ => old

/-- What the agent takes from an attribute. -/
def receive (message : List UInt8) (info : IceStunDeserializedPacketInfo) (a : Item) :
    IceStunDeserializedPacketInfo :=
  if a.tag = typeErrorCode then
    { info with errorCode := UInt16.ofNat ((a.value.getD 2 0).toNat * 100 + (a.value.getD 3 0).toNat) }
  else if a.tag = typeXorRelayedAddress then
    { info with relayTransportAddress := addressIn message a info.relayTransportAddress }
  else if a.tag = typeXorMappedAddress then
    { info with peerTransportAddress := addressIn message a info.peerTransportAddress }
  else if a.tag = typeUseCandidate then { info with useCandidateFlag := true }
  else if a.tag = typePriority then { info with priority := UInt32.ofNat (beNat a.value) }
  else if a.tag = typeNonce then { info with nonce := a.value }
  else if a.tag = typeRealm then { info with realm := a.value }
  else if a.tag = typeLifetime then { info with lifetimeSeconds := UInt32.ofNat (beNat a.value) }
  else info

theorem parseAttributeUint32_ok {a : Item} (h : a.value.length = 4) :
    parseAttributeUint32 a a.tag = .ok (UInt32.ofNat (beNat a.value)) := by
  have hne : a.value ≠ [] := by
    intro h0
    rw [h0] at h
    cases h
  rw [parseAttributeUint32, if_neg (by rintro (h1 | h1) <;> contradiction), if_neg (not_not.mpr h)]

theorem parseAttributeAddress_patched {message : List UInt8} {ctx : StunContext} {a : Item}
    (h : Patched message ctx.pStart) (h4 : 4 ≤ message.length) (hvalue : a.value ≠ [])
    (old : StunAttributeAddress) : parseAttributeAddress ctx a old = .ok (addressIn message a old) := by
  have hkey : ∀ family, xorKey ctx.pStart family = xorKey message family := by
    intro family
    rw [xorKey, xorKey, h.drop h4 (by decide)]
  simp only [addressIn, parseAttributeAddress, if_neg hvalue, xorAddress, hkey]

theorem integrity_length {n : ℕ} (h : isAttributeLengthValid typeMessageIntegrity n) : n = 20 :=
  of_decide_eq_true h

theorem fingerprint_length {n : ℕ} (h : isAttributeLengthValid typeFingerprint n) : n = 4 := of_decide_eq_true h

theorem priority_length {n : ℕ} (h : isAttributeLengthValid typePriority n) : n = 4 := of_decide_eq_true h

theorem lifetime_length {n : ℕ} (h : isAttributeLengthValid typeLifetime n) : n = 4 := of_decide_eq_true h

theorem relayed_length {n : ℕ} (h : isAttributeLengthValid typeXorRelayedAddress n) : n = 8 ∨ n = 20 :=
  of_decide_eq_true h

theorem mapped_length {n : ℕ} (h : isAttributeLengthValid typeXorMappedAddress n) : n = 8 ∨ n = 20 :=
  of_decide_eq_true h

theorem genuine_of_plain {crypto : IceCryptoFunctions} {password message : List UInt8} {j : ℕ}
    (h1 : a.tag ≠ typeErrorCode) (h2 : a.tag ≠ typeMessageIntegrity) (h3 : a.tag ≠ typeFingerprint) :
    Genuine crypto password message j a :=
  ⟨fun h => absurd h h1, fun h => absurd h h2, fun h => absurd h h3⟩

/-- The same place in the same message. -/
structure Same (message : List UInt8) (ctx ctx' : StunContext) : Prop where
  index : ctx'.currentIndex = ctx.currentIndex
  flags : flags ctx' = flags ctx
  pStart : Patched message ctx'.pStart

section onAttribute

variable (crypto : IceCryptoFunctions) (password : List UInt8) {message : List UInt8}

theorem deserializerGetBuffer_eq (hp : Patched message ctx.pStart) (n : ℕ) :
    (deserializerGetBuffer ctx n).2 = covered message ctx.currentIndex n := by
  show (putLength ctx.pStart _).take _ = _
  rw [hp.2, covered]

theorem Same.getBuffer (hp : Patched message ctx.pStart) (h4 : 4 ≤ message.length) (n : ℕ) :
    Same message ctx (deserializerGetBuffer ctx n).1 :=
  ⟨rfl, rfl, hp.putLength h4 _⟩

theorem checkIntegrity_cases (hlen : a.value.length = 20) (hp : Patched message ctx.pStart)
    (h4 : 4 ≤ message.length) :
    (password ≠ [] ∧ crypto.hmacFxn password (covered message ctx.currentIndex 24) = .ok a.value ∧
      ∃ ctx', checkIntegrity crypto password ctx a = .ok ctx' ∧ Same message ctx ctx') ∨
    (¬(password ≠ [] ∧ crypto.hmacFxn password (covered message ctx.currentIndex 24) = .ok a.value) ∧
      ∃ e, checkIntegrity crypto password ctx a = .error e) := by
  rw [checkIntegrity, ← deserializerGetBuffer_eq hp]
  by_cases hpw : password = []
  · right
    exact ⟨fun h => h.1 hpw, .deserializeError, if_pos hpw⟩
  · rw [if_neg hpw]
    dsimp only
    cases hmac : crypto.hmacFxn password (deserializerGetBuffer ctx 24).2 with
    | error e =>
      right
      exact ⟨fun h => (by cases h.2), .integrityMismatch, rfl⟩
    | ok mac =>
      dsimp only
      rw [hlen]
      by_cases hmatch : mac.length = 20 ∧ mac.take 20 = a.value
      · left
        have hmac' : mac = a.value := by rw [← hmatch.2, List.take_of_length_le hmatch.1.le]
        rw [if_pos hmatch, hmac']
        exact ⟨hpw, rfl, _, rfl, Same.getBuffer hp h4 24⟩
      · right
        refine ⟨fun h => hmatch ?_, .integrityMismatch, if_neg hmatch⟩
        have hmac' : mac = a.value := Except.ok.inj h.2
        rw [hmac', List.take_of_length_le hlen.le]
        exact ⟨hlen, rfl⟩

theorem checkFingerprint_cases (htag : a.tag = typeFingerprint) (hlen : a.value.length = 4)
    (hp : Patched message ctx.pStart) (h4 : 4 ≤ message.length) :
    (crypto.crc32Fxn (covered message ctx.currentIndex 8) =
        .ok (UInt32.ofNat (beNat a.value) ^^^ fingerprintXorValue) ∧
      ∃ ctx', checkFingerprint crypto ctx a = .ok ctx' ∧ Same message ctx ctx') ∨
    (¬crypto.crc32Fxn (covered message ctx.currentIndex 8) =
        .ok (UInt32.ofNat (beNat a.value) ^^^ fingerprintXorValue) ∧
      ∃ e, checkFingerprint crypto ctx a = .error e) := by
  have hparse : parsed (parseAttributeFingerprint a) =
      .ok (UInt32.ofNat (beNat a.value) ^^^ fingerprintXorValue) := by
    rw [parseAttributeFingerprint, ← htag, parseAttributeUint32_ok hlen]
    rfl
  rw [checkFingerprint, ← deserializerGetBuffer_eq hp, hparse]
  dsimp only
  cases hcrc : crypto.crc32Fxn (deserializerGetBuffer ctx 8).2 with
  | error e =>
    right
    exact ⟨fun h => (by cases h), .fingerprintMismatch, rfl⟩
  | ok crc =>
    dsimp only
    by_cases hmatch : UInt32.ofNat (beNat a.value) ^^^ fingerprintXorValue = crc
    · left
      rw [if_pos hmatch, hmatch]
      exact ⟨rfl, _, rfl, Same.getBuffer hp h4 8⟩
    · right
      exact ⟨fun h => hmatch (Except.ok.inj h).symm, .fingerprintMismatch, if_neg hmatch⟩

/-- An attribute of a valid length goes through exactly when it is genuine. -/
theorem onAttribute_cases (hvalid : isAttributeLengthValid a.tag a.value.length) (hp : Patched message ctx.pStart)
    (h4 : 4 ≤ message.length) (info : IceStunDeserializedPacketInfo) :
    (Genuine crypto password message ctx.currentIndex a ∧ ∃ ctx',
      onAttribute crypto password ctx info a = .ok (ctx', receive message info a) ∧ Same message ctx ctx') ∨
    (¬Genuine crypto password message ctx.currentIndex a ∧
      ∃ e, onAttribute crypto password ctx info a = .error e) := by
  have hsame : Same message ctx ctx := ⟨rfl, rfl, hp⟩
  by_cases herror : a.tag = typeErrorCode
  · rw [onAttribute, if_pos herror, parseAttributeErrorCode]
    by_cases hlen : a.value.length ≤ 4
    · right
      refine ⟨fun h => absurd (h.errorCode herror) (by omega), .deserializeError, ?_⟩
      rw [if_pos (Or.inl hlen)]
      rfl
    · left
      refine ⟨⟨fun _ => by omega, fun h => ?_, fun h => ?_⟩, ctx, ?_, hsame⟩
      · exact absurd (herror.symm.trans h) (by decide)
      · exact absurd (herror.symm.trans h) (by decide)
      · rw [if_neg (by rintro (h | h) <;> contradiction), receive, if_pos herror]
        rfl
  by_cases hintegrity : a.tag = typeMessageIntegrity
  · have hlen := integrity_length (hintegrity ▸ hvalid)
    have honly : onAttribute crypto password ctx info a =
        (checkIntegrity crypto password ctx a).map fun ctx => (ctx, info) := by
      simp only [onAttribute, hintegrity]
      rfl
    have hinfo : receive message info a = info := by
      simp only [receive, hintegrity]
      rfl
    rw [honly, hinfo]
    rcases checkIntegrity_cases crypto password hlen hp h4 with
      ⟨hpw, hmac, ctx', hok, hctx⟩ | ⟨hno, e, herr⟩
    · left
      refine ⟨⟨fun h => absurd h herror, fun _ => ⟨hpw, hmac⟩, fun h => ?_⟩, ctx', by rw [hok]; rfl, hctx⟩
      exact absurd (hintegrity.symm.trans h) (by decide)
    · right
      exact ⟨fun h => hno (h.integrity hintegrity), e, by rw [herr]; rfl⟩
  by_cases hfingerprint : a.tag = typeFingerprint
  · have hlen := fingerprint_length (hfingerprint ▸ hvalid)
    have honly : onAttribute crypto password ctx info a =
        (checkFingerprint crypto ctx a).map fun ctx => (ctx, info) := by
      simp only [onAttribute, hfingerprint]
      rfl
    have hinfo : receive message info a = info := by
      simp only [receive, hfingerprint]
      rfl
    rw [honly, hinfo]
    rcases checkFingerprint_cases crypto hfingerprint hlen hp h4 with ⟨hcrc, ctx', hok, hctx⟩ | ⟨hno, e, herr⟩
    · left
      refine ⟨⟨fun h => absurd h herror, fun h => absurd h hintegrity, fun _ => hcrc⟩, ctx', by rw [hok]; rfl, hctx⟩
    · right
      exact ⟨fun h => hno (h.fingerprint hfingerprint), e, by rw [herr]; rfl⟩
  -- the others have nothing to check but their length
  left
  refine ⟨genuine_of_plain herror hintegrity hfingerprint, ctx, ?_, hsame⟩
  have hne : ∀ {n}, a.value.length = n → n ≠ 0 → a.value ≠ [] := by
    intro n hn h0 h
    rw [h] at hn
    exact h0 hn.symm
  rw [onAttribute, receive, if_neg herror, if_neg herror]
  by_cases hrelayed : a.tag = typeXorRelayedAddress
  · have hvalue : a.value ≠ [] := by
      rcases relayed_length (hrelayed ▸ hvalid) with h | h <;> exact hne h (by decide)
    rw [if_pos hrelayed, if_pos hrelayed, parseAttributeAddress_patched hp h4 hvalue]
    rfl
  rw [if_neg hrelayed, if_neg hrelayed]
  by_cases hmapped : a.tag = typeXorMappedAddress
  · have hvalue : a.value ≠ [] := by
      rcases mapped_length (hmapped ▸ hvalid) with h | h <;> exact hne h (by decide)
    rw [if_pos hmapped, if_pos hmapped, parseAttributeAddress_patched hp h4 hvalue]
    rfl
  rw [if_neg hmapped, if_neg hmapped]
  by_cases huse : a.tag = typeUseCandidate
  · rw [if_pos huse, if_pos huse]
  rw [if_neg huse, if_neg huse]
  by_cases hpriority : a.tag = typePriority
  · have hparse := parseAttributeUint32_ok (priority_length (hpriority ▸ hvalid))
    rw [if_pos hpriority, if_pos hpriority, parseAttributePriority, ← hpriority, hparse]
    rfl
  rw [if_neg hpriority, if_neg hpriority, if_neg hintegrity, if_neg hfingerprint]
  by_cases hnonce : a.tag = typeNonce
  · rw [if_pos hnonce, if_pos hnonce]
  rw [if_neg hnonce, if_neg hnonce]
  by_cases hrealm : a.tag = typeRealm
  · rw [if_pos hrealm, if_pos hrealm]
  rw [if_neg hrealm, if_neg hrealm]
  by_cases hlifetime : a.tag = typeLifetime
  · have hparse := parseAttributeUint32_ok (lifetime_length (hlifetime ▸ hvalid))
    rw [if_pos hlifetime, if_pos hlifetime, parseAttributeLifetime, ← hlifetime, hparse]
    rfl
  rw [if_neg hlifetime, if_neg hlifetime]

/-! ### The loop -/

/-- The attributes from an index on are all genuine. -/
def AllGenuine (crypto : IceCryptoFunctions) (password message : List UInt8) : ℕ → List Item → Prop
  | _, [] => True
  | i, a :: as =>
    Genuine crypto password message (i + 4 + alignSizeToWord a.value.length) a ∧
      AllGenuine crypto password message (i + 4 + alignSizeToWord a.value.length) as

theorem rest_advance {pad : List UInt8} (hrest : rest ctx = a.bytes ++ pad ++ tl)
    (hpad : pad.length = padLength a.value.length) : rest (advance ctx a) = tl := by
  show ctx.pStart.drop (ctx.currentIndex + 4 + alignSizeToWord a.value.length) = tl
  rw [Nat.add_assoc, ← List.drop_drop]
  show (rest ctx).drop _ = tl
  rw [hrest]
  apply List.drop_left'
  rw [List.length_append, bytes_length, hpad, alignSizeToWord]
  omega

theorem Inside.advance {pad : List UInt8} (h : Inside ctx) (hrest : rest ctx = a.bytes ++ pad ++ tl)
    (hpad : pad.length = padLength a.value.length) : Inside (advance ctx a) := by
  have hlen := rest_length ctx
  rw [hrest, List.length_append, List.length_append, bytes_length, hpad] at hlen
  have hi := h.index
  have hh := h.header
  constructor
  · show headerLength ≤ ctx.currentIndex + 4 + alignSizeToWord a.value.length
    omega
  · show ctx.currentIndex + 4 + alignSizeToWord a.value.length ≤ ctx.pStart.length
    rw [alignSizeToWord]
    omega

theorem Same.inside {ctx' : StunContext} (h : Same message ctx ctx') (hin : Inside ctx)
    (hp : Patched message ctx.pStart) : Inside ctx' :=
  ⟨h.index ▸ hin.header, by rw [h.index, h.pStart.1, ← hp.1]; exact hin.index⟩

theorem Same.rest {ctx' : StunContext} (h : Same message ctx ctx') (hin : Inside ctx)
    (hp : Patched message ctx.pStart) : Ice.rest ctx' = Ice.rest ctx := by
  have hheader := hin.header
  have hlen := hin.index
  have h4 : 4 ≤ message.length := by rw [← hp.1]; dsimp only [headerLength] at hheader; omega
  have hk : 4 ≤ ctx.currentIndex := by dsimp only [headerLength] at hheader; omega
  rw [Ice.rest, Ice.rest, h.index, h.pStart.drop h4 hk, hp.drop h4 hk]

theorem Inside.message_length (h : Inside ctx) (hp : Patched message ctx.pStart) : 4 ≤ message.length := by
  have hheader := h.header
  have hlen := h.index
  rw [← hp.1]
  dsimp only [headerLength] at hheader
  omega

/-- One turn of the loop at an attribute that is allowed: a genuine one is taken, any other ends the loop. -/
theorem deserializeLoop_item {s : Bool × Bool} (hin : Inside ctx) (hrest : rest ctx = a.bytes ++ tl)
    (hlt : a.value.length < 65536) (hnext : next (flags ctx) a = some s) (hp : Patched message ctx.pStart)
    (info : IceStunDeserializedPacketInfo) :
    (Genuine crypto password message (advance ctx a).currentIndex a ∧ ∃ ctx', Same message (advance ctx a) ctx' ∧
      ∀ fuel, deserializeLoop crypto password (fuel + 1) ctx info =
        deserializeLoop crypto password fuel ctx' (receive message info a)) ∨
    (¬Genuine crypto password message (advance ctx a).currentIndex a ∧
      ∃ e, ∀ fuel, deserializeLoop crypto password (fuel + 1) ctx info = some (.error e)) := by
  have hitem := getNextAttribute_item hin hrest hlt hnext
  have hpadv : Patched message (Ice.advance ctx a).pStart := hp
  rcases onAttribute_cases crypto password (next_eq_some hnext).2.1 hpadv (hin.message_length hp) info with
    ⟨hgenuine, ctx', hok, hsame⟩ | ⟨hno, e, herror⟩
  · refine .inl ⟨hgenuine, ctx', hsame, fun fuel => ?_⟩
    rw [deserializeLoop, hitem]
    dsimp only
    rw [hok]
  · refine .inr ⟨hno, e, fun fuel => ?_⟩
    rw [deserializeLoop, hitem]
    dsimp only
    rw [herror]

/-- Behind an attribute without its padding the loop leaves the message. -/
theorem deserializeLoop_unpadded {ctx' : StunContext} {pad : List UInt8} (hin : Inside ctx)
    (hp : Patched message ctx.pStart) (hrest : rest ctx = a.bytes ++ pad)
    (hpad : pad.length < padLength a.value.length) (hsame : Same message (advance ctx a) ctx') (fuel : ℕ)
    (info : IceStunDeserializedPacketInfo) : deserializeLoop crypto password fuel ctx' info = none := by
  have hlen := rest_length ctx
  rw [hrest, List.length_append, bytes_length] at hlen
  have hi := hin.index
  have hpad4 := padLength_lt a.value.length
  have hidx : ctx'.currentIndex = ctx.currentIndex + 4 + alignSizeToWord a.value.length := hsame.index
  have hsize : ctx'.pStart.length = ctx.pStart.length := by rw [hsame.pStart.1, hp.1]
  rw [alignSizeToWord] at hidx
  cases fuel with
  | zero => rfl
  | succ fuel => rw [deserializeLoop, getNextAttribute_behind (by omega) (by omega)]

/-- Genuine attributes in order go through to the end of the message. -/
theorem deserializeLoop_reads {s : Bool × Bool} {bs : List UInt8} {as : List Item} (h : Reads next s bs as) :
    ∀ ctx info fuel, Inside ctx → rest ctx = bs → flags ctx = s → Patched message ctx.pStart →
      bs.length < fuel → AllGenuine crypto password message ctx.currentIndex as →
      deserializeLoop crypto password fuel ctx info = some (.ok (as.foldl (receive message) info)) := by
  induction h with
  | done hshort =>
    intro ctx info fuel hin hrest _ _ hfuel _
    obtain ⟨fuel, rfl⟩ := Nat.exists_eq_succ_of_ne_zero (Nat.ne_zero_of_lt hfuel)
    rw [deserializeLoop, getNextAttribute_done hin (hrest ▸ hshort)]
    rfl
  | @item s s' a pad tl as hlt hnext hpad _ ih =>
    intro ctx info fuel hin hrest hflags hp hfuel hgenuine
    obtain ⟨fuel, rfl⟩ := Nat.exists_eq_succ_of_ne_zero (Nat.ne_zero_of_lt hfuel)
    subst hflags
    have hadv := hin.advance hrest hpad
    rw [List.length_append, List.length_append, bytes_length] at hfuel
    rcases deserializeLoop_item crypto password hin ((List.append_assoc _ _ _).symm ▸ hrest) hlt hnext hp info with
      ⟨-, ctx', hsame, hloop⟩ | ⟨hno, -⟩
    · have hrest' : rest ctx' = tl := (hsame.rest hadv hp).trans (rest_advance hrest hpad)
      have hgenuine' : AllGenuine crypto password message ctx'.currentIndex as := by
        rw [hsame.index]
        exact hgenuine.2
      rw [hloop]
      exact ih _ _ fuel (hsame.inside hadv hp) hrest' (hsame.flags.trans (flags_advance hnext)) hsame.pStart
        (by omega) hgenuine'
    · exact absurd hgenuine.1 hno

/-- Genuine attributes in order of which the last is not padded lead out of the message. -/
theorem deserializeLoop_overruns {s : Bool × Bool} {bs : List UInt8} {as : List Item} (h : Overruns next s bs as) :
    ∀ ctx info fuel, Inside ctx → rest ctx = bs → flags ctx = s → Patched message ctx.pStart →
      AllGenuine crypto password message ctx.currentIndex as →
      deserializeLoop crypto password fuel ctx info = none := by
  induction h with
  | @here s s' a pad hlt hnext hpad =>
    intro ctx info fuel hin hrest hflags hp hgenuine
    subst hflags
    cases fuel with
    | zero => rfl
    | succ fuel =>
      rcases deserializeLoop_item crypto password hin hrest hlt hnext hp info with ⟨-, ctx', hsame, hloop⟩ | ⟨hno, -⟩
      · rw [hloop]
        exact deserializeLoop_unpadded crypto password hin hp hrest hpad hsame fuel _
      · exact absurd hgenuine.1 hno
  | @item s s' a pad tl as hlt hnext hpad _ ih =>
    intro ctx info fuel hin hrest hflags hp hgenuine
    subst hflags
    cases fuel with
    | zero => rfl
    | succ fuel =>
      have hadv := hin.advance hrest hpad
      rcases deserializeLoop_item crypto password hin ((List.append_assoc _ _ _).symm ▸ hrest) hlt hnext hp info with
        ⟨-, ctx', hsame, hloop⟩ | ⟨hno, -⟩
      · have hrest' : rest ctx' = tl := (hsame.rest hadv hp).trans (rest_advance hrest hpad)
        have hgenuine' : AllGenuine crypto password message ctx'.currentIndex as := by
          rw [hsame.index]
          exact hgenuine.2
        rw [hloop]
        exact ih _ _ fuel (hsame.inside hadv hp) hrest' (hsame.flags.trans (flags_advance hnext)) hsame.pStart
          hgenuine'
      · exact absurd hgenuine.1 hno

/-- The loop ends in one of three ways: at the end of the message, outside of it, or at an attribute. -/
theorem deserializeLoop_cases (fuel : ℕ) {ctx : StunContext} (info : IceStunDeserializedPacketInfo) (hin : Inside ctx)
    (hp : Patched message ctx.pStart) (hfuel : (rest ctx).length < fuel) :
    (∃ as, Reads next (flags ctx) (rest ctx) as ∧ AllGenuine crypto password message ctx.currentIndex as ∧
      deserializeLoop crypto password fuel ctx info = some (.ok (as.foldl (receive message) info))) ∨
    (∃ as, Overruns next (flags ctx) (rest ctx) as ∧ deserializeLoop crypto password fuel ctx info = none) ∨
    ∃ e, deserializeLoop crypto password fuel ctx info = some (.error e) := by
  induction fuel generalizing ctx info with
  | zero => exact absurd hfuel (Nat.not_lt_zero _)
  | succ fuel ih =>
    by_cases h4 : (rest ctx).length < 4
    · left
      rw [deserializeLoop, getNextAttribute_done hin h4]
      exact ⟨[], .done h4, trivial, rfl⟩
    by_cases hcut : (rest ctx).length < 4 + lengthOf (rest ctx)
    · right; right
      obtain ⟨e, hne, he⟩ := getNextAttribute_cut hin (by omega) hcut
      rw [deserializeLoop, he]
      dsimp only
      rw [if_neg hne]
      exact ⟨_, rfl⟩
    have hsplit := bytes_split (by omega) (Nat.not_lt.mp hcut)
    obtain ⟨a, ha⟩ : ∃ a, a = Item.mk (tagOf (rest ctx)) (((rest ctx).drop 4).take (lengthOf (rest ctx))) := ⟨_, rfl⟩
    have hvalue : a.value.length = lengthOf (rest ctx) := by
      rw [ha, List.length_take, List.length_drop]
      omega
    rw [← ha, ← hvalue] at hsplit
    have hlt : a.value.length < 65536 := hvalue ▸ lengthOf_lt _
    cases hnext : next (flags ctx) a with
    | none =>
      right; right
      obtain ⟨e, hne, he⟩ := getNextAttribute_refused hin hsplit.symm hlt hnext
      rw [deserializeLoop, he]
      dsimp only
      rw [if_neg hne]
      exact ⟨_, rfl⟩
    | some s =>
      rcases deserializeLoop_item crypto password hin hsplit.symm hlt hnext hp info with
        ⟨hgenuine, ctx', hsame, hloop⟩ | ⟨-, e, hloop⟩
      swap
      · right; right
        exact ⟨e, hloop fuel⟩
      rw [hloop]
      -- is the padding there?
      obtain ⟨behind, hbehind⟩ : ∃ bs, bs = (rest ctx).drop (4 + a.value.length) := ⟨_, rfl⟩
      rw [← hbehind] at hsplit
      by_cases hpad : behind.length < padLength a.value.length
      · right; left
        refine ⟨[a], hsplit ▸ .here hlt hnext hpad, ?_⟩
        exact deserializeLoop_unpadded crypto password hin hp hsplit.symm hpad hsame fuel _
      have hpadded : a.bytes ++ behind.take (padLength a.value.length) ++ behind.drop (padLength a.value.length) =
          rest ctx := by
        rw [List.append_assoc, List.take_append_drop, hsplit]
      have hpadlen : (behind.take (padLength a.value.length)).length = padLength a.value.length := by
        rw [List.length_take]
        omega
      have hadv := hin.advance hpadded.symm hpadlen
      have hrest' : rest ctx' = behind.drop (padLength a.value.length) :=
        (hsame.rest hadv hp).trans (rest_advance hpadded.symm hpadlen)
      have hflags' : flags ctx' = s := hsame.flags.trans (flags_advance hnext)
      have hlen : (rest ctx').length < fuel := by
        have h := congrArg List.length hpadded
        rw [List.length_append, List.length_append, bytes_length] at h
        rw [hrest']
        omega
      have hindex : ctx'.currentIndex = ctx.currentIndex + 4 + alignSizeToWord a.value.length := hsame.index
      rcases ih (receive message info a) (hsame.inside hadv hp) hsame.pStart hlen with
        ⟨as, hreads, hall, hloop⟩ | ⟨as, hover, hloop⟩ | ⟨e, hloop⟩
      · left
        rw [hflags', hrest'] at hreads
        rw [hindex] at hall
        exact ⟨a :: as, hpadded ▸ .item hlt hnext hpadlen hreads, ⟨hgenuine, hall⟩, hloop⟩
      · right; left
        rw [hflags', hrest'] at hover
        exact ⟨a :: as, hpadded ▸ .item hlt hnext hpadlen hover, hloop⟩
      · right; right
        exact ⟨e, hloop⟩

end onAttribute

end IotcRa8p1.Ice
