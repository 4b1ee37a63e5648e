import IotcRa8p1.Ice.StunAccepted

/-!
# The STUN messages the agent writes

`Written` is what the serializer's buffer holds after some attributes.  What `finalizeStunPacket` makes of it, with
the integrity over it and the fingerprint over both, an agent with the same password accepts, and it reads the
attributes that were written (`finalizeStunPacket_accepted`); without a password it is the fingerprint alone
(`finalizeStunPacket_open`).
-/

namespace IotcRa8p1.Ice

open ByteMem BitField Tlv Stun

/-! ### What the buffer holds -/

/-- The records one behind the other. -/
def wires (as : List Item) : List UInt8 := as.flatMap Item.wire

/-- The buffer holds a header and these attributes, which may stand in this order. -/
structure Written (header : StunHeader) (ctx : StunContext) (as : List Item) : Prop where
  index : ctx.currentIndex = 20 + (wires as).length
  room : ctx.currentIndex ≤ ctx.pStart.length
  bytes : ∃ n, ctx.pStart.take ctx.currentIndex = headerBytes header n ++ wires as
  order : as.foldlM next (false, false) = some (flags ctx)
  small : ∀ a ∈ as, a.value.length < 65536

theorem putAt_length {bs v : List UInt8} {i : ℕ} (h : i + v.length ≤ bs.length) :
    (putAt bs i v).length = bs.length := by
  rw [putAt, List.length_append, List.length_append, List.length_take, List.length_drop]
  omega

theorem putAt_take {bs v : List UInt8} {i : ℕ} (h : i ≤ bs.length) :
    (putAt bs i v).take (i + v.length) = bs.take i ++ v := by
  apply List.take_left'
  rw [List.length_append, List.length_take, Nat.min_eq_left h]

theorem wires_append (as bs : List Item) : wires (as ++ bs) = wires as ++ wires bs := List.flatMap_append

theorem wires_single (a : Item) : wires [a] = a.wire := by
  rw [wires, List.flatMap_singleton]

theorem serializerInit_written {buffer : List UInt8} {header : StunHeader} {ctx : StunContext}
    (h : serializerInit buffer header = .ok ctx) : Written header ctx [] := by
  unfold serializerInit at h
  split_ifs at h with hshort
  have hctx := Except.ok.inj h
  have hv : (beBytes 2 header.messageType.toNat ++ beBytes 2 0 ++ beBytes 4 magicCookie.toNat ++
      header.transactionId.val).length = 20 := headerBytes_length header 0
  have h20 : 20 ≤ buffer.length := Nat.not_lt.mp hshort
  rw [← hctx]
  refine ⟨rfl, ?_, ⟨0, ?_⟩, rfl, fun a ha => absurd ha List.not_mem_nil⟩
  · show 20 ≤ (putAt buffer 0 _).length
    rw [putAt_length (by rw [hv]; omega)]
    exact h20
  · show (putAt buffer 0 _).take 20 = _
    have htake := putAt_take (v := beBytes 2 header.messageType.toNat ++ beBytes 2 0 ++ beBytes 4 magicCookie.toNat ++
      header.transactionId.val) (Nat.zero_le buffer.length)
    rw [hv, Nat.zero_add] at htake
    rw [htake, List.take_zero, List.nil_append, wires, List.flatMap_nil, List.append_nil, headerBytes]

/-- The serializer and the deserializer allow the same order. -/
theorem checkAndUpdateAttributeFlag_ok {ctx ctx' : StunContext} {a : Item}
    (h : checkAndUpdateAttributeFlag ctx a.tag = .ok ctx') (hvalid : isAttributeLengthValid a.tag a.value.length) :
    ctx'.pStart = ctx.pStart ∧ ctx'.currentIndex = ctx.currentIndex ∧ next (flags ctx) a = some (flags ctx') := by
  unfold checkAndUpdateAttributeFlag at h
  split_ifs at h with h1 h2 h3 h4
  all_goals
    have horder : ¬((flags ctx).1 ∨ (flags ctx).2 ∧ a.tag ≠ typeFingerprint) := by
      rintro (hf | hi)
      · exact h1 hf
      · exact h2 hi
    rw [next, if_neg horder, if_pos hvalid]
    rw [← Except.ok.inj h]
  · have hne : typeFingerprint ≠ typeMessageIntegrity := by decide
    simp [flags, h3, hne]
  · have hne : typeMessageIntegrity ≠ typeFingerprint := by decide
    simp [flags, h4, hne]
  · simp [flags, h3, h4]

theorem writeAttribute_written {header : StunHeader} {ctx ctx' : StunContext} {as : List Item} {a : Item}
    (h : Written header ctx as) (hstart : ctx'.pStart = ctx.pStart) (hindex : ctx'.currentIndex = ctx.currentIndex)
    (hnext : next (flags ctx) a = some (flags ctx')) (hroom : 4 + alignSizeToWord a.value.length ≤ remaining ctx)
    (hsmall : a.value.length < 65536) : Written header (writeAttribute ctx' a) (as ++ [a]) := by
  have hrem : remaining ctx = ctx.pStart.length - ctx.currentIndex := by rw [remaining, if_pos h.room]
  have hwire : a.wire.length = 4 + alignSizeToWord a.value.length := wire_length a
  have hfits : ctx.currentIndex + a.wire.length ≤ ctx.pStart.length := by
    have hle := h.room
    omega
  obtain ⟨n, hbytes⟩ := h.bytes
  have hidx : (writeAttribute ctx' a).currentIndex = ctx.currentIndex + a.wire.length := by
    show ctx'.currentIndex + 4 + alignSizeToWord a.value.length = _
    omega
  have hput : (writeAttribute ctx' a).pStart = putAt ctx.pStart ctx.currentIndex a.wire := by
    show putAt ctx'.pStart ctx'.currentIndex a.wire = _
    rw [hstart, hindex]
  refine ⟨?_, ?_, ⟨n, ?_⟩, ?_, ?_⟩
  · rw [hidx, h.index, wires_append, wires_single, List.length_append, Nat.add_assoc]
  · rw [hidx, hput, putAt_length hfits]
    exact hfits
  · rw [hidx, hput, putAt_take h.room, hbytes, wires_append, wires_single, List.append_assoc]
  · rw [List.foldlM_append, h.order]
    show (next (flags ctx) a >>= fun s => pure s) = _
    rw [hnext]
    rfl
  · intro b hb
    rcases List.mem_append.mp hb with hb | hb
    · exact h.small b hb
    · rw [List.mem_singleton.mp hb]
      exact hsmall

theorem addAttribute_written {header : StunHeader} {ctx ctx' : StunContext} {as : List Item} {a : Item}
    (h : Written header ctx as) (hadd : addAttribute ctx a.tag a = .ok ctx')
    (hvalid : isAttributeLengthValid a.tag a.value.length) (hsmall : a.value.length < 65536) :
    Written header ctx' (as ++ [a]) := by
  unfold addAttribute at hadd
  split_ifs at hadd with hroom
  cases hflag : checkAndUpdateAttributeFlag ctx a.tag with
  | error e =>
    rw [hflag] at hadd
    cases hadd
  | ok ctx1 =>
    rw [hflag] at hadd
    obtain ⟨hstart, hindex, hnext⟩ := checkAndUpdateAttributeFlag_ok hflag hvalid
    have hctx : writeAttribute ctx1 a = ctx' := Except.ok.inj hadd
    exact hctx ▸ writeAttribute_written h hstart hindex hnext (Nat.not_lt.mp hroom) hsmall

theorem addAttributeBuffer_written {header : StunHeader} {ctx ctx' : StunContext} {as : List Item} {tag : UInt16}
    {value : List UInt8} (h : Written header ctx as) (hadd : addAttributeBuffer ctx tag value = .ok ctx')
    (hvalid : value.length ≤ 512 → isAttributeLengthValid tag value.length) :
    Written header ctx' (as ++ [⟨tag, value⟩]) := by
  unfold addAttributeBuffer at hadd
  split_ifs at hadd with hsize
  have hle : value.length ≤ 512 := by
    dsimp only [attributeValueMaxLength] at hsize
    omega
  exact addAttribute_written (a := ⟨tag, value⟩) h hadd (hvalid hle) (show value.length < 65536 by omega)

theorem addAttributeTypeOnly_written {header : StunHeader} {ctx ctx' : StunContext} {as : List Item} {tag : UInt16}
    (h : Written header ctx as) (hadd : addAttributeTypeOnly ctx tag = .ok ctx')
    (hvalid : isAttributeLengthValid tag 0) : Written header ctx' (as ++ [⟨tag, []⟩]) :=
  addAttribute_written (a := ⟨tag, []⟩) h hadd hvalid (show 0 < 65536 by decide)

theorem addAttributeUint32_written {header : StunHeader} {ctx ctx' : StunContext} {as : List Item} {tag : UInt16}
    {value : UInt32} (h : Written header ctx as) (hadd : addAttributeUint32 ctx tag value = .ok ctx')
    (hvalid : isAttributeLengthValid tag 4) : Written header ctx' (as ++ [⟨tag, beBytes 4 value.toNat⟩]) := by
  have hlen : (beBytes 4 value.toNat).length = 4 := beBytes_length 4 _
  refine addAttribute_written (a := ⟨tag, beBytes 4 value.toNat⟩) h hadd ?_ ?_
  · rw [hlen]
    exact hvalid
  · rw [hlen]
    decide

theorem addAttributeUint64_written {header : StunHeader} {ctx ctx' : StunContext} {as : List Item} {tag : UInt16}
    {value : UInt64} (h : Written header ctx as) (hadd : addAttributeUint64 ctx tag value = .ok ctx')
    (hvalid : isAttributeLengthValid tag 8) : Written header ctx' (as ++ [⟨tag, beBytes 8 value.toNat⟩]) := by
  have hlen : (beBytes 8 value.toNat).length = 8 := beBytes_length 8 _
  refine addAttribute_written (a := ⟨tag, beBytes 8 value.toNat⟩) h hadd ?_ ?_
  · rw [hlen]
    exact hvalid
  · rw [hlen]
    decide

/-! ### The length in the header -/

theorem putLength_headerBytes (header : StunHeader) (m n : ℕ) (body : List UInt8) :
    putLength (headerBytes header m ++ body) n = headerBytes header n ++ body := by
  have hsplit : headerBytes header m ++ body = beBytes 2 header.messageType.toNat ++ beBytes 2 m ++
      (beBytes 4 magicCookie.toNat ++ (header.transactionId.val ++ body)) := by
    simp only [headerBytes, List.append_assoc]
  have h4 : (beBytes 2 header.messageType.toNat ++ beBytes 2 m).length = 4 := by
    rw [List.length_append, beBytes_length, beBytes_length]
  rw [putLength_eq, (headerBytes_fields header m body).1, hsplit, List.drop_left' h4]
  simp only [headerBytes, List.append_assoc]

section written

variable {header : StunHeader} {ctx : StunContext} {as : List Item}

theorem Written.pStart_eq (h : Written header ctx as) :
    ∃ n, ctx.pStart = headerBytes header n ++ (wires as ++ ctx.pStart.drop ctx.currentIndex) := by
  obtain ⟨n, hn⟩ := h.bytes
  refine ⟨n, ?_⟩
  rw [← List.append_assoc, ← hn, List.take_append_drop]

theorem Written.putLength_take (h : Written header ctx as) (k : ℕ) :
    (putLength ctx.pStart k).take ctx.currentIndex = headerBytes header k ++ wires as := by
  obtain ⟨n, hn⟩ := h.pStart_eq
  rw [hn, putLength_headerBytes, ← List.append_assoc]
  apply List.take_left'
  rw [List.length_append, headerBytes_length, h.index]

theorem Written.putLength (h : Written header ctx as) (k : ℕ) :
    Written header { ctx with pStart := putLength ctx.pStart k } as := by
  have hindex := h.index
  have hroom := h.room
  refine ⟨hindex, ?_, ⟨k, h.putLength_take k⟩, h.order, h.small⟩
  show ctx.currentIndex ≤ (Stun.putLength ctx.pStart k).length
  rw [putLength_length (by omega)]
  exact hroom

theorem getBuffer_written {ctx' : StunContext} {data : List UInt8} {n : ℕ} (h : Written header ctx as)
    (hn : n ≤ maxMessageLength) (hok : getBuffer ctx n = .ok (ctx', data)) :
    Written header ctx' as ∧ (wires as).length + n ≤ maxMessageLength ∧
      data = (headerBytes header ((wires as).length + n) ++ wires as).take ((20 + (wires as).length) % 65536) := by
  have hindex := h.index
  unfold getBuffer at hok
  split_ifs at hok with hlong
  obtain ⟨hctx, hdata⟩ := Prod.mk.inj (Except.ok.inj hok)
  have hlength : ctx.currentIndex - headerLength + n = (wires as).length + n := by
    rw [hindex]
    dsimp only [headerLength]
    omega
  refine ⟨hctx ▸ h.putLength _, ?_, ?_⟩
  · dsimp only [headerLength, maxMessageLength] at hlong hn hlength ⊢
    omega
  · rw [← hdata]
    dsimp only
    rw [hlength, ← h.putLength_take, List.take_take, hindex, Nat.min_eq_left (Nat.mod_le _ _)]

/-! ### What the other agent reads -/

theorem wires_cons (a : Item) (as : List Item) : wires (a :: as) = a.wire ++ wires as := List.flatMap_cons

theorem reads_wires {s s' : Bool × Bool} {as : List Item} (horder : as.foldlM next s = some s')
    (hsmall : ∀ a ∈ as, a.value.length < 65536) : Reads next s (wires as) as := by
  induction as generalizing s with
  | nil => exact .done (by decide)
  | cons a as ih =>
    rw [List.foldlM_cons] at horder
    cases hnext : next s a with
    | none =>
      rw [hnext] at horder
      cases horder
    | some s1 =>
      rw [hnext] at horder
      have hrest := ih horder fun b hb => hsmall b (List.mem_cons_of_mem _ hb)
      rw [wires_cons, Item.wire]
      exact .item (hsmall a List.mem_cons_self) hnext List.length_replicate hrest

theorem allGenuine_append (crypto : IceCryptoFunctions) (password message : List UInt8) (as bs : List Item) (i : ℕ) :
    AllGenuine crypto password message i (as ++ bs) ↔
      AllGenuine crypto password message i as ∧ AllGenuine crypto password message (i + (wires as).length) bs := by
  induction as generalizing i with
  | nil => exact ⟨fun h => ⟨trivial, h⟩, fun h => h.2⟩
  | cons a as ih =>
    have hidx : i + (wires (a :: as)).length = i + 4 + alignSizeToWord a.value.length + (wires as).length := by
      rw [wires_cons, List.length_append, wire_length, alignSizeToWord]
      omega
    rw [hidx, List.cons_append, AllGenuine, ih, AllGenuine, and_assoc]

/-- Neither an error code nor one of the two attributes that secure a message. -/
abbrev Plain (tag : UInt16) : Prop :=
  tag ≠ typeErrorCode ∧ tag ≠ typeMessageIntegrity ∧ tag ≠ typeFingerprint

theorem allGenuine_of_plain {crypto : IceCryptoFunctions} {password message : List UInt8} {as : List Item}
    (h : ∀ a ∈ as, Plain a.tag) (i : ℕ) : AllGenuine crypto password message i as := by
  induction as generalizing i with
  | nil => trivial
  | cons a as ih =>
    obtain ⟨h1, h2, h3⟩ := h a List.mem_cons_self
    exact ⟨genuine_of_plain h1 h2 h3, ih (fun b hb => h b (List.mem_cons_of_mem _ hb)) _⟩

/-- The bytes that an attribute is over that was written behind `as` are the ones that it was made from. -/
theorem covered_wires (header : StunHeader) (total : ℕ) (as bs : List Item) {n : ℕ}
    (hn : (wires as).length + n ≤ maxMessageLength) :
    covered (headerBytes header total ++ wires (as ++ bs)) (20 + (wires as).length + n) n =
      (headerBytes header ((wires as).length + n) ++ wires as).take ((20 + (wires as).length) % 65536) := by
  have hlength : (20 + (wires as).length + n - headerLength) % 65536 = (wires as).length + n := by
    dsimp only [headerLength, maxMessageLength] at hn ⊢
    omega
  have hle : (20 + (wires as).length) % 65536 ≤
      (headerBytes header ((wires as).length + n) ++ wires as).length := by
    rw [List.length_append, headerBytes_length]
    exact Nat.mod_le _ _
  rw [covered, hlength, putLength_headerBytes, wires_append, ← List.append_assoc, Nat.add_sub_cancel,
    List.take_append_of_le_length hle]

/-! ### The secured message -/

theorem bind_eq_ok {ε α β : Type} {x : Except ε α} {f : α → Except ε β} {b : β} (h : x >>= f = .ok b) :
    ∃ a, x = .ok a ∧ f a = .ok b := by
  cases x with
  | error e => cases h
  | ok a => exact ⟨a, rfl, h⟩

theorem asIceResult_eq_ok {α : Type} {e : IceResult} {r : Except StunResult α} {a : α}
    (h : asIceResult e r = .ok a) : r = .ok a := by
  cases r with
  | error e => cases h
  | ok b => exact congrArg Except.ok (Except.ok.inj h)

variable {crypto : IceCryptoFunctions} {password : List UInt8} {ctx' : StunContext}

theorem addIntegrity_written (h : Written header ctx as) (hok : addIntegrity crypto ctx password = .ok ctx') :
    ∃ mac, mac.length = 20 ∧ Written header ctx' (as ++ [⟨typeMessageIntegrity, mac⟩]) ∧
      (wires as).length + 24 ≤ maxMessageLength ∧
      crypto.hmacFxn password ((headerBytes header ((wires as).length + 24) ++ wires as).take
        ((20 + (wires as).length) % 65536)) = .ok mac := by
  obtain ⟨⟨ctx1, data⟩, hbuffer, hrest⟩ := bind_eq_ok hok
  obtain ⟨mac, hmac, hadd⟩ := bind_eq_ok hrest
  obtain ⟨hwritten, hlength, rfl⟩ := getBuffer_written h (by decide) (asIceResult_eq_ok hbuffer)
  split_ifs at hadd with h20
  refine ⟨mac, h20, addAttributeBuffer_written hwritten (asIceResult_eq_ok hadd) fun _ => ?_, hlength, hmac⟩
  rw [h20]
  decide

theorem addFingerprint_written (h : Written header ctx as) (hok : addFingerprint crypto ctx = .ok ctx') :
    ∃ crc, Written header ctx' (as ++ [⟨typeFingerprint, beBytes 4 (crc ^^^ fingerprintXorValue).toNat⟩]) ∧
      (wires as).length + 8 ≤ maxMessageLength ∧
      crypto.crc32Fxn ((headerBytes header ((wires as).length + 8) ++ wires as).take
        ((20 + (wires as).length) % 65536)) = .ok crc := by
  obtain ⟨⟨ctx1, data⟩, hbuffer, hrest⟩ := bind_eq_ok hok
  obtain ⟨crc, hcrc, hadd⟩ := bind_eq_ok hrest
  obtain ⟨hwritten, hlength, rfl⟩ := getBuffer_written h (by decide) (asIceResult_eq_ok hbuffer)
  exact ⟨crc, addAttributeUint32_written hwritten (asIceResult_eq_ok hadd) (by decide), hlength, hcrc⟩

theorem serializerFinalize_written {message : List UInt8} (h : Written header ctx as)
    (hok : serializerFinalize ctx = .ok (ctx', message)) :
    message = headerBytes header (wires as).length ++ wires as ∧ (wires as).length < 65536 := by
  have hindex := h.index
  unfold serializerFinalize at hok
  split_ifs at hok with hlong
  obtain ⟨-, hmessage⟩ := Prod.mk.inj (Except.ok.inj hok)
  have hlength : ctx.currentIndex - headerLength = (wires as).length := by
    rw [hindex]
    dsimp only [headerLength]
    omega
  refine ⟨?_, ?_⟩
  · rw [← hmessage]
    dsimp only
    rw [hlength, h.putLength_take]
  · rw [hlength] at hlong
    dsimp only [maxMessageLength] at hlong
    omega

/-- The agent reads this header and this information from the message. -/
def Accepts (crypto : IceCryptoFunctions) (password message : List UInt8) (header : StunHeader)
    (info : IceStunDeserializedPacketInfo) : Prop :=
  ∃ ctx, deserializerInit message = .ok (ctx, header) ∧ deserializeStunPacket crypto ctx password = some (.ok info)

/-- With the fingerprint behind genuine attributes the message is accepted. -/
theorem fingerprint_accepted {ctx2 : StunContext} {message : List UInt8} (h : Written header ctx as)
    (hgenuine : ∀ total bs, AllGenuine crypto password (headerBytes header total ++ wires (as ++ bs)) headerLength as)
    (hfingerprint : addFingerprint crypto ctx = .ok ctx') (hfinal : serializerFinalize ctx' = .ok (ctx2, message)) :
    Accepts crypto password message header (as.foldl (receive message) {}) := by
  obtain ⟨crc, hwritten, hlength, hcrc⟩ := addFingerprint_written h hfingerprint
  obtain ⟨hmessage, hlt⟩ := serializerFinalize_written hwritten hfinal
  obtain ⟨last, hlast⟩ : ∃ last, last = Item.mk typeFingerprint (beBytes 4 (crc ^^^ fingerprintXorValue).toNat) :=
    ⟨_, rfl⟩
  rw [← hlast] at hmessage hlt hwritten
  have hlen := message_length hmessage
  have h4 : last.value.length = 4 := by
    rw [hlast]
    exact beBytes_length 4 _
  have htag : last.tag = typeFingerprint := by rw [hlast]
  have hcrc' : Genuine crypto password message (20 + (wires as).length + 8) last := by
    have h1 : typeFingerprint ≠ typeErrorCode := by decide
    have h2 : typeFingerprint ≠ typeMessageIntegrity := by decide
    refine ⟨fun h => absurd (htag.symm.trans h) h1, fun h => absurd (htag.symm.trans h) h2, fun _ => ?_⟩
    rw [hmessage, covered_wires header _ _ _ hlength, hcrc, hlast]
    dsimp only
    rw [beNat_beBytes_of_lt 4 _ (crc ^^^ fingerprintXorValue).toNat_lt, UInt32.ofNat_toNat, UInt32.xor_assoc,
      UInt32.xor_self, UInt32.xor_zero]
  have hall : AllGenuine crypto password message headerLength (as ++ [last]) := by
    rw [allGenuine_append]
    refine ⟨hmessage ▸ hgenuine _ _, ?_, trivial⟩
    show Genuine crypto password message (_ + 4 + alignSizeToWord last.value.length) _
    rw [h4]
    exact hcrc'
  have hinfo : (as ++ [last]).foldl (receive message) {} = as.foldl (receive message) {} := by
    rw [List.foldl_append, hlast]
    rfl
  refine ⟨_, (deserializerInit_iff _ _ _).mpr ⟨wires (as ++ [last]), hlt, hmessage, rfl⟩, ?_⟩
  rw [← hinfo]
  exact deserializeLoop_reads crypto password (reads_wires hwritten.order hwritten.small) _ _ _
    (inside_start (by omega)) (rest_start hmessage) rfl (Patched.refl message)
    (show (wires (as ++ [last])).length < message.length + 1 by omega) hall

/-- What is written and secured with a password is accepted with it. -/
theorem finalizeStunPacket_accepted {message : List UInt8} (h : Written header ctx as)
    (hplain : ∀ a ∈ as, Plain a.tag) (hpassword : password ≠ [])
    (hok : finalizeStunPacket crypto ctx (some password) = .ok message) :
    Accepts crypto password message header (as.foldl (receive message) {}) := by
  obtain ⟨ctx1, hintegrity, hrest⟩ := bind_eq_ok hok
  obtain ⟨ctx2, hfingerprint, hrest⟩ := bind_eq_ok hrest
  obtain ⟨⟨ctx3, bytes⟩, hfinal, hbytes⟩ := bind_eq_ok hrest
  rw [Except.ok.inj hbytes] at hfinal
  obtain ⟨mac, h20, hwritten, hlength, hmac⟩ := addIntegrity_written h hintegrity
  have hgenuine : ∀ total bs, AllGenuine crypto password
      (headerBytes header total ++ wires (as ++ [⟨typeMessageIntegrity, mac⟩] ++ bs)) headerLength
      (as ++ [⟨typeMessageIntegrity, mac⟩]) := by
    intro total bs
    have h1 : typeMessageIntegrity ≠ typeErrorCode := by decide
    have h2 : typeMessageIntegrity ≠ typeFingerprint := by decide
    rw [allGenuine_append]
    refine ⟨allGenuine_of_plain hplain _, ?_, trivial⟩
    show Genuine crypto password _ (20 + (wires as).length + 4 + alignSizeToWord mac.length) _
    rw [h20]
    refine ⟨fun h => absurd h h1, fun _ => ⟨hpassword, ?_⟩, fun h => absurd h h2⟩
    rw [List.append_assoc as]
    exact (congrArg (crypto.hmacFxn password) (covered_wires header total as _ hlength)).trans hmac
  have haccepted := fingerprint_accepted hwritten hgenuine hfingerprint (asIceResult_eq_ok hfinal)
  rw [List.foldl_append] at haccepted
  exact haccepted

/-- What is written without a password is accepted with any. -/
theorem finalizeStunPacket_open {message : List UInt8} (h : Written header ctx as) (hplain : ∀ a ∈ as, Plain a.tag)
    (hok : finalizeStunPacket crypto ctx none = .ok message) :
    Accepts crypto password message header (as.foldl (receive message) {}) := by
  obtain ⟨ctx1, hnone, hrest⟩ := bind_eq_ok hok
  obtain ⟨ctx2, hfingerprint, hrest⟩ := bind_eq_ok hrest
  obtain ⟨⟨ctx3, bytes⟩, hfinal, hbytes⟩ := bind_eq_ok hrest
  rw [Except.ok.inj hbytes] at hfinal
  rw [← Except.ok.inj hnone] at hfingerprint
  exact fingerprint_accepted h (fun _ _ => allGenuine_of_plain hplain _) hfingerprint (asIceResult_eq_ok hfinal)

end written

/-! ### Addresses -/

/-- `Ice_IsSameTransportAddress` -/
def isSameTransportAddress (a b : StunAttributeAddress) : Bool :=
  a.family = b.family ∧ a.port = b.port ∧
    a.address.take (addressSize a.family) = b.address.take (addressSize a.family)

theorem xorBytes_length (bs key : List UInt8) : (xorBytes bs key).length = bs.length := by
  rw [xorBytes, List.length_mapIdx]

theorem xorBytes_take (bs key : List UInt8) (n : ℕ) : (xorBytes bs key).take n = xorBytes (bs.take n) key := by
  apply List.ext_getElem?
  intro i
  simp only [xorBytes, List.getElem?_take, List.getElem?_mapIdx]
  split_ifs <;> rfl

theorem xorBytes_xorBytes (bs key : List UInt8) : xorBytes (xorBytes bs key) key = bs := by
  apply List.ext_getElem
  · rw [xorBytes_length, xorBytes_length]
  · intro i _ _
    simp only [xorBytes, List.getElem_mapIdx]
    rw [UInt8.xor_assoc, UInt8.xor_self, UInt8.xor_zero]

/-- The value of an address attribute. -/
def addressValue (a : StunAttributeAddress) : List UInt8 :=
  beBytes 2 a.family.toNat ++ beBytes 2 a.port.toNat ++ a.address.take (addressSize a.family)

theorem addressValue_length {a : StunAttributeAddress} (h : a.family = addressIPv4 ∨ a.family = addressIPv6) :
    (addressValue a).length = 8 ∧ addressSize a.family = 4 ∨
      (addressValue a).length = 20 ∧ addressSize a.family = 16 := by
  simp only [addressValue, List.length_append, beBytes_length, List.length_take, a.size]
  rcases h with h | h
  · left
    rw [h]
    decide
  · right
    rw [h]
    decide

theorem addressSize_le (family : UInt16) : addressSize family ≤ 16 := by
  unfold addressSize
  split_ifs <;> decide

theorem xorAddress_valid {tag : UInt16} {n : ℕ} (hxor : isXorAddress tag) (h : n = 8 ∨ n = 20) :
    isAttributeLengthValid tag n := by
  rw [isAttributeLengthValid, if_pos (.inr (.inr (.inr (.inr (.inr hxor)))))]
  exact decide_eq_true h

theorem addAttributeAddress_written {header : StunHeader} {ctx ctx' : StunContext} {as : List Item} {tag : UInt16}
    {address : StunAttributeAddress} (hxor : isXorAddress tag) (h : Written header ctx as)
    (hadd : addAttributeAddress ctx address tag = .ok ctx') :
    Written header ctx' (as ++ [⟨tag, addressValue (xorAddress ctx.pStart address)⟩]) := by
  rw [addAttributeAddress] at hadd
  by_cases hfamily : address.family ≠ addressIPv4 ∧ address.family ≠ addressIPv6
  · rw [if_pos hfamily] at hadd
    cases hadd
  rw [if_neg hfamily] at hadd
  have hfamily' : address.family = addressIPv4 ∨ address.family = addressIPv6 := by
    by_contra hno
    exact hfamily (not_or.mp hno)
  obtain ⟨out, hout⟩ : ∃ out, out = xorAddress ctx.pStart address := ⟨_, rfl⟩
  have houtFamily : out.family = address.family := by
    rw [hout]
    rfl
  have hlength := addressValue_length (houtFamily ▸ hfamily')
  have hvalid : isAttributeLengthValid tag (addressValue out).length := xorAddress_valid hxor (by omega)
  cases hflag : checkAndUpdateAttributeFlag ctx tag with
  | error e =>
    rw [hflag] at hadd
    cases hadd
  | ok ctx1 =>
    obtain ⟨hstart, hindex, hnext⟩ :=
      checkAndUpdateAttributeFlag_ok (a := ⟨tag, addressValue out⟩) hflag hvalid
    have hremaining : remaining ctx1 = remaining ctx := by
      rw [remaining, remaining, hstart, hindex]
    rw [hflag] at hadd
    dsimp only at hadd
    rw [if_pos hxor] at hadd
    split_ifs at hadd with hroom
    have hctx : writeAttribute ctx1 ⟨tag, addressValue out⟩ = ctx' := by
      rw [← hstart] at hout
      rw [hout]
      exact Except.ok.inj hadd
    rw [← hout, ← hctx]
    refine writeAttribute_written h hstart hindex hnext ?_ ?_
    · show 4 + alignSizeToWord (addressValue out).length ≤ remaining ctx
      rw [hremaining, ← houtFamily] at hroom
      rw [alignSizeToWord, padLength]
      omega
    · show (addressValue out).length < 65536
      omega

/-- An address comes back from what was made of it on the way out. -/
theorem addressIn_xorAddress {message : List UInt8} {a : StunAttributeAddress} (old : StunAttributeAddress) :
    isSameTransportAddress a (addressIn message ⟨typeXorMappedAddress, addressValue (xorAddress message a)⟩ old) := by
  obtain ⟨out, hout⟩ : ∃ out, out = xorAddress message a := ⟨_, rfl⟩
  have hfamily : out.family = a.family := by
    rw [hout]
    rfl
  have h2 : ∀ k, (beBytes 2 k).length = 2 := fun k => beBytes_length 2 k
  have hvalue : addressValue out ≠ [] := by
    intro h
    have hlen := congrArg List.length h
    rw [addressValue, List.length_append, List.length_append, h2, h2, List.length_nil] at hlen
    omega
  have htag : tagOf (addressValue out) = a.family := by
    rw [tagOf, addressValue, List.append_assoc, List.take_left' (h2 _), beNat_beBytes_of_lt 2 _ out.family.toNat_lt,
      UInt16.ofNat_toNat, hfamily]
  have hport : UInt16.ofNat (lengthOf (addressValue out)) = out.port := by
    rw [lengthOf, addressValue, List.append_assoc, List.drop_left' (h2 _), List.take_left' (h2 _),
      beNat_beBytes_of_lt 2 _ out.port.toNat_lt, UInt16.ofNat_toNat]
  have hdrop : (addressValue out).drop 4 = out.address.take (addressSize a.family) := by
    rw [addressValue, hfamily]
    apply List.drop_left'
    rw [List.length_append, h2, h2]
  have hsize : (out.address.take (addressSize a.family)).length = addressSize a.family := by
    rw [List.length_take, out.size]
    exact Nat.min_eq_left (addressSize_le _)
  have hbytes : ((putAt old.address 0 ((addressValue out).drop 4)).take 16).take (addressSize a.family) =
      out.address.take (addressSize a.family) := by
    rw [hdrop, List.take_take, Nat.min_eq_left (addressSize_le _), putAt, List.take_zero, List.nil_append]
    exact List.take_left' hsize
  have hxor : isXorAddress typeXorMappedAddress := by decide
  have haddress : out.address = xorBytes a.address (xorKey message a.family) := by
    rw [hout]
    rfl
  rw [← hout, addressIn, parseAttributeAddress, if_neg hvalue]
  dsimp only
  rw [if_pos hxor]
  apply decide_eq_true
  refine ⟨htag.symm, ?_, ?_⟩
  · show a.port = 0x2112 ^^^ UInt16.ofNat (lengthOf (addressValue out))
    rw [hport, hout]
    show a.port = 0x2112 ^^^ (0x2112 ^^^ a.port)
    rw [← UInt16.xor_assoc, UInt16.xor_self, UInt16.zero_xor]
  · show a.address.take _ = (xorBytes _ (xorKey message (tagOf (addressValue out)))).take _
    rw [htag, xorBytes_take, hbytes, haddress, ← xorBytes_take, xorBytes_xorBytes]

theorem Written.xorAddress_eq {header : StunHeader} {ctx : StunContext} {as : List Item} (h : Written header ctx as)
    (n : ℕ) (body : List UInt8) (address : StunAttributeAddress) :
    xorAddress ctx.pStart address = xorAddress (headerBytes header n ++ body) address := by
  obtain ⟨m, hm⟩ := h.pStart_eq
  have hkey : xorKey ctx.pStart address.family = xorKey (headerBytes header n ++ body) address.family := by
    rw [xorKey, xorKey, hm, (headerBytes_fields header m _).2.2.2.1, (headerBytes_fields header n body).2.2.2.1]
  simp only [xorAddress, hkey]

end IotcRa8p1.Ice
